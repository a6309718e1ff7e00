import DurableKV.Bytes

/-!
# Files

A file holds bytes and grows at its end. It is seen through `File.content`, first byte first;
`content_ofContent`, `content_withContent` and `content_append` say what the operations do to that
view. The null device is a file too: it reads as empty and keeps nothing that is written to it.
-/

namespace DurableKV

/-- A file. Since it grows at its end, its last byte comes first. -/
structure File where
  /-- Its bytes, last byte first. -/
  reversed : Bytes := []
  /-- Does it keep what is written? -/
  keeps : Bool := true
  deriving DecidableEq, Repr

namespace File

/-- The null device. -/
def null : File := { keeps := false }

/-- What a file holds. -/
def content (f : File) : Bytes := f.reversed.reverse

/-- A file that holds these bytes. -/
def ofContent (content : Bytes) : File := { reversed := content.reverse }

/-- A file with other bytes in it. -/
def withContent (f : File) (content : Bytes) : File := { f with reversed := content.reverse }

/-- Write bytes at the end of a file. -/
def append (f : File) (bs : Bytes) : File :=
  if f.keeps then { f with reversed := List.reverseAux bs f.reversed } else f

/-- A file that is made with a content has it. -/
@[simp] theorem content_ofContent (content : Bytes) : (ofContent content).content = content := by
  simp [ofContent, File.content]

/-- A file whose content is replaced has the new one. -/
@[simp] theorem content_withContent (f : File) (content : Bytes) :
    (f.withContent content).content = content := by
  simp [withContent, File.content]

/-- What is appended to a file that keeps it stands at its end. -/
theorem content_append {f : File} (h : f.keeps) (bs : Bytes) :
    (f.append bs).content = f.content ++ bs := by
  simp [append, File.content, h, List.reverseAux_eq]

end File

end DurableKV
