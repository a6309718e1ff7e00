/-!
# Bytes

Files, log records and client input are sequences of bytes; texts are their UTF-8 reading.

* `Bytes.ofText` and `Bytes.toText?` are the two directions of UTF-8; `toText?_ofText` says that
  writing a text and reading it back is the identity.
* `Bytes.littleEndian` is the fixed-width form of a 64-bit number.
* `Bytes.lines` cuts bytes at newlines into complete lines and a tail; `joinLines_lines` says that
  nothing is lost, and `lines_append_newline` that a line is cut exactly at its newline.
-/

namespace DurableKV

/-- A sequence of bytes, first byte first. -/
abbrev Bytes := List UInt8

namespace Bytes

/-! ## Text -/

/-- The UTF-8 bytes of a text. -/
def ofText (s : String) : Bytes := s.toUTF8.data.toList

/-- The text whose UTF-8 these bytes are, if they are well-formed UTF-8. -/
def toText? (bs : Bytes) : Option String := String.fromUTF8? ⟨bs.toArray⟩

/-- The bytes of a text are read as that text. -/
@[simp] theorem toText?_ofText (s : String) : toText? (ofText s) = some s := by
  have h : (⟨(ofText s).toArray⟩ : ByteArray) = s.toUTF8 := by
    simp [ofText]
  simp only [toText?, h, String.fromUTF8?]
  split
  · rfl
  · rename_i hv
    exact absurd s.isValidUTF8 hv

/-- The bytes of one text and of another stand one after the other. -/
@[simp] theorem ofText_append (s t : String) : ofText (s ++ t) = ofText s ++ ofText t := by
  simp [ofText]

/-! ## Numbers -/

/-- The eight bytes of a 64-bit number, least significant byte first. -/
def littleEndian (n : UInt64) : Bytes :=
  [n.toUInt8, (n >>> 8).toUInt8, (n >>> 16).toUInt8, (n >>> 24).toUInt8,
   (n >>> 32).toUInt8, (n >>> 40).toUInt8, (n >>> 48).toUInt8, (n >>> 56).toUInt8]

/-- A number below 16 as a lower-case hexadecimal digit. -/
def hexDigit (n : Nat) : Char :=
  if n < 10 then Char.ofNat (48 + n) else Char.ofNat (87 + n)

/-- Two lower-case hexadecimal digits for every byte. -/
def toHex (bs : Bytes) : String :=
  String.ofList (bs.flatMap fun b => [hexDigit (b.toNat / 16), hexDigit (b.toNat % 16)])

/-! ## Lines -/

/-- The byte that ends a line. -/
@[match_pattern] abbrev newline : UInt8 := 0x0A

/-- One byte more in front of complete lines and a tail. -/
def consByte (b : UInt8) : List Bytes × Bytes → List Bytes × Bytes
  | (ls, tail) =>
    if b = newline then ([] :: ls, tail)
    else
      match ls with
      | [] => ([], b :: tail)
      | l :: ls => ((b :: l) :: ls, tail)

/-- The complete lines, each without its newline, and the bytes after the last newline. -/
def lines (bs : Bytes) : List Bytes × Bytes := bs.foldr consByte ([], [])

/-- There are no lines in no bytes. -/
@[simp] theorem lines_nil : lines [] = ([], []) := rfl

/-- One byte more in front belongs to the first line, or ends an empty one. -/
theorem lines_cons (b : UInt8) (bs : Bytes) : lines (b :: bs) = consByte b (lines bs) := rfl

/-- Lines put together again, each ended by a newline. -/
def joinLines (ls : List Bytes) : Bytes := ls.flatMap (· ++ [newline])

/-- A line more in front, with its newline. -/
theorem joinLines_cons (l : Bytes) (ls : List Bytes) :
    joinLines (l :: ls) = l ++ newline :: joinLines ls := by
  simp [joinLines]

/-- Lines and what stands behind them make up the bytes that they were cut from. -/
theorem joinLines_lines (bs : Bytes) : joinLines (lines bs).1 ++ (lines bs).2 = bs := by
  induction bs with
  | nil => rfl
  | cons b bs ih =>
    rw [lines_cons]
    generalize lines bs = cut at ih ⊢
    obtain ⟨ls, tail⟩ := cut
    by_cases h : b = newline
    · simp only [consByte, h, ↓reduceIte, joinLines_cons, List.nil_append, List.cons_append, ih]
    · cases ls with
      | nil => simpa [consByte, h, joinLines] using ih
      | cons l ls => simpa [consByte, h, joinLines_cons] using ih

/-- A line without newlines in front, ended by one, is the first line. -/
theorem lines_append_newline {l : Bytes} (h : newline ∉ l) (bs : Bytes) :
    lines (l ++ newline :: bs) = (l :: (lines bs).1, (lines bs).2) := by
  induction l with
  | nil => simp [lines_cons, consByte]
  | cons b l ih =>
    rw [List.mem_cons, not_or] at h
    simp [lines_cons, consByte, Ne.symm h.1, ih h.2]

end Bytes

end DurableKV
