import DurableKV.Serving
import DurableKV.Proofs.Json.Printable
import DurableKV.Proofs.Log.Scan

/-!
# The lines of a text

A node cuts its input into lines as bytes. `Text.lines` says what the lines of a text are without a
look at bytes, and `inputLines_ofText` that the two agree: a line feed and a carriage return are
bytes of their own in UTF-8, so no other character can be taken for one of them, nor cut in two.
`Text.requests` are those lines that are requests: all but the ones that are nothing but white space,
which are the blank lines that a node passes over (`Text.isAllBlank_eq`).
-/

namespace DurableKV

namespace Bytes

/-! ## Control characters in UTF-8 -/

/-- A byte of ASCII stands for its own character and in no other. -/
theorem mem_utf8EncodeChar_iff {b : UInt8} (hb : b < 0x80) {c : Char} :
    b ∈ String.utf8EncodeChar c ↔ c.toNat = b.toNat := by
  rw [UInt8.lt_iff_toNat_lt] at hb
  by_cases hascii : c.toNat < 0x80
  · rw [utf8EncodeChar_of_lt hascii, List.mem_singleton, ← UInt8.toNat_inj,
      toNat_ofNat_of_lt (by omega)]
    exact eq_comm
  · have hsmall : b.toNat < 0x80 := hb
    constructor
    · intro hmem
      have hle := le_of_mem_utf8EncodeChar (Nat.le_of_not_lt hascii) hmem
      rw [UInt8.le_iff_toNat_le] at hle
      exact absurd hsmall (Nat.not_lt.2 hle)
    · intro heq
      omega

/-- A text without a newline has no newline byte: only a newline is written with one. -/
theorem newline_notMem_ofChars {cs : List Char} (h : '\n' ∉ cs) : newline ∉ ofChars cs := by
  intro hmem
  obtain ⟨c, hc, hbyte⟩ := List.mem_flatMap.1 hmem
  rw [mem_utf8EncodeChar_iff (by decide)] at hbyte
  have hchar : c = '\n' := Char.toNat_inj.1 hbyte
  exact h (hchar ▸ hc)

/-- A newline is written as one byte. -/
theorem ofChars_newline_cons (cs : List Char) : ofChars ('\n' :: cs) = newline :: ofChars cs := by
  rw [ofChars_cons, utf8EncodeChar_of_lt (by decide)]
  rfl

/-- Only the empty text has no bytes. -/
theorem ofChars_eq_nil_iff {cs : List Char} : ofChars cs = [] ↔ cs = [] := by
  cases cs with
  | nil => simp
  | cons c cs =>
    rw [ofChars_cons, List.append_eq_nil_iff]
    simp [String.utf8EncodeChar_ne_nil]

end Bytes

/-! ## Lines of characters -/

namespace Text

/-- A line without the carriage return at its end. -/
def dropReturn (line : List Char) : List Char :=
  if line.getLast? = some '\r' then line.dropLast else line

/-- The lines among the pieces of a text between its line feeds. All but the last piece are lines,
and a carriage return at the end of one belongs to the line feed. The last is a line as it is,
unless it is empty. -/
def linesOf : List (List Char) → List (List Char)
  | [] => []
  | [last] => if last = [] then [] else [last]
  | piece :: pieces => dropReturn piece :: linesOf pieces

/-- The lines of a text. -/
def lines (s : String) : List String := (linesOf (s.toList.splitOn '\n')).map String.ofList

/-- A piece in front of others is a line. -/
theorem linesOf_cons {pieces : List (List Char)} (h : pieces ≠ []) (piece : List Char) :
    linesOf (piece :: pieces) = dropReturn piece :: linesOf pieces := by
  cases pieces with
  | nil => exact absurd rfl h
  | cons next pieces => rfl

/-! ## White space -/

/-- The characters that Unicode calls white space. -/
def whiteSpace : List Char :=
  ['\t', '\n', '\x0B', '\x0C', '\r', ' ', '\x85', '\xA0', '\u1680', '\u2000', '\u2001', '\u2002',
    '\u2003', '\u2004', '\u2005', '\u2006', '\u2007', '\u2008', '\u2009', '\u200A', '\u2028',
    '\u2029', '\u202F', '\u205F', '\u3000']

/-- The blank characters are white space. -/
theorem isBlank_iff {c : Char} : isBlank c = true ↔ c ∈ whiteSpace := by
  simp only [whiteSpace, List.mem_cons, List.not_mem_nil, or_false, ← Char.toNat_inj,
    Char.reduceToNat, isBlank, Bool.or_eq_true, Bool.and_eq_true, decide_eq_true_eq, beq_iff_eq]
  omega

/-- A text is blank if all of it is white space. -/
theorem isAllBlank_eq (s : String) : isAllBlank s = s.toList.all whiteSpace.contains := by
  rw [Bool.eq_iff_iff]
  simp only [isAllBlank, List.all_eq_true, isBlank_iff, List.contains_iff_mem]

/-- The request lines of a text: those that are not white space from end to end. -/
def requests (s : String) : List String :=
  (lines s).filter fun line => ! line.toList.all whiteSpace.contains

end Text

/-! ## Lines of bytes -/

/-- The carriage return at the end of a line is the same in characters and in bytes. -/
theorem dropReturn_ofChars (cs : List Char) :
    dropReturn (Bytes.ofChars cs) = Bytes.ofChars (Text.dropReturn cs) := by
  rcases List.eq_nil_or_concat cs with rfl | ⟨init, c, rfl⟩
  · rfl
  rw [List.concat_eq_append, Bytes.ofChars_append, Bytes.ofChars_cons, Bytes.ofChars_nil,
    List.append_nil]
  unfold dropReturn Text.dropReturn
  rw [List.getLast?_concat, List.dropLast_concat]
  by_cases hreturn : c = '\r'
  · subst hreturn
    rw [Bytes.utf8EncodeChar_of_lt (by decide), List.getLast?_concat, List.dropLast_concat]
    rfl
  · have hbyte : ¬ (Bytes.ofChars init ++ String.utf8EncodeChar c).getLast? = some 0x0D := by
      intro hlast
      rw [List.getLast?_append, List.getLast?_eq_some_getLast String.utf8EncodeChar_ne_nil,
        Option.some_or] at hlast
      have hmem := List.getLast_mem (String.utf8EncodeChar_ne_nil (c := c))
      rw [Option.some.inj hlast, Bytes.mem_utf8EncodeChar_iff (by decide)] at hmem
      exact hreturn (Char.toNat_inj.1 hmem)
    rw [if_neg hbyte, if_neg (fun h => hreturn (Option.some.inj h)), Bytes.ofChars_append,
      Bytes.ofChars_cons, Bytes.ofChars_nil, List.append_nil]

/-- What stands in front of a newline is a line. -/
theorem inputLines_cons {line : Bytes} (h : Bytes.newline ∉ line) (rest : Bytes) :
    inputLines (line ++ Bytes.newline :: rest) = dropReturn line :: inputLines rest := by
  rw [inputLines, inputLines, Bytes.lines_append_newline h]
  rfl

/-- Input without a newline is one line, unless it is empty. -/
theorem inputLines_of_notMem {line : Bytes} (h : Bytes.newline ∉ line) :
    inputLines line = if line = [] then [] else [line] := by
  rw [inputLines, Bytes.lines_of_notMem h]
  rfl

/-- The lines of the bytes of a text are the bytes of its lines. -/
theorem inputLines_ofChars (cs : List Char) :
    inputLines (Bytes.ofChars cs) = (Text.linesOf (cs.splitOn '\n')).map Bytes.ofChars := by
  by_cases hmem : '\n' ∈ cs
  · -- the first line feed ends a line, and what follows it is shorter
    obtain ⟨line, rest, hcs, hline⟩ := List.eq_append_cons_of_mem hmem
    have hshorter : rest.length < cs.length := by
      rw [hcs, List.length_append, List.length_cons]
      omega
    rw [hcs, List.splitOn_append_cons_self_of_not_mem hline,
      Text.linesOf_cons (List.splitOn_ne_nil _ _), List.map_cons, Bytes.ofChars_append,
      Bytes.ofChars_newline_cons, inputLines_cons (Bytes.newline_notMem_ofChars hline),
      dropReturn_ofChars, inputLines_ofChars rest]
  · rw [List.splitOn_eq_singleton hmem, inputLines_of_notMem (Bytes.newline_notMem_ofChars hmem),
      Text.linesOf]
    by_cases hempty : cs = []
    · rw [if_pos hempty, if_pos (Bytes.ofChars_eq_nil_iff.2 hempty)]
      rfl
    · rw [if_neg hempty, if_neg (mt Bytes.ofChars_eq_nil_iff.1 hempty)]
      rfl
termination_by cs.length

/-- **The lines of a text are the lines of its bytes.** -/
theorem inputLines_ofText (s : String) :
    inputLines (Bytes.ofText s) = (Text.lines s).map Bytes.ofText := by
  have hchars : Bytes.ofText s = Bytes.ofChars s.toList := by
    rw [← Bytes.ofText_ofList, String.ofList_toList]
  have htexts : (fun cs => Bytes.ofText (String.ofList cs)) = Bytes.ofChars :=
    funext Bytes.ofText_ofList
  rw [hchars, inputLines_ofChars, Text.lines, List.map_map]
  exact congrArg (List.map · _) htexts.symm

end DurableKV
