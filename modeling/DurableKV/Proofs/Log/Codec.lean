import DurableKV.Proofs.Log.Scan

/-!
# Records written and read

A log is a concatenation of written records, and nothing but the newlines in it says where one ends.

* `framed_by_newlines`: that is enough. The only newline of a written record is its last byte, so
  any concatenation of them is cut at its newlines into the records again.
* `written_and_read`: what a record of a command is written as is read as that record, and whatever
  is read as a record of a command, however it was spelled, is the one record of its number and
  command. The checksum is what makes the second half hold: it is taken of the written form of the
  entry, not of the text in the line.
-/

namespace DurableKV.Log.Record

open Bytes (newline)

/-- A record's line without its newline is the record's body. -/
theorem dropLast_line (r : Record) : r.line.dropLast = r.body := by
  rw [line, List.dropLast_concat]

/-- A record's line is one byte longer than its body. -/
theorem length_line (r : Record) : r.line.length = r.body.length + 1 := by
  rw [line, List.length_append, List.length_singleton]

/-- The lines of some records are their bodies, each ended by a newline. -/
theorem flatMap_line (rs : List Record) : rs.flatMap line = Bytes.joinLines (rs.map body) := by
  rw [Bytes.joinLines, List.flatMap_map]
  rfl

/-! ## Framing -/

/-- **Written records are framed by newlines**, whatever texts, names and numbers are in them. Each
has one newline, which is its last byte, and something in front of it, and no shorter part of it
from its beginning holds a newline. So records written one after the other are cut at the newlines
into what stands in front of each, in order, with nothing left over. -/
theorem framed_by_newlines :
    (∀ r : Record, (∀ i, r.line[i]? = some newline ↔ i + 1 = r.line.length) ∧
      r.line.dropLast ≠ [] ∧ ∀ p, p <+: r.line → p ≠ r.line → newline ∉ p) ∧
    ∀ rs : List Record, Bytes.lines (rs.flatMap line) = (rs.map fun r => r.line.dropLast, []) := by
  refine ⟨fun r => ⟨fun i => ?_, ?_, fun p hpart hne => ?_⟩, fun rs => ?_⟩
  · rw [length_line, Nat.add_right_cancel_iff]
    exact Bytes.getElem?_concat_newline_iff r.newline_notMem_body i
  · rw [dropLast_line]
    exact r.body_ne_nil
  · exact Bytes.newline_notMem_of_part r.newline_notMem_body hpart hne
  · have hbodies : ∀ l ∈ rs.map body, newline ∉ l := by
      intro l hl
      obtain ⟨r, -, rfl⟩ := List.mem_map.1 hl
      exact r.newline_notMem_body
    simp only [dropLast_line]
    rw [flatMap_line, Bytes.lines_joinLines_whole hbodies]

/-- A set with a newline in its key and its value in front of a note with control characters in a
name and in a text: two lines, and eight bytes of the first hold no newline. -/
theorem framed_by_newlines_escaped :
    let r := make 1 (.command (.set "a\nb" "\n"))
    let s := make 2 (.foreign "note" (.object [("\n\x01", .array [.string "\n"]),
      ("op", .string "note")]))
    newline ∉ r.line.take 8 ∧
      Bytes.lines (r.line ++ s.line) = ([r.line.dropLast, s.line.dropLast], []) := by
  intro r s
  obtain ⟨hrecord, hrecords⟩ := framed_by_newlines
  obtain ⟨-, -, hpart⟩ := hrecord r
  have hshorter : r.line.take 8 ≠ r.line := by decide +kernel
  refine ⟨hpart _ (List.take_prefix 8 r.line) hshorter, ?_⟩
  have hboth := hrecords [r, s]
  rw [List.flatMap_cons, List.flatMap_singleton] at hboth
  exact hboth

/-! ## Reading what was written -/

/-- **Records of commands are written and read without loss.** The record of any number and command
is read back from what it is written as. And any bytes that are read as a record of a command, be
they written as an object or an array, with fields in any order, fields that do not belong there,
blanks or escapes, give the record of that number and command, which is read back from what it is
written as in turn. -/
theorem written_and_read :
    (∀ (n : UInt64) (c : Command) (offset : Nat),
      parse (make n (.command c)).line.dropLast offset = .ok (make n (.command c))) ∧
    ∀ {line : Bytes} {offset : Nat} {r : Record} {c : Command}, parse line offset = .ok r →
      r.entry = .command c →
      r = make r.sequence (.command c) ∧ ∀ other, parse r.line.dropLast other = .ok r := by
  have hwritten : ∀ (n : UInt64) (c : Command) (offset : Nat),
      parse (make n (.command c)).line.dropLast offset = .ok (make n (.command c)) := by
    intro n c offset
    rw [dropLast_line]
    exact parse_body_command n c offset
  refine ⟨hwritten, fun {line offset r c} hparse hcommand => ?_⟩
  have hmake : r = make r.sequence (.command c) := by
    rw [← hcommand]
    exact parse_eq_make hparse
  refine ⟨hmake, fun other => ?_⟩
  rw [hmake]
  exact hwritten _ c other

/-- A record that is written as an array with blanks in it, and its command with the fields in
another order, an escape and a field that commands do not have. -/
theorem written_and_read_array :
    let line := Bytes.ofText ("[ 7, 227533425, \x7b\"value\": \"v\", \"note\": [1], " ++
      "\"key\": \"\\u006b\", \"op\": \"SET\"\x7d ]")
    let r := make 7 (.command (.set "k" "v"))
    line ≠ r.line.dropLast ∧ parse line 0 = .ok r ∧ parse r.line.dropLast 0 = .ok r := by
  intro line r
  have hne : line ≠ r.line.dropLast := by decide +kernel
  have hread : reading.run line = .ok ⟨7, 227533425, .command (.set "k" "v")⟩ := rfl
  have hchecksum : checksumOf 7 (.command (.set "k" "v")) = 227533425 := by decide +kernel
  have hparse : parse line 0 = .ok r := by
    refine parse_eq_ok_iff.2 ⟨?_, rfl⟩
    rw [hread, show r = ⟨7, checksumOf 7 _, .command (.set "k" "v")⟩ from rfl, hchecksum]
  obtain ⟨-, hothers⟩ := written_and_read
  obtain ⟨-, hagain⟩ := hothers hparse rfl
  exact ⟨hne, hparse, hagain 0⟩

end DurableKV.Log.Record
