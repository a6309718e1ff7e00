import Mathlib.Logic.ExistsUnique
import DurableKV.Proofs.Log.Scan

/-!
# Well-formed logs

Bytes are cut into complete lines and a tail in one way. A log is well-formed if every one of its
complete lines is a record with the number of the line, whatever the tail.
`all_reads_wellFormed` says that a scan reads exactly the well-formed logs, and that of any other
log it reports the first line that is not such a record.

What the scan makes of one line is said twice, without the cursor: `Record.Stands` says that a line
is the record of its place, and `Refused` which failure is reported of it if not. There are four:
the line is empty, it cannot be read, its checksum is wrong, or its number is. The first two name
the byte where the line begins, which is where the lines before it end (`offset_takeAll`).
-/

namespace DurableKV

namespace Bytes

/-- Complete lines and a tail that these bytes are put together from. -/
structure IsCut (bs : Bytes) (ls : List Bytes) (tail : Bytes) : Prop where
  /-- Nothing else is in the bytes. -/
  joined : joinLines ls ++ tail = bs
  /-- A line ends at its first newline. -/
  lines : ∀ l ∈ ls, newline ∉ l
  /-- No line ends in the tail. -/
  tail : newline ∉ tail

/-- Splitting the bytes at their newlines is the only cut. -/
theorem isCut_iff {bs : Bytes} {ls : List Bytes} {tail : Bytes} :
    IsCut bs ls tail ↔ lines bs = (ls, tail) := by
  constructor
  · intro h
    rw [← h.joined, lines_joinLines h.lines h.tail]
  · intro h
    have hjoin := joinLines_lines bs
    have hnone := newline_notMem_lines bs
    rw [h] at hjoin hnone
    exact ⟨hjoin, hnone.1, hnone.2⟩

/-- Bytes are cut into lines and a tail in exactly one way. -/
theorem isCut_unique (bs : Bytes) : ∃! cut : List Bytes × Bytes, IsCut bs cut.1 cut.2 :=
  ⟨lines bs, isCut_iff.2 rfl, fun _ h => (isCut_iff.1 h).symm⟩

end Bytes

namespace Log

/-! ## One line -/

/-- A line is this record, with this number, wherever the line begins. -/
structure Record.Stands (r : Record) (line : Bytes) (n : UInt64) : Prop where
  /-- The line is not empty. -/
  nonempty : line ≠ []
  /-- The line is read as the record. -/
  parsed : ∀ offset, Record.parse line offset = .ok r
  /-- The record has the expected number. -/
  sequence : r.sequence = n

/-- At most one record stands on a line, whatever its number is said to be. -/
theorem Record.Stands.unique {r r' : Record} {line : Bytes} {m n : UInt64} (h : r.Stands line m)
    (h' : r'.Stands line n) : r = r' :=
  Except.ok.inj ((h.parsed 0).symm.trans (h'.parsed 0))

/-- The record of a command stands on the line written for it. -/
theorem Record.stands_body (n : UInt64) (c : Command) :
    (Record.make n (.command c)).Stands (Record.make n (.command c)).body n :=
  ⟨Record.body_ne_nil _, Record.parse_body_command n c, rfl⟩

/-- What is reported of a line that begins at a byte and is not the record with a number. -/
inductive Refused (n : UInt64) (start : Nat) (line : Bytes) : Failure → Prop where
  /-- The line is empty. -/
  | empty (hempty : line = []) : Refused n start line (.corrupt (.offset start) .empty)
  /-- The line is no record. -/
  | unreadable {cause : Json.ReadError} (hline : line ≠ [])
      (hread : Record.reading.run line = .error cause) :
      Refused n start line (.corrupt (.offset start) (.unreadable cause))
  /-- The line is a record, but its checksum is another one. -/
  | checksum {r : Record} (hline : line ≠ []) (hread : Record.reading.run line = .ok r)
      (hchecksum : r.checksum ≠ Record.checksumOf r.sequence r.entry) :
      Refused n start line (.corrupt (.sequence r.sequence)
        (.checksum r.checksum (Record.checksumOf r.sequence r.entry)))
  /-- The line is a record, but its number is another one. -/
  | gap {r : Record} (hline : line ≠ []) (hparse : ∀ offset, Record.parse line offset = .ok r)
      (hsequence : r.sequence ≠ n) :
      Refused n start line (.corrupt (.sequence r.sequence) (.gap n r.sequence))

namespace Cursor

/-- A line is taken exactly if a record with the next number stands on it. -/
theorem take_eq_ok_iff {c c' : Cursor} {line : Bytes} {r : Record} :
    c.take line = .ok (r, c') ↔
      r.Stands line (c.last + 1) ∧ c' = ⟨c.offset + line.length + 1, r.sequence⟩ := by
  constructor
  · intro h
    obtain ⟨hparse, hsequence, hc'⟩ := take_eq_ok h
    refine ⟨⟨?_, Record.parse_of_parse hparse, hsequence⟩, hc'⟩
    rintro rfl
    cases h
  · rintro ⟨⟨hline, hparse, hsequence⟩, rfl⟩
    rw [take, if_neg hline, hparse]
    exact if_pos hsequence

/-- A line cannot be taken exactly for one of the reasons to refuse it. -/
theorem take_eq_error_iff {c : Cursor} {line : Bytes} {e : Failure} :
    c.take line = .error e ↔ Refused (c.last + 1) c.offset line e := by
  constructor
  · intro h
    unfold take at h
    split at h
    · rename_i hline
      cases h
      exact .empty hline
    · rename_i hline
      split at h
      · rename_i hparse
        cases h
        rcases Record.parse_eq_error_iff.1 hparse with
          ⟨cause, hread, rfl⟩ | ⟨r, hread, hchecksum, rfl⟩
        · exact .unreadable hline hread
        · exact .checksum hline hread hchecksum
      · rename_i hparse
        split at h
        · cases h
        · rename_i hsequence
          cases h
          exact .gap hline (Record.parse_of_parse hparse) hsequence
  · intro h
    cases h with
    | empty hline => rw [take, if_pos hline]
    | unreadable hline hread => rw [take, if_neg hline, Record.parse, hread]
    | checksum hline hread hchecksum =>
      simp only [take, if_neg hline, Record.parse, hread, if_neg hchecksum]
    | gap hline hparse hsequence =>
      simp only [take, if_neg hline, hparse, if_neg hsequence]

end Cursor

/-! ## All lines -/

/-- Every line is a record that has the number of its place behind a number. -/
def WellFormedFrom (last : UInt64) (lines : List Bytes) : Prop :=
  ∀ (i : Nat) (line : Bytes), lines[i]? = some line →
    ∃ r : Record, r.Stands line (last + UInt64.ofNat (i + 1))

/-- Every line is a record, and their numbers are 1, 2, 3 and so on. -/
def WellFormed (lines : List Bytes) : Prop :=
  ∀ (i : Nat) (line : Bytes), lines[i]? = some line →
    ∃ r : Record, r.Stands line (UInt64.ofNat (i + 1))

/-- Numbering on from zero is numbering from the beginning. -/
theorem wellFormedFrom_zero {lines : List Bytes} : WellFormedFrom 0 lines ↔ WellFormed lines := by
  simp only [WellFormedFrom, WellFormed, UInt64.zero_add]

/-- Lines are well formed if the record with the next number stands on the first and the others are
well formed behind it. -/
theorem wellFormedFrom_cons {last : UInt64} {line : Bytes} {lines : List Bytes} :
    WellFormedFrom last (line :: lines) ↔
      (∃ r : Record, r.Stands line (last + 1)) ∧ WellFormedFrom (last + 1) lines := by
  constructor
  · intro h
    refine ⟨h 0 line rfl, fun i l hl => ?_⟩
    rw [← add_ofNat_succ]
    exact h (i + 1) l hl
  · rintro ⟨hfirst, hrest⟩ i l hl
    cases i with
    | zero =>
      cases hl
      exact hfirst
    | succ i =>
      rw [add_ofNat_succ]
      exact hrest i l hl

namespace Cursor

/-- Lines are taken if each of them is the record of its place, and only then. -/
theorem takeAll_isOk_iff {lines : List Bytes} {c : Cursor} :
    (∃ rs c', c.takeAll lines = .ok (rs, c')) ↔ WellFormedFrom c.last lines := by
  induction lines generalizing c with
  | nil =>
    refine ⟨fun _ i l hl => ?_, fun _ => ⟨[], c, rfl⟩⟩
    cases hl
  | cons line lines ih =>
    rw [wellFormedFrom_cons]
    constructor
    · rintro ⟨rs, c', h⟩
      obtain ⟨r, next, ss, hr, hss, -⟩ := takeAll_cons_eq_ok_iff.1 h
      obtain ⟨hstands, rfl⟩ := take_eq_ok_iff.1 hr
      refine ⟨⟨r, hstands⟩, ?_⟩
      rw [← hstands.sequence]
      exact ih.1 ⟨ss, c', hss⟩
    · rintro ⟨⟨r, hstands⟩, hrest⟩
      rw [← hstands.sequence] at hrest
      obtain ⟨ss, c', hss⟩ := (ih (c := ⟨c.offset + line.length + 1, r.sequence⟩)).2 hrest
      exact ⟨r :: ss, c', takeAll_cons_eq_ok_iff.2
        ⟨r, _, ss, take_eq_ok_iff.2 ⟨hstands, rfl⟩, hss, rfl⟩⟩

/-- Every line is taken as the record it is. -/
theorem stands_of_takeAll {lines : List Bytes} {c c' : Cursor} {rs : List Record}
    (h : c.takeAll lines = .ok (rs, c')) {i : Nat} {line : Bytes} (hline : lines[i]? = some line) :
    ∃ r, rs[i]? = some r ∧ r.Stands line (c.last + UInt64.ofNat (i + 1)) := by
  induction lines generalizing c rs i with
  | nil => cases hline
  | cons first lines ih =>
    obtain ⟨r, next, ss, hr, hss, rfl⟩ := takeAll_cons_eq_ok_iff.1 h
    obtain ⟨hstands, rfl⟩ := take_eq_ok_iff.1 hr
    cases i with
    | zero =>
      cases hline
      exact ⟨r, rfl, hstands⟩
    | succ i =>
      rw [add_ofNat_succ, ← hstands.sequence]
      exact ih hss hline

/-- Lines are refused for the first line that cannot be taken after those before it. -/
theorem takeAll_eq_error_iff {lines : List Bytes} {c : Cursor} {e : Failure} :
    c.takeAll lines = .error e ↔
      ∃ before line after rs between, lines = before ++ line :: after ∧
        c.takeAll before = .ok (rs, between) ∧ between.take line = .error e := by
  constructor
  · intro h
    induction lines generalizing c with
    | nil => cases h
    | cons line lines ih =>
      rcases takeAll_cons_eq_error_iff.1 h with hr | ⟨r, next, hr, hrest⟩
      · exact ⟨[], line, lines, [], c, rfl, rfl, hr⟩
      · obtain ⟨before, bad, after, ss, between, rfl, hss, hbad⟩ := ih hrest
        exact ⟨line :: before, bad, after, r :: ss, between, rfl,
          takeAll_cons_eq_ok_iff.2 ⟨r, next, ss, hr, hss, rfl⟩, hbad⟩
  · rintro ⟨before, line, after, rs, between, rfl, hbefore, hbad⟩
    rw [takeAll_append_of_ok hbefore, takeAll_cons_eq_error_iff.2 (Or.inl hbad)]
    rfl

/-- What is wrong with a line behind the first of a log is told by the lines before it. -/
theorem take_after_eq_error_iff {before : List Bytes} {between : Cursor} {rs : List Record}
    (h : takeAll {} before = .ok (rs, between)) {line : Bytes} {e : Failure} :
    between.take line = .error e ↔
      Refused (UInt64.ofNat (before.length + 1)) (Bytes.joinLines before).length line e := by
  have hoffset : between.offset = (Bytes.joinLines before).length :=
    (offset_takeAll h).trans (Nat.zero_add _)
  rw [take_eq_error_iff, next_of_takeAll h, hoffset]

end Cursor

/-! ## A whole log -/

/-- What a scan collects is what all lines are taken as. -/
theorem all_eq_ok_iff {content : Bytes} {rs : List Record} :
    (Scan.ofContent content).all.1 = .ok rs ↔ ∃ c, taken content = .ok (rs, c) :=
  ⟨taken_of_all, fun ⟨_, h⟩ => congrArg Prod.fst (all_of_taken h)⟩

/-- A scan fails with what the first line that cannot be taken fails with. -/
theorem all_eq_error_iff {content : Bytes} {e : Failure} :
    (Scan.ofContent content).all.1 = .error e ↔ taken content = .error e := by
  refine ⟨fun h => ?_, all_of_taken_error⟩
  cases htaken : taken content with
  | ok p =>
    rw [all_of_taken htaken] at h
    cases h
  | error e' =>
    rw [all_of_taken_error htaken] at h
    cases h
    rfl

/-- A scan reads exactly the logs that are well formed. All bytes are cut into complete lines and a
tail in one way. If every line is a record with the number of the line, then the records in the
lines are read, and the scan has gone as far as the lines do and met a torn tail if there is one. If
not, then it reports what is wrong with the first line that is no such record. Where that names a
byte, it is the one after all lines before, as a line is refused from there. Numbers are counted in
64 bits. -/
theorem all_reads_wellFormed (content : Bytes) :
    (∃! cut : List Bytes × Bytes, Bytes.IsCut content cut.1 cut.2) ∧
      ∀ lines tail, Bytes.IsCut content lines tail →
        let read := (Scan.ofContent content).all
        ((∃ rs, read.1 = .ok rs) ↔ WellFormed lines) ∧
        (∀ rs, read.1 = .ok rs →
          rs.length = lines.length ∧
          (∀ (i : Nat) (line : Bytes), lines[i]? = some line →
            ∃ r, rs[i]? = some r ∧ r.Stands line (UInt64.ofNat (i + 1))) ∧
          read.2.cursor.offset = (Bytes.joinLines lines).length ∧
          read.2.cursor.last = UInt64.ofNat lines.length ∧
          (read.2.torn = true ↔ tail ≠ [])) ∧
        ∀ e, read.1 = .error e ↔
          ∃ before line after, lines = before ++ line :: after ∧ WellFormed before ∧
            Refused (UInt64.ofNat (before.length + 1)) (Bytes.joinLines before).length line e := by
  refine ⟨Bytes.isCut_unique content, fun lines tail hcut => ?_⟩
  have hlines := Bytes.isCut_iff.1 hcut
  have htaken : taken content = Cursor.takeAll {} lines := by rw [taken, hlines]
  refine ⟨?_, fun rs hrs => ?_, fun e => ?_⟩
  · simp only [all_eq_ok_iff, htaken]
    rw [← wellFormedFrom_zero]
    exact Cursor.takeAll_isOk_iff
  · obtain ⟨c, hc⟩ := all_eq_ok_iff.1 hrs
    have hall := all_of_taken hc
    rw [htaken] at hc
    rw [hall, hlines]
    refine ⟨Cursor.length_takeAll hc, fun i line hline => ?_, ?_, ?_, ?_⟩
    · rw [← UInt64.zero_add (UInt64.ofNat (i + 1))]
      exact Cursor.stands_of_takeAll hc hline
    · exact (Cursor.offset_takeAll hc).trans (Nat.zero_add _)
    · exact (Cursor.last_takeAll hc).trans (UInt64.zero_add _)
    · simp
  · rw [all_eq_error_iff, htaken, Cursor.takeAll_eq_error_iff]
    constructor
    · rintro ⟨before, line, after, rs, between, hsplit, hbefore, hbad⟩
      exact ⟨before, line, after, hsplit,
        wellFormedFrom_zero.1 (Cursor.takeAll_isOk_iff.1 ⟨rs, between, hbefore⟩),
        (Cursor.take_after_eq_error_iff hbefore).1 hbad⟩
    · rintro ⟨before, line, after, hsplit, hformed, hrefused⟩
      obtain ⟨rs, between, hbefore⟩ :=
        (Cursor.takeAll_isOk_iff (c := {})).2 (wellFormedFrom_zero.2 hformed)
      exact ⟨before, line, after, rs, between, hsplit, hbefore,
        (Cursor.take_after_eq_error_iff hbefore).2 hrefused⟩

/-- One record is read although bytes without a newline follow it, and if an empty line comes
between them it is not: what is reported is the byte after the record. -/
theorem all_reads_wellFormed_torn_not_empty :
    ∃ r, r = Record.make 1 (.command (.delete "a")) ∧
      (∃ rs, (Scan.ofContent (r.line ++ [120])).all.1 = .ok rs) ∧
      (Scan.ofContent (r.line ++ [120])).all.2.torn = true ∧
      (Scan.ofContent (r.line ++ [Bytes.newline, 120])).all.1 =
        .error (.corrupt (.offset r.line.length) .empty) := by
  have hstands := Record.stands_body 1 (.delete "a")
  -- Nothing else is needed of the record, which would be computed below if it were in sight.
  refine ⟨_, rfl, ?_⟩
  generalize Record.make 1 (.command (.delete "a")) = r at hstands ⊢
  have hformed : WellFormed [r.body] := by
    intro i line hline
    cases i with
    | zero =>
      rw [List.getElem?_cons_zero, Option.some_inj] at hline
      exact ⟨r, hline ▸ hstands⟩
    | succ i => cases hline
  have hbody : Bytes.newline ∉ r.body := r.newline_notMem_body
  have hjoin : Bytes.joinLines [r.body] = r.line := by simp [Bytes.joinLines, Record.line]
  have htorn : Bytes.IsCut (r.line ++ [120]) [r.body] [120] :=
    ⟨by rw [hjoin], by simpa using hbody, by decide⟩
  have hempty : Bytes.IsCut (r.line ++ [Bytes.newline, 120]) [r.body, []] [120] :=
    ⟨by simp [Bytes.joinLines, Record.line], by simpa using hbody, by decide⟩
  obtain ⟨hread, hall, -⟩ := (all_reads_wellFormed (r.line ++ [120])).2 _ _ htorn
  obtain ⟨rs, hrs⟩ := hread.2 hformed
  obtain ⟨-, -, hrefused⟩ :=
    (all_reads_wellFormed (r.line ++ [Bytes.newline, 120])).2 _ _ hempty
  refine ⟨⟨rs, hrs⟩, (hall rs hrs).2.2.2.2.2 (by decide), ?_⟩
  rw [hrefused]
  refine ⟨[r.body], [], [], rfl, hformed, ?_⟩
  rw [hjoin]
  exact .empty rfl

end Log

end DurableKV
