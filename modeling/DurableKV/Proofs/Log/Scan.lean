import DurableKV.Log.Scan
import DurableKV.Proofs.Log.Record

/-!
# Lines taken one after the other

`Cursor.takeAll` is reading a log without what surrounds it: it takes complete lines one after the
other, or stops at the first that is refused. A scan that collects records comes down to it
(`all_of_taken`).

* `takeAll_numbered`: the lines of records that were numbered on from the cursor are taken as they
  were written, if all their entries are lasting;
* `lasting_of_takeAll`: they are taken with the entries that were written only then.
-/

namespace DurableKV

/-! ## Lines -/

namespace Bytes

/-- A first part of a line that is not all of it holds no newline. -/
theorem newline_notMem_of_part {body p : Bytes} (hbody : newline ∉ body)
    (hpart : p <+: body ++ [newline]) (hne : p ≠ body ++ [newline]) : newline ∉ p := by
  rcases List.prefix_concat_iff.1 hpart with hwhole | hpart
  · exact absurd hwhole hne
  · intro hmem
    exact hbody (hpart.subset hmem)

/-- The only newline of a line is at its end. -/
theorem getElem?_concat_newline_iff {body : Bytes} (hbody : newline ∉ body) (i : Nat) :
    (body ++ [newline])[i]? = some newline ↔ i = body.length := by
  constructor
  · intro h
    rcases Nat.lt_trichotomy i body.length with hlt | heq | hgt
    · rw [List.getElem?_append_left hlt] at h
      exact absurd (List.mem_of_getElem? h) hbody
    · exact heq
    · rw [List.getElem?_eq_none (by rw [List.length_append]; exact hgt)] at h
      cases h
  · rintro rfl
    exact List.getElem?_concat_length

/-- Bytes without a newline are a tail and no line. -/
theorem lines_of_notMem {bs : Bytes} (h : newline ∉ bs) : lines bs = ([], bs) := by
  induction bs with
  | nil => rfl
  | cons b bs ih =>
    rw [List.mem_cons, not_or] at h
    rw [lines_cons, ih h.2, consByte, if_neg (Ne.symm h.1)]

/-- Lines put together are cut into the same again, whatever follows. -/
theorem lines_joinLines_append {ls : List Bytes} (hls : ∀ l ∈ ls, newline ∉ l) (bs : Bytes) :
    lines (joinLines ls ++ bs) = (ls ++ (lines bs).1, (lines bs).2) := by
  induction ls with
  | nil => rfl
  | cons l ls ih =>
    obtain ⟨hl, hls⟩ := List.forall_mem_cons.1 hls
    rw [joinLines_cons, List.append_assoc, List.cons_append, lines_append_newline hl, ih hls]
    rfl

/-- Lines put together and followed by bytes without a newline are cut into the same again. -/
theorem lines_joinLines {ls : List Bytes} {tail : Bytes} (hls : ∀ l ∈ ls, newline ∉ l)
    (htail : newline ∉ tail) : lines (joinLines ls ++ tail) = (ls, tail) := by
  rw [lines_joinLines_append hls, lines_of_notMem htail, List.append_nil]

/-- Lines that are written one after the other are read as the same lines, without a tail. -/
theorem lines_joinLines_whole {ls : List Bytes} (hls : ∀ l ∈ ls, newline ∉ l) :
    lines (joinLines ls) = (ls, []) := by
  rw [← List.append_nil (joinLines ls)]
  exact lines_joinLines hls List.not_mem_nil

/-- No line, nor the tail, holds a newline. -/
theorem newline_notMem_lines (bs : Bytes) :
    (∀ l ∈ (lines bs).1, newline ∉ l) ∧ newline ∉ (lines bs).2 := by
  induction bs with
  | nil => exact ⟨fun l hl => absurd hl List.not_mem_nil, List.not_mem_nil⟩
  | cons b bs ih =>
    rw [lines_cons]
    generalize lines bs = cut at ih ⊢
    obtain ⟨ls, tail⟩ := cut
    by_cases h : b = newline
    · simp only [consByte, h, if_true]
      exact ⟨List.forall_mem_cons.2 ⟨List.not_mem_nil, ih.1⟩, ih.2⟩
    · simp only [consByte, h, if_false]
      cases ls with
      | nil => exact ⟨ih.1, List.not_mem_cons_of_ne_of_not_mem (Ne.symm h) ih.2⟩
      | cons l ls =>
        obtain ⟨hl, hls⟩ := List.forall_mem_cons.1 ih.1
        exact ⟨List.forall_mem_cons.2
          ⟨List.not_mem_cons_of_ne_of_not_mem (Ne.symm h) hl, hls⟩, ih.2⟩

/-- The complete lines are cut into the same without what stood behind them. -/
theorem lines_joinLines_lines (bs : Bytes) : lines (joinLines (lines bs).1) = ((lines bs).1, []) :=
  lines_joinLines_whole (newline_notMem_lines bs).1

/-- More bytes can only add to the tail and put further lines behind. -/
theorem lines_append (bs cs : Bytes) :
    lines (bs ++ cs) =
      ((lines bs).1 ++ (lines ((lines bs).2 ++ cs)).1, (lines ((lines bs).2 ++ cs)).2) := by
  have hlines := lines_joinLines_append (newline_notMem_lines bs).1 ((lines bs).2 ++ cs)
  rw [← List.append_assoc, joinLines_lines] at hlines
  exact hlines

/-- Some lines and then others are written one after the other. -/
theorem joinLines_append (ls ms : List Bytes) :
    joinLines (ls ++ ms) = joinLines ls ++ joinLines ms :=
  List.flatMap_append

end Bytes

namespace Log

/-! ## Taking lines -/

/-- Counting on by one more starts at the next number. -/
theorem add_ofNat_succ (last : UInt64) (n : Nat) :
    last + UInt64.ofNat (n + 1) = last + 1 + UInt64.ofNat n := by
  rw [UInt64.ofNat_add, UInt64.add_comm (UInt64.ofNat n), ← UInt64.add_assoc]
  rfl

/-- Take lines one after the other: the records in them and the cursor after the last. -/
def Cursor.takeAll : Cursor → List Bytes → Except Failure (List Record × Cursor)
  | c, [] => .ok ([], c)
  | c, line :: lines => do
    let (r, c) ← c.take line
    let (rs, c) ← takeAll c lines
    .ok (r :: rs, c)

namespace Cursor

/-- Lines are taken if the first one is and the others are behind it. -/
theorem takeAll_cons_eq_ok_iff {c c' : Cursor} {line : Bytes} {lines : List Bytes}
    {rs : List Record} :
    c.takeAll (line :: lines) = .ok (rs, c') ↔
      ∃ r between ss, c.take line = .ok (r, between) ∧ between.takeAll lines = .ok (ss, c') ∧
        rs = r :: ss := by
  constructor
  · intro h
    obtain ⟨⟨r, between⟩, hr, h⟩ := Json.bind_eq_ok_iff.1 h
    obtain ⟨⟨ss, last⟩, hss, h⟩ := Json.bind_eq_ok_iff.1 h
    cases h
    exact ⟨r, between, ss, hr, hss, rfl⟩
  · rintro ⟨r, between, ss, hr, hss, rfl⟩
    exact Json.bind_eq_ok_iff.2 ⟨_, hr, Json.bind_eq_ok_iff.2 ⟨_, hss, rfl⟩⟩

/-- Taking lines fails if it does at the first one, or at the others behind it. -/
theorem takeAll_cons_eq_error_iff {c : Cursor} {line : Bytes} {lines : List Bytes} {e : Failure} :
    c.takeAll (line :: lines) = .error e ↔
      c.take line = .error e ∨
        ∃ r between, c.take line = .ok (r, between) ∧ between.takeAll lines = .error e := by
  rw [takeAll]
  cases c.take line with
  | error e' => simp [bind, Except.bind]
  | ok p =>
    obtain ⟨r, next⟩ := p
    cases hrest : next.takeAll lines <;> simp [bind, Except.bind, and_assoc, hrest]

/-- More lines are taken where the first ones left the cursor. -/
theorem takeAll_append_of_ok {lines others : List Bytes} : {c between : Cursor} →
    {rs : List Record} → c.takeAll lines = .ok (rs, between) →
    c.takeAll (lines ++ others) = (between.takeAll others).map fun p => (rs ++ p.1, p.2) := by
  induction lines with
  | nil =>
    intro c between rs h
    cases h
    rw [List.nil_append]
    cases c.takeAll others <;> rfl
  | cons line lines ih =>
    intro c between rs h
    obtain ⟨r, next, ss, hr, hss, rfl⟩ := takeAll_cons_eq_ok_iff.1 h
    rw [List.cons_append, takeAll, hr]
    show (next.takeAll (lines ++ others) >>= fun p => Except.ok (r :: p.1, p.2)) = _
    rw [ih hss]
    cases between.takeAll others <;> rfl

/-- What is taken of a line is its record, which has the next number, and the cursor moves behind
the line. -/
theorem take_eq_ok {c c' : Cursor} {line : Bytes} {r : Record} (h : c.take line = .ok (r, c')) :
    Record.parse line c.offset = .ok r ∧ r.sequence = c.last + 1 ∧
      c' = ⟨c.offset + line.length + 1, r.sequence⟩ := by
  unfold take at h
  split at h
  · cases h
  · split at h
    · cases h
    · rename_i hparse
      split at h
      · rename_i hsequence
        cases h
        exact ⟨hparse, hsequence, rfl⟩
      · cases h

/-- Every line counts with its newline. -/
theorem offset_takeAll {lines : List Bytes} : {c c' : Cursor} → {rs : List Record} →
    c.takeAll lines = .ok (rs, c') → c'.offset = c.offset + (Bytes.joinLines lines).length := by
  induction lines with
  | nil =>
    intro c c' rs h
    cases h
    rfl
  | cons line lines ih =>
    intro c c' rs h
    obtain ⟨r, next, ss, hr, hss, rfl⟩ := takeAll_cons_eq_ok_iff.1 h
    obtain ⟨-, -, rfl⟩ := take_eq_ok hr
    rw [ih hss, Bytes.joinLines_cons, List.length_append, List.length_cons]
    show c.offset + line.length + 1 + _ = _
    omega

/-- As many records are taken as there are lines. -/
theorem length_takeAll {lines : List Bytes} : {c c' : Cursor} → {rs : List Record} →
    c.takeAll lines = .ok (rs, c') → rs.length = lines.length := by
  induction lines with
  | nil =>
    intro c c' rs h
    cases h
    rfl
  | cons line lines ih =>
    intro c c' rs h
    obtain ⟨r, next, ss, -, hss, rfl⟩ := takeAll_cons_eq_ok_iff.1 h
    rw [List.length_cons, List.length_cons, ih hss]

/-- The number of the last record counts the lines. -/
theorem last_takeAll {lines : List Bytes} : {c c' : Cursor} → {rs : List Record} →
    c.takeAll lines = .ok (rs, c') → c'.last = c.last + UInt64.ofNat lines.length := by
  induction lines with
  | nil =>
    intro c c' rs h
    cases h
    exact (UInt64.add_zero _).symm
  | cons line lines ih =>
    intro c c' rs h
    obtain ⟨r, next, ss, hr, hss, rfl⟩ := takeAll_cons_eq_ok_iff.1 h
    obtain ⟨-, hsequence, rfl⟩ := take_eq_ok hr
    rw [ih hss, List.length_cons, add_ofNat_succ, ← hsequence]

/-- The number that has to follow the lines of a log. -/
theorem next_of_takeAll {lines : List Bytes} {c : Cursor} {rs : List Record}
    (h : takeAll {} lines = .ok (rs, c)) : c.last + 1 = UInt64.ofNat (lines.length + 1) := by
  rw [last_takeAll h, UInt64.ofNat_add, UInt64.zero_add]
  rfl

/-- The first of some lines are taken as the first of the records. -/
theorem takeAll_of_append {lines others : List Bytes} {c c' : Cursor} {rs : List Record}
    (h : c.takeAll (lines ++ others) = .ok (rs, c')) :
    ∃ between, c.takeAll lines = .ok (rs.take lines.length, between) := by
  induction lines generalizing c rs with
  | nil => exact ⟨c, rfl⟩
  | cons line lines ih =>
    rw [List.cons_append] at h
    obtain ⟨r, next, ss, hr, hss, rfl⟩ := takeAll_cons_eq_ok_iff.1 h
    obtain ⟨between, hbetween⟩ := ih hss
    exact ⟨between, takeAll_cons_eq_ok_iff.2 ⟨r, next, _, hr, hbetween, rfl⟩⟩

end Cursor

/-! ## Scans -/

/-- A scan of a log that can be read, at a cursor. -/
def Scan.at (c : Cursor) (ahead : List Bytes) (tail : Bytes) : Scan :=
  { cursor := c, ahead, tail }

/-- The scan of such a log once all lines are taken. -/
def Scan.ended (c : Cursor) (tail : Bytes) : Scan :=
  { cursor := c, ahead := [], tail, torn := !tail.isEmpty }

/-- At the end of a scan a tail without a newline is torn. -/
@[simp] theorem Scan.torn_ended (c : Cursor) (tail : Bytes) :
    (Scan.ended c tail).torn = !tail.isEmpty := rfl

/-- A scan hands out what the next line is taken as. -/
theorem next_cons_of_ok {c c' : Cursor} {line : Bytes} {r : Record} (h : c.take line = .ok (r, c'))
    (ahead : List Bytes) (tail : Bytes) :
    (Scan.at c (line :: ahead) tail).next = (.ok (some r), Scan.at c' ahead tail) := by
  simp only [Scan.next, Scan.at, h]

/-- A scan fails at a line that cannot be taken, and the line is gone. -/
theorem next_cons_of_error {c : Cursor} {line : Bytes} {e : Failure} (h : c.take line = .error e)
    (ahead : List Bytes) (tail : Bytes) :
    (Scan.at c (line :: ahead) tail).next = (.error e, Scan.at c ahead tail) := by
  simp only [Scan.next, Scan.at, h]

/-- Lines that can all be taken are collected to the end. -/
theorem collect_of_ok {tail : Bytes} {ahead : List Bytes} : {c c' : Cursor} → {rs : List Record} →
    c.takeAll ahead = .ok (rs, c') →
    (Scan.at c ahead tail).collect (ahead.length + 1) = (.ok rs, Scan.ended c' tail) := by
  induction ahead with
  | nil =>
    intro c c' rs h
    cases h
    rfl
  | cons line ahead ih =>
    intro c c' rs h
    obtain ⟨r, next, ss, hr, hss, rfl⟩ := Cursor.takeAll_cons_eq_ok_iff.1 h
    rw [List.length_cons, Scan.collect, next_cons_of_ok hr]
    dsimp only
    rw [ih hss]
    rfl

/-- Lines of which one cannot be taken are not collected. -/
theorem collect_of_error {tail : Bytes} {ahead : List Bytes} : {c : Cursor} → {e : Failure} →
    c.takeAll ahead = .error e →
    ((Scan.at c ahead tail).collect (ahead.length + 1)).1 = .error e := by
  induction ahead with
  | nil =>
    intro c e h
    cases h
  | cons line ahead ih =>
    intro c e h
    rw [List.length_cons, Scan.collect]
    rcases Cursor.takeAll_cons_eq_error_iff.1 h with hr | ⟨r, next, hr, hrest⟩
    · rw [next_cons_of_error hr]
    · rw [next_cons_of_ok hr]
      dsimp only
      rw [ih hrest]
      rfl

/-- What all lines of a log are taken as, from its start. -/
def taken (content : Bytes) : Except Failure (List Record × Cursor) :=
  Cursor.takeAll {} (Bytes.lines content).1

/-- The number behind the last record counts the records. -/
theorem last_of_taken {content : Bytes} {rs : List Record} {c : Cursor}
    (h : taken content = .ok (rs, c)) : c.last + 1 = UInt64.ofNat (rs.length + 1) := by
  rw [Cursor.next_of_takeAll h, Cursor.length_takeAll h]

/-- A file whose lines can all be taken is read to its end. -/
theorem all_of_taken {content : Bytes} {rs : List Record} {c : Cursor}
    (h : taken content = .ok (rs, c)) :
    (Scan.ofContent content).all = (.ok rs, Scan.ended c (Bytes.lines content).2) :=
  collect_of_ok h

/-- A file of which a line cannot be taken is not read. -/
theorem all_of_taken_error {content : Bytes} {e : Failure} (h : taken content = .error e) :
    (Scan.ofContent content).all.1 = .error e :=
  collect_of_error h

/-- A log whose records can all be read is taken as these records. -/
theorem taken_of_all {content : Bytes} {rs : List Record}
    (h : (Scan.ofContent content).all.1 = .ok rs) : ∃ c, taken content = .ok (rs, c) := by
  cases htaken : taken content with
  | error e =>
    rw [all_of_taken_error htaken] at h
    cases h
  | ok p =>
    rw [all_of_taken htaken] at h
    cases h
    exact ⟨p.2, rfl⟩

/-! ## Written records -/

/-- The records of entries that are numbered on from a number. -/
def numbered : UInt64 → List Entry → List Record
  | _, [] => []
  | last, e :: es => Record.make (last + 1) e :: numbered (last + 1) es

/-- The lines of the records of some entries, without the newlines. -/
def bodies (last : UInt64) (es : List Entry) : List Bytes := (numbered last es).map Record.body

/-- The lines of some entries are that of the first and those of the others, which are numbered on.
-/
theorem bodies_cons (last : UInt64) (e : Entry) (es : List Entry) :
    bodies last (e :: es) = (Record.make (last + 1) e).body :: bodies (last + 1) es :=
  rfl

/-- The lines of records have no newline in them. -/
theorem newline_notMem_bodies (last : UInt64) (es : List Entry) :
    ∀ l ∈ bodies last es, Bytes.newline ∉ l := by
  intro l hl
  obtain ⟨r, -, rfl⟩ := List.mem_map.1 hl
  exact r.newline_notMem_body

/-- There are as many records as entries. -/
theorem length_numbered (last : UInt64) (es : List Entry) :
    (numbered last es).length = es.length := by
  induction es generalizing last with
  | nil => rfl
  | cons e es ih => rw [numbered, List.length_cons, List.length_cons, ih]

/-- There are as many lines as entries. -/
theorem length_bodies (last : UInt64) (es : List Entry) :
    (bodies last es).length = es.length := by
  rw [bodies, List.length_map, length_numbered]

/-- The number of the last of so many records. -/
def lastOf (last : UInt64) (es : List Entry) : UInt64 := last + UInt64.ofNat es.length

/-- Without an entry the last number is the one before. -/
theorem lastOf_nil (last : UInt64) : lastOf last [] = last := UInt64.add_zero last

/-- Numbered from the beginning, the last number is the number of the entries. -/
theorem lastOf_zero (es : List Entry) : lastOf 0 es = UInt64.ofNat es.length := UInt64.zero_add _

/-- One more entry has the next number. -/
theorem lastOf_concat (last : UInt64) (es : List Entry) (e : Entry) :
    lastOf last (es ++ [e]) = lastOf last es + 1 := by
  rw [lastOf, lastOf, List.length_append, UInt64.ofNat_add, ← UInt64.add_assoc]
  rfl

/-- Numbering some entries is numbering the first and the others on from it. -/
theorem lastOf_cons (last : UInt64) (e : Entry) (es : List Entry) :
    lastOf last (e :: es) = lastOf (last + 1) es := by
  rw [lastOf, lastOf, List.length_cons, add_ofNat_succ]

/-- Entries behind others are numbered on from the last of those. -/
theorem lastOf_append (last : UInt64) (es fs : List Entry) :
    lastOf last (es ++ fs) = lastOf (lastOf last es) fs := by
  rw [lastOf, lastOf, lastOf, List.length_append, UInt64.ofNat_add, ← UInt64.add_assoc]

/-- The records of entries behind others are numbered on from the last of those. -/
theorem numbered_append (es fs : List Entry) (last : UInt64) :
    numbered last (es ++ fs) = numbered last es ++ numbered (lastOf last es) fs := by
  induction es generalizing last with
  | nil =>
    rw [lastOf, List.length_nil, List.nil_append]
    show numbered last fs = [] ++ numbered (last + 0) fs
    rw [UInt64.add_zero, List.nil_append]
  | cons e es ih => rw [List.cons_append, numbered, ih, lastOf_cons, numbered, List.cons_append]

/-- The lines of entries behind others are numbered on from the last of those. -/
theorem bodies_append (last : UInt64) (es fs : List Entry) :
    bodies last (es ++ fs) = bodies last es ++ bodies (lastOf last es) fs := by
  rw [bodies, numbered_append, List.map_append]
  rfl

/-- The numbers 1, 2, 3 and so on, as they are counted in 64 bits. -/
def positions (n : Nat) : List UInt64 := (List.range n).map fun i => UInt64.ofNat (i + 1)

/-- As long as they fit in 64 bits, the positions are 1, 2, 3 and so on. -/
theorem map_toNat_positions {n : Nat} (h : n < UInt64.size) :
    (positions n).map UInt64.toNat = List.range' 1 n := by
  unfold positions
  rw [List.map_map, List.range'_eq_map_range]
  apply List.map_congr_left
  intro i hi
  have hle := List.mem_range.1 hi
  simp only [Function.comp]
  rw [UInt64.toNat_ofNat_of_lt' (by omega)]
  omega

/-- The numbers of records go up by one. -/
theorem map_sequence_numbered (last : UInt64) (es : List Entry) :
    (numbered last es).map Record.sequence =
      (List.range es.length).map fun i => last + UInt64.ofNat (i + 1) := by
  induction es generalizing last with
  | nil => rfl
  | cons e es ih =>
    rw [numbered, List.map_cons, ih, List.length_cons, List.range_succ_eq_map, List.map_cons,
      List.map_map]
    congr 1
    apply List.map_congr_left
    intro i _
    exact (add_ofNat_succ last (i + 1)).symm

/-- Records that are numbered from the first have the numbers 1, 2, 3 and so on. -/
theorem map_sequence_numbered_zero (es : List Entry) :
    (numbered 0 es).map Record.sequence = positions es.length := by
  rw [map_sequence_numbered, positions]
  simp only [UInt64.zero_add]

/-- The records of some entries hold these entries. -/
theorem map_entry_numbered (last : UInt64) (es : List Entry) :
    (numbered last es).map Record.entry = es := by
  induction es generalizing last with
  | nil => rfl
  | cons e es ih => rw [numbered, List.map_cons, ih]; rfl

namespace Cursor

/-- The line of an entry that lasts is taken as its record, wherever the number is the next one. -/
theorem take_body {c : Cursor} {e : Entry} (he : e.SelfDescribed) (hlasting : e.Lasting) :
    c.take (Record.make (c.last + 1) e).body = .ok (Record.make (c.last + 1) e,
      ⟨c.offset + (Record.make (c.last + 1) e).body.length + 1, c.last + 1⟩) := by
  rw [take, if_neg (Record.body_ne_nil _), (Record.parse_body_iff he _ c.offset).2 hlasting]
  exact if_pos rfl

/-- Records numbered on from the cursor are taken as they were written if their entries are
lasting. -/
theorem takeAll_numbered {es : List Entry} : {c : Cursor} → (∀ e ∈ es, e.SelfDescribed) →
    (∀ e ∈ es, e.Lasting) →
    ∃ offset, c.takeAll (bodies c.last es) =
      .ok (numbered c.last es, ⟨offset, lastOf c.last es⟩) := by
  induction es with
  | nil =>
    intro c _ _
    refine ⟨c.offset, ?_⟩
    show Except.ok ([], c) = Except.ok ([], (⟨c.offset, c.last + 0⟩ : Cursor))
    rw [UInt64.add_zero]
  | cons e es ih =>
    intro c hself hlasting
    obtain ⟨he, hes⟩ := List.forall_mem_cons.1 hself
    obtain ⟨hl, hls⟩ := List.forall_mem_cons.1 hlasting
    obtain ⟨offset, hrest⟩ := ih
      (c := ⟨c.offset + (Record.make (c.last + 1) e).body.length + 1, c.last + 1⟩) hes hls
    rw [bodies_cons, lastOf_cons]
    exact ⟨offset, takeAll_cons_eq_ok_iff.2 ⟨_, _, _, take_body he hl, hrest, rfl⟩⟩

/-- If records numbered on from the cursor are taken with the entries that were written, then these
entries are lasting. -/
theorem lasting_of_takeAll {es : List Entry} : {c c' : Cursor} → {rs : List Record} →
    (∀ e ∈ es, e.SelfDescribed) → c.takeAll (bodies c.last es) = .ok (rs, c') →
    rs.map Record.entry = es → ∀ e ∈ es, e.Lasting := by
  induction es with
  | nil =>
    intro c c' rs _ _ _ e he
    exact absurd he List.not_mem_nil
  | cons e es ih =>
    intro c c' rs hself h hentries
    obtain ⟨he, hes⟩ := List.forall_mem_cons.1 hself
    obtain ⟨r, next, ss, hr, hss, rfl⟩ := takeAll_cons_eq_ok_iff.1 h
    obtain ⟨hparse, hsequence, rfl⟩ := take_eq_ok hr
    obtain ⟨hentry, hentries⟩ := List.cons.inj hentries
    have hmake : r = Record.make (c.last + 1) e := by
      rw [Record.parse_eq_make hparse, hsequence, hentry]
    rw [hsequence] at hss
    refine List.forall_mem_cons.2 ⟨?_, ih hes hss hentries⟩
    rw [hmake] at hparse
    exact (Record.parse_body_iff he _ _).1 hparse

end Cursor

/-! ## A log that one writer wrote -/

/-- Writing the line of one more entry behind those of others gives the file of them all. -/
theorem joinLines_bodies_concat (es : List Entry) (e : Entry) :
    Bytes.joinLines (bodies 0 (es ++ [e])) =
      Bytes.joinLines (bodies 0 es) ++ (Record.make (lastOf 0 es + 1) e).line := by
  rw [bodies_append, Bytes.joinLines_append]
  exact congrArg _ (List.append_nil _)

/-- The lines of written records are cut out as they were written. -/
theorem lines_bodies (es : List Entry) :
    Bytes.lines (Bytes.joinLines (bodies 0 es)) = (bodies 0 es, []) :=
  Bytes.lines_joinLines_whole (newline_notMem_bodies 0 es)

/-- The lines of written records and a tail without a newline are taken as these records. -/
theorem taken_bodies {es : List Entry} (hself : ∀ e ∈ es, e.SelfDescribed)
    (hlasting : ∀ e ∈ es, e.Lasting) {tail : Bytes} (htail : Bytes.newline ∉ tail) :
    ∃ offset, taken (Bytes.joinLines (bodies 0 es) ++ tail) =
      .ok (numbered 0 es, ⟨offset, lastOf 0 es⟩) := by
  rw [taken, Bytes.lines_joinLines (newline_notMem_bodies 0 es) htail]
  exact Cursor.takeAll_numbered (c := {}) hself hlasting

end Log

end DurableKV
