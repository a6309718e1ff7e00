import DurableKV.Proofs.Log.Cut
import DurableKV.Proofs.Log.WellFormed

/-!
# Reading on behind damage

A scan passes over a line that it refuses, and its cursor stays where it was. Whoever asks it for
more after a failure can therefore be handed a record again. `reads_behind_damage_iff` says when: if
the record of the first place that another line holds comes in a later line (`ResumesAt`). Without
that the scan hands out the first records of the log and stands at the end of the last of them. With
it, it stands before that end, for the lines that it has passed over do not count.

What a call does is said once, by `next_cases`: no line is left, or the next one is taken, or it is
refused. Everything else follows by induction over the calls.
-/

namespace DurableKV

/-- A line ends its own bytes and one newline after the line before it. -/
theorem Bytes.lineEnd_succ {content line : Bytes} {i : Nat}
    (h : (lines content).1[i]? = some line) :
    lineEnd content (i + 1) = lineEnd content i + line.length + 1 := by
  simp [lineEnd, List.take_add_one, h, joinLines, Nat.add_assoc]

namespace Log

/-! ## Calls for the next record -/

namespace Scan

/-- The scan after so many calls for the next record. -/
def after (s : Scan) : Nat → Scan
  | 0 => s
  | n + 1 => (s.after n).next.2

/-- What a call for the next record answers, the first call being number 0. -/
def answer (s : Scan) (i : Nat) : Except Failure (Option Record) := (s.after i).next.1

/-- Does this call hand out a record? -/
def hands (s : Scan) (i : Nat) : Bool :=
  match s.answer i with
  | .ok (some _) => true
  | _ => false

/-- Which of the first calls hand out a record. Every call comes to one line, so these are also the
places of the lines that the records stand in. -/
def handed (s : Scan) (n : Nat) : List Nat := (List.range n).filter s.hands

/-- A call hands out a record if the record is its answer. -/
theorem hands_iff {s : Scan} {i : Nat} : s.hands i = true ↔ ∃ r, s.answer i = .ok (some r) := by
  unfold hands
  split <;> simp_all

/-- A call that hands out a record adds its place to those handed out. -/
theorem handed_succ_of_hands {s : Scan} {n : Nat} (h : s.hands n = true) :
    s.handed (n + 1) = s.handed n ++ [n] := by
  simp [handed, List.range_succ, h]

/-- A call that hands out no record leaves the places handed out as they are. -/
theorem handed_succ_of_not_hands {s : Scan} {n : Nat} (h : ¬ s.hands n = true) :
    s.handed (n + 1) = s.handed n := by
  simp [handed, List.range_succ, h]

/-- Calls that hand out nothing add nothing. -/
theorem handed_of_none {s : Scan} {i n : Nat} (hi : ¬ s.hands i = true) (hin : i ≤ n)
    (h : ∀ k, i < k → k < n → ¬ s.hands k = true) : s.handed n = s.handed i := by
  induction hin with
  | refl => rfl
  | @step n hin ih =>
    have hn : ¬ s.hands n = true := by
      rcases Nat.eq_or_lt_of_le hin with rfl | hlt
      · exact hi
      · exact h n hlt n.lt_succ_self
    rw [handed_succ_of_not_hands hn]
    exact ih fun k hik hkn => h k hik (Nat.lt_succ_of_lt hkn)

/-- Calls that all hand out a record are all among those that do. -/
theorem handed_of_all {s : Scan} {n : Nat} (h : ∀ k < n, s.hands k = true) :
    s.handed n = List.range n :=
  List.filter_eq_self.2 fun k hk => h k (List.mem_range.1 hk)

/-- If every call so far has handed out a record, there are as many records as calls. -/
theorem length_handed_of_all {s : Scan} {n : Nat} (h : ∀ k < n, s.hands k = true) :
    (s.handed n).length = n := by
  rw [handed_of_all h, List.length_range]

/-- Among the first calls, either all hand out a record, or there is a first one that does not. -/
theorem all_or_first (s : Scan) (n : Nat) :
    (∀ k < n, s.hands k = true) ∨
      ∃ first < n, ¬ s.hands first = true ∧ ∀ k < first, s.hands k = true := by
  induction n with
  | zero => exact Or.inl fun k hk => absurd hk k.not_lt_zero
  | succ n ih =>
    rcases ih with hall | ⟨first, hfirst, hnot, hbefore⟩
    · by_cases h : s.hands n = true
      · exact Or.inl (Nat.forall_lt_succ_right.2 ⟨hall, h⟩)
      · exact Or.inr ⟨n, n.lt_succ_self, h, hall⟩
    · exact Or.inr ⟨first, Nat.lt_succ_of_lt hfirst, hnot, hbefore⟩

/-- Behind a call that hands out nothing, but before one that does, the same number of records has
been handed out up to some call that hands out the next. -/
theorem exists_next {s : Scan} {i j : Nat} (hi : ¬ s.hands i = true) (hij : i < j)
    (hj : s.hands j = true) :
    ∃ next, i < next ∧ next ≤ j ∧ s.hands next = true ∧ s.handed next = s.handed i := by
  induction j using Nat.strongRecOn with
  | ind j ih =>
    by_cases hearlier : ∃ k, i < k ∧ k < j ∧ s.hands k = true
    · obtain ⟨k, hik, hkj, hk⟩ := hearlier
      obtain ⟨next, hnext, hle, hhands, hhanded⟩ := ih k hkj hik hk
      exact ⟨next, hnext, Nat.le_trans hle (Nat.le_of_lt hkj), hhands, hhanded⟩
    · exact ⟨j, hij, Nat.le_refl j, hj,
        handed_of_none hi (Nat.le_of_lt hij) fun k hik hkj hk => hearlier ⟨k, hik, hkj, hk⟩⟩

/-- **What a call does**: no line is left, or the next one is taken, or it is refused. -/
theorem next_cases {s : Scan} (h : s.unreadable = none) :
    (s.ahead = [] ∧ s.next.1 = .ok none ∧ s.next.2.cursor = s.cursor) ∨
      (∃ line r, s.ahead.head? = some line ∧ s.next.1 = .ok (some r) ∧
        s.cursor.take line = .ok (r, s.next.2.cursor)) ∨
      ∃ line e, s.ahead.head? = some line ∧ s.next.1 = .error e ∧
        s.cursor.take line = .error e ∧ s.next.2.cursor = s.cursor := by
  obtain ⟨c, ahead, tail, torn, unreadable⟩ := s
  subst h
  cases ahead with
  | nil => exact Or.inl ⟨rfl, rfl, rfl⟩
  | cons line ahead =>
    cases htake : c.take line <;> simp [next, htake]

/-- Every call leaves one line less. -/
theorem ahead_next {s : Scan} (h : s.unreadable = none) :
    s.next.2.ahead = s.ahead.tail ∧ s.next.2.unreadable = none := by
  obtain ⟨c, ahead, tail, torn, unreadable⟩ := s
  subst h
  cases ahead with
  | nil => exact ⟨rfl, rfl⟩
  | cons line ahead =>
    cases htake : c.take line <;> simp [next, htake]

section

variable (content : Bytes)

/-- After some calls the lines ahead are those behind as many lines, and none of them has been found
unreadable. -/
theorem ahead_after (n : Nat) :
    ((ofContent content).after n).ahead = (Bytes.lines content).1.drop n ∧
      ((ofContent content).after n).unreadable = none := by
  induction n with
  | zero => exact ⟨rfl, rfl⟩
  | succ n ih =>
    obtain ⟨hahead, hreadable⟩ := ahead_next ih.2
    refine ⟨?_, hreadable⟩
    rw [after, hahead, ih.1, List.tail_drop]

/-- **A call comes to the line of its number.** -/
theorem call_cases (n : Nat) :
    let s := ofContent content
    let line? := (Bytes.lines content).1[n]?
    (line? = none ∧ s.answer n = .ok none ∧ (s.after (n + 1)).cursor = (s.after n).cursor) ∨
      (∃ line r, line? = some line ∧ s.answer n = .ok (some r) ∧
        (s.after n).cursor.take line = .ok (r, (s.after (n + 1)).cursor)) ∨
      ∃ line e, line? = some line ∧ s.answer n = .error e ∧
        (s.after n).cursor.take line = .error e ∧
        (s.after (n + 1)).cursor = (s.after n).cursor := by
  obtain ⟨hahead, hreadable⟩ := ahead_after content n
  have hcases := next_cases hreadable
  rw [hahead, List.head?_drop, List.drop_eq_nil_iff, ← List.getElem?_eq_none_iff] at hcases
  exact hcases

variable {content} {n i : Nat} {line : Bytes}

/-- A call that hands out no record leaves the cursor where it is. -/
theorem cursor_of_not_hands (h : ¬ (ofContent content).hands n = true) :
    ((ofContent content).after (n + 1)).cursor = ((ofContent content).after n).cursor := by
  rcases call_cases content n with
    ⟨-, -, hcursor⟩ | ⟨line, r, -, hanswer, -⟩ | ⟨line, e, -, -, -, hcursor⟩
  · exact hcursor
  · exact absurd (hands_iff.2 ⟨r, hanswer⟩) h
  · exact hcursor

/-- A call that hands out a record takes the line of its place at the cursor. -/
theorem take_of_hands (h : (ofContent content).hands n = true) :
    ∃ line r, (Bytes.lines content).1[n]? = some line ∧
      ((ofContent content).after n).cursor.take line =
        .ok (r, ((ofContent content).after (n + 1)).cursor) := by
  obtain ⟨r, hr⟩ := hands_iff.1 h
  rcases call_cases content n with
    ⟨-, hanswer, -⟩ | ⟨line, r', hline, -, htake⟩ | ⟨line, e, -, hanswer, -⟩
  · simp [hr] at hanswer
  · exact ⟨line, r', hline, htake⟩
  · simp [hr] at hanswer

/-- **Where a scan stands**: after the bytes of the lines whose records it has handed out, having
counted these records. -/
theorem cursor_after (n : Nat) :
    ((ofContent content).after n).cursor =
      ⟨(Bytes.joinLines (((ofContent content).handed n).filterMap
          ((Bytes.lines content).1[·]?))).length,
        UInt64.ofNat ((ofContent content).handed n).length⟩ := by
  induction n with
  | zero => rfl
  | succ n ih =>
    by_cases h : (ofContent content).hands n = true
    · obtain ⟨line, r, hline, htake⟩ := take_of_hands h
      obtain ⟨-, hsequence, hnext⟩ := Cursor.take_eq_ok htake
      rw [handed_succ_of_hands h, hnext, hsequence, ih]
      simp [hline, Bytes.joinLines, UInt64.ofNat_add, Nat.add_assoc]
    · rw [cursor_of_not_hands h, handed_succ_of_not_hands h, ih]

/-- The cursor expects the sequence number after as many as records were handed out. -/
theorem last_after (n : Nat) :
    ((ofContent content).after n).cursor.last + 1 =
      UInt64.ofNat (((ofContent content).handed n).length + 1) := by
  rw [cursor_after, UInt64.ofNat_add]
  rfl

/-! ## What each call answers -/

/-- A call answers that there is nothing more exactly once every complete line has been read. -/
theorem answer_eq_none_iff :
    (ofContent content).answer i = .ok none ↔ (Bytes.lines content).1.length ≤ i := by
  rw [← List.getElem?_eq_none_iff]
  rcases call_cases content i with
    ⟨hline, hanswer, -⟩ | ⟨line, r, hline, hanswer, -⟩ | ⟨line, e, hline, hanswer, -⟩
  all_goals simp [hline, hanswer]

/-- A line is answered as the cursor takes it. -/
theorem answer_eq_take (hline : (Bytes.lines content).1[i]? = some line) :
    (ofContent content).answer i =
      (((ofContent content).after i).cursor.take line).map fun p => some p.1 := by
  rcases call_cases content i with
    ⟨hnone, -, -⟩ | ⟨line', r, hsome, hanswer, htake⟩ | ⟨line', e, hsome, hanswer, htake, -⟩
  · simp [hline] at hnone
  · obtain rfl := Option.some.inj (hline.symm.trans hsome)
    rw [hanswer, htake]
    rfl
  · obtain rfl := Option.some.inj (hline.symm.trans hsome)
    rw [hanswer, htake]
    rfl

/-- A call answers with a record exactly if the line of its place is read as the record, which
carries the number after those handed out and the checksum of what it holds. -/
theorem answer_eq_record_iff (hline : (Bytes.lines content).1[i]? = some line) {r : Record} :
    (ofContent content).answer i = .ok (some r) ↔
      r.Stands line (UInt64.ofNat (((ofContent content).handed i).length + 1)) := by
  rw [answer_eq_take hline, ← last_after, Json.map_eq_ok_iff]
  simp [Cursor.take_eq_ok_iff]

/-- A call fails exactly if the line of its place is refused at the number after those handed out
and at the offset of the lines they stood on. -/
theorem answer_eq_error_iff (hline : (Bytes.lines content).1[i]? = some line) {e : Failure} :
    (ofContent content).answer i = .error e ↔
      Refused (UInt64.ofNat (((ofContent content).handed i).length + 1))
        (Bytes.joinLines (((ofContent content).handed i).filterMap
          ((Bytes.lines content).1[·]?))).length line e := by
  have hrefused : ((ofContent content).after i).cursor.take line = .error e ↔ _ :=
    Cursor.take_eq_error_iff
  rw [last_after, cursor_after] at hrefused
  rw [answer_eq_take hline, ← hrefused, ← cursor_after]
  cases ((ofContent content).after i).cursor.take line <;> simp [Except.map]

/-! ## Lines that are handed out and lines that are passed over -/

/-- A call hands out a record exactly if one stands on the line of its place under the number after
those handed out. -/
theorem hands_iff_stands :
    (ofContent content).hands i = true ↔
      ∃ line, ∃ r : Record, (Bytes.lines content).1[i]? = some line ∧
        r.Stands line (UInt64.ofNat (((ofContent content).handed i).length + 1)) := by
  constructor
  · intro h
    obtain ⟨line, r, hline, htake⟩ := take_of_hands h
    have hstands := (Cursor.take_eq_ok_iff.1 htake).1
    rw [last_after] at hstands
    exact ⟨line, r, hline, hstands⟩
  · rintro ⟨line, r, hline, hstands⟩
    exact hands_iff.2 ⟨r, (answer_eq_record_iff hline).2 hstands⟩

/-- A call that fails hands out nothing. -/
theorem hands_of_error {e : Failure} (h : (ofContent content).answer i = .error e) :
    ¬ (ofContent content).hands i = true := by
  simp [hands, h]

/-- A call at a complete line that hands out nothing fails. -/
theorem error_of_not_hands (hi : i < (Bytes.lines content).1.length)
    (h : ¬ (ofContent content).hands i = true) : ∃ e, (ofContent content).answer i = .error e := by
  cases hanswer : (ofContent content).answer i with
  | error e => exact ⟨e, rfl⟩
  | ok r? =>
    cases r? with
    | none => exact absurd (answer_eq_none_iff.1 hanswer) (Nat.not_le_of_lt hi)
    | some r => exact absurd (hands_iff.2 ⟨r, hanswer⟩) h

/-- The first calls all hand out a record if the lines that they come to are well formed, and only
then. -/
theorem hands_all_iff (hi : i ≤ (Bytes.lines content).1.length) :
    (∀ k < i, (ofContent content).hands k = true) ↔
      WellFormed ((Bytes.lines content).1.take i) := by
  constructor
  · intro h k line hline
    have hk : k < i :=
      Nat.lt_of_lt_of_le (List.getElem?_eq_some_iff.1 hline).1 (List.length_take_le i _)
    rw [List.getElem?_take_of_lt hk] at hline
    obtain ⟨line', r, hline', hstands⟩ := hands_iff_stands.1 (h k hk)
    obtain rfl := Option.some.inj (hline.symm.trans hline')
    rw [length_handed_of_all fun l hl => h l (Nat.lt_trans hl hk)] at hstands
    exact ⟨r, hstands⟩
  · intro h k
    -- the number that is due counts the calls before, which have all handed out a record
    induction k using Nat.strongRecOn with
    | ind k ih =>
      intro hk
      have hline := List.getElem?_eq_getElem (Nat.lt_of_lt_of_le hk hi)
      obtain ⟨r, hstands⟩ := h k _ (by rw [List.getElem?_take_of_lt hk, hline])
      refine hands_iff_stands.2 ⟨_, r, hline, ?_⟩
      rw [length_handed_of_all fun l hl => ih l hl (Nat.lt_trans hl hk)]
      exact hstands

end

end Scan

/-! ## Reading behind damage -/

/-- In place of a record stands a line that is not it, after a well-formed log, and the record comes
in a later line. -/
structure ResumesAt (lines : List Bytes) (i j : Nat) : Prop where
  /-- The record comes later. -/
  behind : i < j
  /-- Nothing is wrong with the lines before its place. -/
  before : WellFormed (lines.take i)
  /-- Another line stands in its place. -/
  bad : ∃ line, lines[i]? = some line ∧ ¬ ∃ r : Record, r.Stands line (UInt64.ofNat (i + 1))
  /-- The record itself. -/
  late : ∃ line, lines[j]? = some line ∧ ∃ r : Record, r.Stands line (UInt64.ofNat (i + 1))

namespace Scan

section

variable {content : Bytes} {i j n : Nat}

/-- **When a call hands out a record after a failure**: if the first record that is missing comes
later. -/
theorem handed_after_failure_iff :
    (∃ i j e r, i < j ∧ j < n ∧ (ofContent content).answer i = .error e ∧
      (ofContent content).answer j = .ok (some r)) ↔
      ∃ i j, j < n ∧ ResumesAt (Bytes.lines content).1 i j := by
  constructor
  · rintro ⟨i, j, e, r, hij, hjn, herror, hrecord⟩
    have hj := hands_iff.2 ⟨r, hrecord⟩
    have hsome : ¬ ∀ k < j, (ofContent content).hands k = true :=
      fun hall => hands_of_error herror (hall i hij)
    obtain ⟨first, hfirst, hnot, hbefore⟩ := (all_or_first _ j).resolve_left hsome
    obtain ⟨late, hbehind, hlate, hhands, hsame⟩ := exists_next hnot hfirst hj
    obtain ⟨line, r', hline, hstands⟩ := hands_iff_stands.1 hhands
    have hlength : first < (Bytes.lines content).1.length :=
      Nat.lt_trans hbehind (List.getElem?_eq_some_iff.1 hline).1
    rw [hsame, length_handed_of_all hbefore] at hstands
    refine ⟨first, late, Nat.lt_of_le_of_lt hlate hjn, hbehind,
      (hands_all_iff (Nat.le_of_lt hlength)).1 hbefore,
      ⟨_, List.getElem?_eq_getElem hlength, ?_⟩, line, hline, r', hstands⟩
    rintro ⟨r'', hstands'⟩
    apply hnot
    rw [hands_iff_stands, length_handed_of_all hbefore]
    exact ⟨_, r'', List.getElem?_eq_getElem hlength, hstands'⟩
  · rintro ⟨i, j, hjn, hij, hwell, ⟨bad, hbad, hnone⟩, line, hline, r, hstands⟩
    have hlength := (List.getElem?_eq_some_iff.1 hbad).1
    have hbefore := (hands_all_iff (Nat.le_of_lt hlength)).2 hwell
    have hnot : ¬ (ofContent content).hands i = true := by
      rw [hands_iff_stands, length_handed_of_all hbefore]
      rintro ⟨bad', r', hbad', hstands'⟩
      obtain rfl := Option.some.inj (hbad.symm.trans hbad')
      exact hnone ⟨r', hstands'⟩
    obtain ⟨e, herror⟩ := error_of_not_hands hlength hnot
    by_cases hearlier : ∃ k, i < k ∧ k < j ∧ (ofContent content).hands k = true
    · obtain ⟨k, hik, hkj, hk⟩ := hearlier
      obtain ⟨r', hr'⟩ := hands_iff.1 hk
      exact ⟨i, k, e, r', hik, Nat.lt_trans hkj hjn, herror, hr'⟩
    · -- nothing was handed out in between, so the same number is still due
      have hsame : (ofContent content).handed j = (ofContent content).handed i :=
        handed_of_none hnot (Nat.le_of_lt hij) fun k hik hkj hk => hearlier ⟨k, hik, hkj, hk⟩
      refine ⟨i, j, e, r, hij, hjn, herror, ?_⟩
      rw [answer_eq_record_iff hline, hsame, length_handed_of_all hbefore]
      exact hstands

/-! ## Where the scan stands -/

/-- A call that hands out a record moves the offset by the length of its line. -/
theorem offset_succ_of_hands (h : (ofContent content).hands n = true) :
    ((ofContent content).after (n + 1)).cursor.offset + Bytes.lineEnd content n =
      ((ofContent content).after n).cursor.offset + Bytes.lineEnd content (n + 1) := by
  obtain ⟨line, r, hline, htake⟩ := take_of_hands h
  obtain ⟨-, -, hnext⟩ := Cursor.take_eq_ok htake
  rw [hnext, Bytes.lineEnd_succ hline]
  dsimp only
  omega

/-- The cursor is never behind the line that the scan has come to. -/
theorem offset_le (n : Nat) :
    ((ofContent content).after n).cursor.offset ≤ Bytes.lineEnd content n := by
  induction n with
  | zero => exact Nat.zero_le _
  | succ n ih =>
    by_cases h : (ofContent content).hands n = true
    · have hoffset := offset_succ_of_hands h
      omega
    · rw [cursor_of_not_hands h]
      exact Nat.le_trans ih (Bytes.lineEnd_mono content n.le_succ)

/-- The offset falls behind where a line is passed over, and does not catch up. -/
theorem offset_lt (hi : i < (Bytes.lines content).1.length)
    (h : ¬ (ofContent content).hands i = true) (hin : i < n) :
    ((ofContent content).after n).cursor.offset < Bytes.lineEnd content n := by
  induction hin with
  | refl =>
    have hoffset : ((ofContent content).after i).cursor.offset ≤ _ := offset_le i
    have hend := Bytes.lineEnd_succ (List.getElem?_eq_getElem hi)
    rw [Nat.succ_eq_add_one, cursor_of_not_hands h]
    omega
  | @step n hin ih =>
    rw [Nat.succ_eq_add_one]
    by_cases hn : (ofContent content).hands n = true
    · have hoffset := offset_succ_of_hands hn
      omega
    · rw [cursor_of_not_hands hn]
      exact Nat.lt_of_lt_of_le ih (Bytes.lineEnd_mono content n.le_succ)

/-- **Behind damage the cursor is too far in front**: it does not reach the end of the last record
that was handed out. -/
theorem offset_lt_of_failure (hi : i < (Bytes.lines content).1.length)
    (h : ¬ (ofContent content).hands i = true) (hij : i < j)
    (hj : (ofContent content).hands j = true) (hjn : j < n) :
    ∃ last, ((ofContent content).handed n).getLast? = some last ∧
      ((ofContent content).after n).cursor.offset < Bytes.lineEnd content (last + 1) := by
  induction hjn with
  | refl =>
    refine ⟨j, by simp [handed_succ_of_hands hj], ?_⟩
    exact offset_lt hi h (Nat.lt_succ_of_lt hij)
  | @step n hjn ih =>
    by_cases hn : (ofContent content).hands n = true
    · refine ⟨n, by simp [handed_succ_of_hands hn], ?_⟩
      exact offset_lt hi h (Nat.lt_succ_of_lt (Nat.lt_trans hij hjn))
    · rw [handed_succ_of_not_hands hn, cursor_of_not_hands hn]
      exact ih

/-- The elements of a list at its first places are its first elements. -/
theorem filterMap_range (l : List Bytes) (k : Nat) :
    (List.range k).filterMap (l[·]?) = l.take k := by
  induction k with
  | zero => rfl
  | succ k ih =>
    rw [List.range_succ, List.filterMap_append, ih, List.take_add_one]
    cases h : l[k]? <;> simp [h]

/-- **Without a record behind a failure** the records are the first of the log, and the cursor is at
the end of the last of them. -/
theorem handed_eq_range
    (h : ¬ ∃ i j e r, i < j ∧ j < n ∧ (ofContent content).answer i = .error e ∧
      (ofContent content).answer j = .ok (some r)) :
    ∃ k, (ofContent content).handed n = List.range k ∧
      ((ofContent content).after n).cursor.offset = Bytes.lineEnd content k := by
  have hrange : ∃ k, (ofContent content).handed n = List.range k := by
    rcases all_or_first (ofContent content) n with hall | ⟨first, hfirst, hnot, hbefore⟩
    · exact ⟨n, handed_of_all hall⟩
    · refine ⟨first, ?_⟩
      rw [← handed_of_all hbefore]
      refine handed_of_none hnot (Nat.le_of_lt hfirst) fun k hk hkn hhands => ?_
      obtain ⟨r, hr⟩ := hands_iff.1 hhands
      obtain ⟨line, -, hline, -⟩ := take_of_hands hhands
      have hlength := Nat.lt_trans hk (List.getElem?_eq_some_iff.1 hline).1
      obtain ⟨e, he⟩ := error_of_not_hands hlength hnot
      exact h ⟨first, k, e, r, hk, hkn, he, hr⟩
  obtain ⟨k, hk⟩ := hrange
  refine ⟨k, hk, ?_⟩
  rw [cursor_after, hk, filterMap_range]
  rfl

end

end Scan

/-- **A scan hands out records behind damage if the missing record comes later**, and only then. A
call comes to the line of its number, or to none behind the last. The line is handed out if it is
the record whose number is due, which counts the records handed out before, and otherwise it is
reported what is wrong with it. So among the first calls a record comes after a failure if the record of the
first place that another line holds comes in a later line. If not, the records are the first of the
log, in order, and the scan stands at the end of the last. If so, it stands before that end. -/
theorem reads_behind_damage_iff (content : Bytes) (n : Nat) :
    let s := Scan.ofContent content
    let lines := (Bytes.lines content).1
    (∀ i, (s.answer i = .ok none ↔ lines.length ≤ i) ∧
      ∀ line, lines[i]? = some line →
        (∀ r, s.answer i = .ok (some r) ↔
          r.Stands line (UInt64.ofNat ((s.handed i).length + 1))) ∧
        ∀ e, s.answer i = .error e ↔
          Refused (UInt64.ofNat ((s.handed i).length + 1))
            (Bytes.joinLines ((s.handed i).filterMap (lines[·]?))).length line e) ∧
    ((∃ i j e r, i < j ∧ j < n ∧ s.answer i = .error e ∧ s.answer j = .ok (some r)) ↔
      ∃ i j, j < n ∧ ResumesAt lines i j) ∧
    ((¬ ∃ i j, j < n ∧ ResumesAt lines i j) →
      ∃ k, s.handed n = List.range k ∧ (s.after n).cursor.offset = Bytes.lineEnd content k) ∧
    ((∃ i j, j < n ∧ ResumesAt lines i j) →
      ∃ last, (s.handed n).getLast? = some last ∧
        (s.after n).cursor.offset < Bytes.lineEnd content (last + 1)) := by
  intro s lines
  have hresumes : (∃ i j e r, i < j ∧ j < n ∧ s.answer i = .error e ∧ s.answer j = .ok (some r)) ↔
      ∃ i j, j < n ∧ ResumesAt lines i j := Scan.handed_after_failure_iff
  refine ⟨fun i => ⟨Scan.answer_eq_none_iff, fun line hline =>
    ⟨fun r => Scan.answer_eq_record_iff hline, fun e => Scan.answer_eq_error_iff hline⟩⟩,
    hresumes, fun hnone => ?_, fun hsome => ?_⟩
  · rw [← hresumes] at hnone
    exact Scan.handed_eq_range hnone
  · obtain ⟨i, j, e, r, hij, hjn, herror, hrecord⟩ := hresumes.2 hsome
    have hlength : i < lines.length := by
      refine Nat.lt_of_not_le fun hle => ?_
      have hnone := Scan.answer_eq_none_iff.2 hle
      rw [hnone] at herror
      cases herror
    exact Scan.offset_lt_of_failure hlength (Scan.hands_of_error herror) hij
      (Scan.hands_iff.2 ⟨r, hrecord⟩) hjn

/-- A record, an empty line and the same record again, which has not the number that is missing:
nothing is handed out behind the failure. -/
theorem reads_behind_damage_repeated :
    ∃ r, r = Record.make 1 (.command (.delete "k")) ∧
      let s := Scan.ofContent (Bytes.joinLines [r.body, [], r.body])
      (∃ e, s.answer 1 = .error e) ∧
        (¬ ∃ i j e r, i < j ∧ j < 3 ∧ s.answer i = .error e ∧ s.answer j = .ok (some r)) ∧
        ∃ k, s.handed 3 = List.range k ∧
          (s.after 3).cursor.offset =
            Bytes.lineEnd (Bytes.joinLines [r.body, [], r.body]) k := by
  have hstands := Record.stands_body 1 (.delete "k")
  -- Nothing else is needed of the record, which would be computed below if it were in sight.
  refine ⟨_, rfl, ?_⟩
  generalize Record.make 1 (.command (.delete "k")) = r at hstands ⊢
  have hlines : Bytes.lines (Bytes.joinLines [r.body, [], r.body]) = ([r.body, [], r.body], []) :=
    Bytes.lines_joinLines_whole (by simp [r.newline_notMem_body])
  have hnone : ¬ ∃ i j, j < 3 ∧ ResumesAt [r.body, [], r.body] i j := by
    rintro ⟨i, j, hj, hij, -, ⟨bad, hbad, hnot⟩, line, hline, r', hlate⟩
    obtain ⟨rfl, rfl⟩ | rfl : i = 1 ∧ j = 2 ∨ i = 0 := by omega
    · obtain rfl : r.body = line := Option.some.inj hline
      have hsequence := hlate.sequence
      rw [hlate.unique hstands, hstands.sequence] at hsequence
      exact absurd hsequence (by decide)
    · obtain rfl : r.body = bad := Option.some.inj hbad
      exact hnot ⟨r, hstands⟩
  obtain ⟨hcalls, hresumes, hhalts, -⟩ :=
    reads_behind_damage_iff (Bytes.joinLines [r.body, [], r.body]) 3
  rw [hlines] at hcalls hresumes hhalts
  exact ⟨⟨_, (((hcalls 1).2 [] rfl).2 _).2 (.empty rfl)⟩, fun h => hnone (hresumes.1 h),
    hhalts hnone⟩

/-- A line that is no record comes before the first record: it is reported, and then the record is
handed out, although it is not the first line. The scan stands where the record would end if it
were. -/
theorem reads_behind_damage_first :
    ∃ r, r = Record.make 1 (.command (.delete "k")) ∧
      let content := Bytes.joinLines [[120], r.body]
      let s := Scan.ofContent content
      (∃ e, s.answer 0 = .error e) ∧ s.answer 1 = .ok (some r) ∧ s.handed 2 = [1] ∧
        (s.after 2).cursor.offset = r.line.length ∧ content.length = r.line.length + 2 := by
  have hstands := Record.stands_body 1 (.delete "k")
  refine ⟨_, rfl, ?_⟩
  generalize Record.make 1 (.command (.delete "k")) = r at hstands ⊢
  intro content s
  have hlines : Bytes.lines content = ([[120], r.body], []) :=
    Bytes.lines_joinLines_whole (by simp [r.newline_notMem_body, Bytes.newline])
  have hfirst : (Bytes.lines content).1[0]? = some [120] := by rw [hlines]; rfl
  have hsecond : (Bytes.lines content).1[1]? = some r.body := by rw [hlines]; rfl
  obtain ⟨cause, hcause⟩ : ∃ cause, Record.reading.run [120] = .error cause := ⟨_, rfl⟩
  have herror : s.answer 0 = .error (.corrupt (.offset 0) (.unreadable cause)) :=
    (Scan.answer_eq_error_iff hfirst).2 (.unreadable (by decide) hcause)
  have hnothing : s.handed 1 = [] := Scan.handed_succ_of_not_hands (Scan.hands_of_error herror)
  have hrecord : s.answer 1 = .ok (some r) := by
    rw [Scan.answer_eq_record_iff hsecond, hnothing]
    exact hstands
  have hhanded : s.handed 2 = [1] := by
    rw [Scan.handed_succ_of_hands (Scan.hands_iff.2 ⟨r, hrecord⟩), hnothing]
    rfl
  refine ⟨⟨_, herror⟩, hrecord, hhanded, ?_, ?_⟩
  · rw [Scan.cursor_after, hhanded, hlines]
    simp [Bytes.joinLines, Record.line]
  · simp [content, Bytes.joinLines, Record.line]

end Log

end DurableKV
