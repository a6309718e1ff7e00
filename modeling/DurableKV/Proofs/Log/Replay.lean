import DurableKV.Log.Location
import DurableKV.Log.Replay
import DurableKV.Proofs.Log.WellFormed

/-!
# How far replay goes

Replay can end in three ways: the visitor refuses a command, a line is no record, or the log is at
its end. `replay_visits_leading` says which of them it is and what the visitor has seen by then. The
records that a log begins with are determined by its lines (`Leading`); replay hands their commands
over, up to the first that is refused. A refusal is told before what is wrong with a line behind it,
and if there is none, replay fails as reading the log does or accounts for what reading finds.

A step of replay takes one line. What the lines before some place come to is said by
`replayFrom_of_accepts` if the visitor accepts their commands, and by `replayFrom_of_refuses` if it
does not, both by induction over these lines.
-/

namespace DurableKV.Log

/-! ## The account -/

/-- Counting the records that a cursor takes leads to the number at which the cursor stands. -/
theorem last_foldl_count {lines : List Bytes} : {c c' : Cursor} → {rs : List Record} →
    {p : Position} → c.takeAll lines = .ok (rs, c') → p.last = c.last →
    (rs.foldl Position.count p).last = c'.last := by
  induction lines with
  | nil =>
    intro c c' rs p h hp
    cases h
    exact hp
  | cons line lines ih =>
    intro c c' rs p h hp
    obtain ⟨r, next, ss, hr, hss, rfl⟩ := Cursor.takeAll_cons_eq_ok_iff.1 h
    obtain ⟨-, -, rfl⟩ := Cursor.take_eq_ok hr
    rw [List.foldl_cons]
    exact ih hss rfl

/-- Counting records adds their number. -/
theorem records_foldl_count (rs : List Record) (p : Position) :
    (rs.foldl Position.count p).records = p.records + UInt64.ofNat rs.length := by
  induction rs generalizing p with
  | nil => exact (UInt64.add_zero _).symm
  | cons r rs ih =>
    rw [List.foldl_cons, ih, List.length_cons, add_ofNat_succ]
    rfl

/-- Counting records adds the number of those without a command to the skipped ones. -/
theorem skipped_foldl_count (rs : List Record) (p : Position) :
    (rs.foldl Position.count p).skipped =
      p.skipped + UInt64.ofNat (rs.countP fun r => r.entry.command?.isNone) := by
  induction rs generalizing p with
  | nil => exact (UInt64.add_zero _).symm
  | cons r rs ih =>
    rw [List.foldl_cons, ih, List.countP_cons]
    by_cases h : r.entry.command?.isNone = true
    · simp only [Position.count, h, if_true, add_ofNat_succ]
    · simp only [Position.count, h, if_false, Nat.add_zero, Bool.false_eq_true]

/-! ## Visitors -/

/-- The commands among the entries of records. -/
def commands (rs : List Record) : List Command := rs.filterMap fun r => r.entry.command?

/-- A record without a command adds none. -/
theorem commands_cons_of_foreign {r : Record} (h : r.entry.command? = none) (rs : List Record) :
    commands (r :: rs) = commands rs := by
  simp [commands, h]

/-- A record with a command adds it in front. -/
theorem commands_cons_of_command {r : Record} {d : Command} (h : r.entry.command? = some d)
    (rs : List Record) : commands (r :: rs) = d :: commands rs := by
  simp [commands, h]

/-- The commands of numbered entries are those of the entries. -/
theorem commands_numbered (last : UInt64) (es : List Entry) :
    commands (numbered last es) = es.filterMap Entry.command? := by
  have hentries := congrArg (List.filterMap Entry.command?) (map_entry_numbered last es)
  rwa [List.filterMap_map] at hentries

namespace Visitor

section

variable {σ ε : Type} (visit : Visitor σ ε)

/-- The state of a visitor after these commands, the refused ones included. -/
def after (s : σ) (ds : List Command) : σ := ds.foldl (fun s d => (visit s d).1) s

/-- These commands, one after the other, are accepted. -/
def Accepts (s : σ) : List Command → Prop
  | [] => True
  | d :: ds => (visit s d).2 = none ∧ Accepts (visit s d).1 ds

/-- Among these commands a first one is refused, behind some that are accepted. -/
structure Refuses (s : σ) (all before : List Command) (d : Command) (e : ε) : Prop where
  /-- The refused command stands behind the others. -/
  stands : before ++ [d] <+: all
  /-- The commands before it are accepted. -/
  accepted : visit.Accepts s before
  /-- The command itself is refused. -/
  refused : (visit (visit.after s before) d).2 = some e

/-- A visitor that keeps a list of the commands that are handed to it, the refused ones included. -/
def recording : Visitor (σ × List Command) ε := fun s d =>
  (((visit s.1 d).1, s.2 ++ [d]), (visit s.1 d).2)

variable {visit}

/-- Visiting some commands is visiting the first and then the others. -/
theorem after_cons (s : σ) (d : Command) (ds : List Command) :
    visit.after s (d :: ds) = visit.after (visit s d).1 ds := rfl

/-- A visitor that refuses nothing accepts everything. -/
theorem accepts_of_forall (h : ∀ s d, (visit s d).2 = none) (ds : List Command) (s : σ) :
    visit.Accepts s ds := by
  induction ds generalizing s with
  | nil => trivial
  | cons d ds ih => exact ⟨h s d, ih _⟩

/-- The first command is refused, or it is accepted and a later one is refused. -/
theorem refuses_cons_iff {s : σ} {first d : Command} {ds before : List Command} {e : ε} :
    visit.Refuses s (first :: ds) before d e ↔
      (before = [] ∧ d = first ∧ (visit s first).2 = some e) ∨
        ∃ others, before = first :: others ∧ (visit s first).2 = none ∧
          visit.Refuses (visit s first).1 ds others d e := by
  constructor
  · rintro ⟨hstands, haccepted, hrefused⟩
    cases before with
    | nil =>
      obtain ⟨rfl, -⟩ := List.cons_prefix_cons.1 hstands
      exact Or.inl ⟨rfl, rfl, hrefused⟩
    | cons first' others =>
      rw [List.cons_append, List.cons_prefix_cons] at hstands
      obtain ⟨rfl, hstands⟩ := hstands
      exact Or.inr ⟨others, rfl, haccepted.1, hstands, haccepted.2, hrefused⟩
  · rintro (⟨rfl, rfl, hrefused⟩ | ⟨others, rfl, hfirst, hstands, haccepted, hrefused⟩)
    · exact ⟨List.cons_prefix_cons.2 ⟨rfl, List.nil_prefix⟩, trivial, hrefused⟩
    · exact ⟨List.cons_prefix_cons.2 ⟨rfl, hstands⟩, ⟨hfirst, haccepted⟩, hrefused⟩

/-- Either all commands are accepted or a first one is refused. -/
theorem accepts_or_refuses (s : σ) (ds : List Command) :
    visit.Accepts s ds ∨ ∃ before d e, visit.Refuses s ds before d e := by
  induction ds generalizing s with
  | nil => exact Or.inl trivial
  | cons d ds ih =>
    cases hfirst : (visit s d).2 with
    | some e => exact Or.inr ⟨[], d, e, refuses_cons_iff.2 (Or.inl ⟨rfl, rfl, hfirst⟩)⟩
    | none =>
      rcases ih (visit s d).1 with haccepts | ⟨before, d', e, hrefuses⟩
      · exact Or.inl ⟨hfirst, haccepts⟩
      · exact Or.inr ⟨d :: before, d', e,
          refuses_cons_iff.2 (Or.inr ⟨before, rfl, hfirst, hrefuses⟩)⟩

/-! ## Keeping a list -/

/-- A visitor that also records keeps the commands it is shown in order. -/
theorem after_recording (ds kept : List Command) (s : σ) :
    visit.recording.after (s, kept) ds = (visit.after s ds, kept ++ ds) := by
  induction ds generalizing s kept with
  | nil => simp [after]
  | cons d ds ih => simp [after_cons, recording, ih]

/-- A visitor that also records accepts what the visitor accepts. -/
theorem accepts_recording_iff {ds kept : List Command} {s : σ} :
    visit.recording.Accepts (s, kept) ds ↔ visit.Accepts s ds := by
  induction ds generalizing s kept with
  | nil => rfl
  | cons d ds ih => simp [Accepts, recording, ih]

/-- A visitor that also records refuses what the visitor refuses. -/
theorem refuses_recording_iff {all before kept : List Command} {s : σ} {d : Command} {e : ε} :
    visit.recording.Refuses (s, kept) all before d e ↔ visit.Refuses s all before d e := by
  have hrefused : (visit.recording (visit.recording.after (s, kept) before) d).2 =
      (visit (visit.after s before) d).2 := by rw [after_recording]; rfl
  exact ⟨fun h => ⟨h.stands, accepts_recording_iff.1 h.accepted, hrefused ▸ h.refused⟩,
    fun h => ⟨h.stands, accepts_recording_iff.2 h.accepted, hrefused ▸ h.refused⟩⟩

end

end Visitor

/-! ## Replay of some lines -/

section

variable {σ ε : Type} (visit : Visitor σ ε) (lift : Failure → ε)

section

variable {visit lift} {c c' : Cursor} {line : Bytes} {r : Record} {d : Command}

/-- A record without a command is counted and not shown to the visitor. -/
theorem replayFrom_cons_of_foreign (h : c.take line = .ok (r, c')) (hr : r.entry.command? = none)
    (n : Nat) (ahead : List Bytes) (tail : Bytes) (p : Position) (s : σ) :
    replayFrom visit lift (n + 1) (Scan.at c (line :: ahead) tail) p s =
      replayFrom visit lift n (Scan.at c' ahead tail) (p.count r) s := by
  rw [replayFrom, next_cons_of_ok h]
  simp only [hr]

/-- A record whose command the visitor accepts is counted. -/
theorem replayFrom_cons_of_accepts (h : c.take line = .ok (r, c')) (hr : r.entry.command? = some d)
    {s : σ} (hd : (visit s d).2 = none) (n : Nat) (ahead : List Bytes) (tail : Bytes)
    (p : Position) :
    replayFrom visit lift (n + 1) (Scan.at c (line :: ahead) tail) p s =
      replayFrom visit lift n (Scan.at c' ahead tail) (p.count r) (visit s d).1 := by
  have hvisit : visit s d = ((visit s d).1, none) := Prod.ext rfl hd
  rw [replayFrom, next_cons_of_ok h]
  simp only [hr]
  rw [hvisit]

/-- A record whose command the visitor refuses ends the replay with its error. -/
theorem replayFrom_cons_of_refuses (h : c.take line = .ok (r, c')) (hr : r.entry.command? = some d)
    {s : σ} {e : ε} (hd : (visit s d).2 = some e) (n : Nat) (ahead : List Bytes) (tail : Bytes)
    (p : Position) :
    replayFrom visit lift (n + 1) (Scan.at c (line :: ahead) tail) p s =
      (.error e, (visit s d).1) := by
  have hvisit : visit s d = ((visit s d).1, some e) := Prod.ext rfl hd
  rw [replayFrom, next_cons_of_ok h]
  simp only [hr]
  rw [hvisit]

/-- A line that cannot be taken ends the replay with its failure. -/
theorem replayFrom_cons_of_error {e : Failure} (h : c.take line = .error e) (n : Nat)
    (ahead : List Bytes) (tail : Bytes) (p : Position) (s : σ) :
    replayFrom visit lift (n + 1) (Scan.at c (line :: ahead) tail) p s = (.error (lift e), s) := by
  rw [replayFrom, next_cons_of_error h]

/-- Behind the complete lines the replay reports its position and whether there is a torn tail. -/
theorem replayFrom_nil (c : Cursor) (n : Nat) (tail : Bytes) (p : Position) (s : σ) :
    replayFrom visit lift (n + 1) (Scan.at c [] tail) p s =
      (.ok { p with torn := !tail.isEmpty }, s) := rfl

end

/-- **Replay goes on behind lines whose commands are accepted**, and has counted their records. -/
theorem replayFrom_of_accepts {lines : List Bytes} (rest : List Bytes) (tail : Bytes) (n : Nat) :
    {c c' : Cursor} → {rs : List Record} → {p : Position} → {s : σ} →
    c.takeAll lines = .ok (rs, c') → visit.Accepts s (commands rs) →
    replayFrom visit lift (lines.length + n) (Scan.at c (lines ++ rest) tail) p s =
      replayFrom visit lift n (Scan.at c' rest tail) (rs.foldl Position.count p)
        (visit.after s (commands rs)) := by
  induction lines with
  | nil =>
    intro c c' rs p s h _
    cases h
    rw [List.length_nil, Nat.zero_add]
    rfl
  | cons line lines ih =>
    intro c c' rs p s h haccepts
    obtain ⟨r, next, ss, hr, hss, rfl⟩ := Cursor.takeAll_cons_eq_ok_iff.1 h
    rw [List.length_cons, Nat.succ_add, List.cons_append, List.foldl_cons]
    cases hcommand : r.entry.command? with
    | none =>
      rw [commands_cons_of_foreign hcommand] at haccepts ⊢
      rw [replayFrom_cons_of_foreign hr hcommand]
      exact ih hss haccepts
    | some d =>
      rw [commands_cons_of_command hcommand] at haccepts ⊢
      rw [replayFrom_cons_of_accepts hr hcommand haccepts.1]
      exact ih hss haccepts.2

/-- **Replay ends where a command is refused**, whatever lies ahead. -/
theorem replayFrom_of_refuses {lines : List Bytes} (rest : List Bytes) (tail : Bytes) (n : Nat)
    {d : Command} {e : ε} : {c c' : Cursor} → {rs : List Record} → {p : Position} → {s : σ} →
    {before : List Command} → c.takeAll lines = .ok (rs, c') →
    visit.Refuses s (commands rs) before d e →
    replayFrom visit lift (lines.length + n) (Scan.at c (lines ++ rest) tail) p s =
      (.error e, visit.after s (before ++ [d])) := by
  induction lines with
  | nil =>
    intro c c' rs p s before h hrefuses
    cases h
    have hnone := hrefuses.stands
    simp [commands] at hnone
  | cons line lines ih =>
    intro c c' rs p s before h hrefuses
    obtain ⟨r, next, ss, hr, hss, rfl⟩ := Cursor.takeAll_cons_eq_ok_iff.1 h
    rw [List.length_cons, Nat.succ_add, List.cons_append]
    cases hcommand : r.entry.command? with
    | none =>
      rw [commands_cons_of_foreign hcommand] at hrefuses
      rw [replayFrom_cons_of_foreign hr hcommand]
      exact ih hss hrefuses
    | some first =>
      rw [commands_cons_of_command hcommand, Visitor.refuses_cons_iff] at hrefuses
      rcases hrefuses with ⟨rfl, rfl, hrefused⟩ | ⟨others, rfl, haccepted, hrefuses⟩
      · exact replayFrom_cons_of_refuses hr hcommand hrefused _ _ _ _
      · rw [replayFrom_cons_of_accepts hr hcommand haccepted]
        exact ih hss hrefuses

/-- A visitor that keeps a list changes nothing else. -/
theorem replayFrom_recording (n : Nat) (scan : Scan) (p : Position) (s : σ) (kept : List Command) :
    replayFrom visit lift n scan p s =
      ((replayFrom visit.recording lift n scan p (s, kept)).1,
        (replayFrom visit.recording lift n scan p (s, kept)).2.1) := by
  induction n generalizing scan p s kept with
  | zero => rfl
  | succ n ih =>
    unfold replayFrom
    split
    · rfl
    · rfl
    · split
      · exact ih _ _ _ _
      · rename_i d _
        rcases hd : visit s d with ⟨s', _ | e⟩
        · simp only [Visitor.recording, hd]
          exact ih _ _ _ _
        · simp only [Visitor.recording, hd]

end

/-! ## The records that a log begins with -/

/-- The records in the lines that a log begins with, as far as these are the records of their
places. -/
structure Leading (lines : List Bytes) (rs : List Record) : Prop where
  /-- The records stand in the first lines. -/
  stands : ∀ (i : Nat) (r : Record), rs[i]? = some r →
    ∃ line, lines[i]? = some line ∧ r.Stands line (UInt64.ofNat (i + 1))
  /-- The line behind the records, if there is one, is not the next record. -/
  ends : ∀ line, lines[rs.length]? = some line →
    ¬ ∃ r : Record, r.Stands line (UInt64.ofNat (rs.length + 1))

namespace Leading

variable {lines : List Bytes} {rs ss : List Record}

/-- A run of leading records is as long as any other: where it ends no record stands. -/
theorem length_le (hr : Leading lines rs) (hs : Leading lines ss) : ss.length ≤ rs.length := by
  refine Nat.le_of_not_lt fun hlt => ?_
  obtain ⟨line, hline, hstands⟩ := hs.stands _ _ (List.getElem?_eq_getElem hlt)
  exact hr.ends line hline ⟨_, hstands⟩

/-- A log has one run of leading records. -/
theorem unique (hr : Leading lines rs) (hs : Leading lines ss) : rs = ss := by
  have hlength : rs.length = ss.length := Nat.le_antisymm (hs.length_le hr) (hr.length_le hs)
  refine List.ext_getElem hlength fun i hi hi' => ?_
  obtain ⟨line, hline, hstands⟩ := hr.stands i _ (List.getElem?_eq_getElem hi)
  obtain ⟨line', hline', hstands'⟩ := hs.stands i _ (List.getElem?_eq_getElem hi')
  obtain rfl := Option.some.inj (hline.symm.trans hline')
  exact hstands.unique hstands'

end Leading

/-- Lines that are taken, up to the end or to a line that is refused, hold the leading records. -/
theorem leading_of_takeAll {before rest : List Bytes} {between : Cursor} {rs : List Record}
    (h : Cursor.takeAll {} before = .ok (rs, between))
    (hrest : ∀ line, rest.head? = some line → ∃ e, between.take line = .error e) :
    Leading (before ++ rest) rs := by
  have hlength := Cursor.length_takeAll h
  refine ⟨fun i r hr => ?_, fun line hline => ?_⟩
  · have hi : i < before.length := by
      rw [← hlength]
      exact (List.getElem?_eq_some_iff.1 hr).1
    have hline := List.getElem?_eq_getElem hi
    obtain ⟨r', hr', hstands⟩ := Cursor.stands_of_takeAll h hline
    obtain rfl := Option.some.inj (hr.symm.trans hr')
    rw [UInt64.zero_add] at hstands
    exact ⟨_, by rw [List.getElem?_append_left hi, hline], hstands⟩
  · rintro ⟨r, hstands⟩
    rw [hlength, List.getElem?_append_right (Nat.le_refl _), Nat.sub_self,
      ← List.head?_eq_getElem?] at hline
    obtain ⟨e, he⟩ := hrest line hline
    rw [hlength, ← Cursor.next_of_takeAll h] at hstands
    rw [Cursor.take_eq_ok_iff.2 ⟨hstands, rfl⟩] at he
    cases he

/-- What is taken of a readable file are its leading records. -/
theorem leading_of_taken {content : Bytes} {rs : List Record} {c : Cursor}
    (h : taken content = .ok (rs, c)) : Leading (Bytes.lines content).1 rs := by
  have hleading : Leading ((Bytes.lines content).1 ++ []) rs :=
    leading_of_takeAll h fun line hline => by cases hline
  rwa [List.append_nil] at hleading

/-- A log begins with lines that are taken. Behind them comes nothing, and the log is taken as a
whole, or a line that is refused. -/
theorem leading_split (content : Bytes) :
    ∃ before rest rs c, (Bytes.lines content).1 = before ++ rest ∧
      Cursor.takeAll {} before = .ok (rs, c) ∧ Leading (Bytes.lines content).1 rs ∧
      ((rest = [] ∧ taken content = .ok (rs, c)) ∨
        ∃ bad others e, rest = bad :: others ∧ c.take bad = .error e ∧
          taken content = .error e) := by
  cases htaken : taken content with
  | ok p =>
    exact ⟨_, [], p.1, p.2, (List.append_nil _).symm, htaken, leading_of_taken htaken,
      Or.inl ⟨rfl, rfl⟩⟩
  | error e =>
    obtain ⟨before, bad, others, rs, c, hsplit, hbefore, hbad⟩ :=
      Cursor.takeAll_eq_error_iff.1 htaken
    refine ⟨before, bad :: others, rs, c, hsplit, hbefore, ?_,
      Or.inr ⟨bad, others, e, rfl, hbad, rfl⟩⟩
    rw [hsplit]
    refine leading_of_takeAll hbefore fun line hline => ?_
    obtain rfl := Option.some.inj hline
    exact ⟨e, hbad⟩

/-- Every file has exactly one run of leading records. -/
theorem existsUnique_leading (content : Bytes) : ∃! rs, Leading (Bytes.lines content).1 rs := by
  obtain ⟨-, -, rs, -, -, -, hleading, -⟩ := leading_split content
  exact ⟨rs, hleading, fun _ h => h.unique hleading⟩

section

variable {σ ε : Type} {visit : Visitor σ ε} {lift : Failure → ε} {content : Bytes}
  {rs : List Record} {s : σ}

/-- Replaying a file is replaying its lines from the beginning, whichever way they are split. -/
theorem replay_of_append {before rest : List Bytes} (h : (Bytes.lines content).1 = before ++ rest) :
    replay visit lift (some (Scan.ofContent content)) s =
      replayFrom visit lift (before.length + (rest.length + 1))
        (Scan.at {} (before ++ rest) (Bytes.lines content).2) {} s := by
  rw [replay, Scan.ofContent, h, List.length_append, Nat.add_assoc]
  rfl

/-- What is behind a refused command has no part in a replay. -/
theorem replay_of_refuses (hleading : Leading (Bytes.lines content).1 rs) {before : List Command}
    {d : Command} {e : ε} (h : visit.Refuses s (commands rs) before d e) :
    replay visit lift (some (Scan.ofContent content)) s =
      (.error e, visit.after s (before ++ [d])) := by
  obtain ⟨lines, rest, rs', c, hsplit, hlines, hleading', -⟩ := leading_split content
  obtain rfl := hleading.unique hleading'
  rw [replay_of_append hsplit]
  exact replayFrom_of_refuses visit lift rest _ _ hlines h

/-- If all commands are accepted, replay fails where reading fails. -/
theorem replay_of_error {e : Failure} (htaken : taken content = .error e)
    (hleading : Leading (Bytes.lines content).1 rs) (h : visit.Accepts s (commands rs)) :
    replay visit lift (some (Scan.ofContent content)) s =
      (.error (lift e), visit.after s (commands rs)) := by
  obtain ⟨lines, rest, rs', c, hsplit, hlines, hleading', ⟨-, hok⟩ | hbad⟩ := leading_split content
  · rw [htaken] at hok
    cases hok
  · obtain rfl := hleading.unique hleading'
    obtain ⟨bad, others, e', rfl, htake, herror⟩ := hbad
    obtain rfl := Except.error.inj (htaken.symm.trans herror)
    rw [replay_of_append hsplit, replayFrom_of_accepts visit lift _ _ _ hlines h,
      List.length_cons, replayFrom_cons_of_error htake]

/-- If all commands are accepted and all lines are read, replay accounts for all records. -/
theorem replay_of_ok {c : Cursor} (htaken : taken content = .ok (rs, c))
    (h : visit.Accepts s (commands rs)) :
    replay visit lift (some (Scan.ofContent content)) s =
      (.ok { rs.foldl Position.count {} with torn := !(Bytes.lines content).2.isEmpty },
        visit.after s (commands rs)) := by
  rw [replay_of_append (List.append_nil _).symm,
    replayFrom_of_accepts visit lift _ _ _ htaken h, List.length_nil, replayFrom_nil]

end

section

variable {σ ε : Type} (visit : Visitor σ ε) (lift : Failure → ε)

/-- What a visitor makes of one record. -/
def Visitor.over (s : σ) (r : Record) : σ :=
  match r.entry.command? with
  | none => s
  | some c => (visit s c).1

/-- What a visitor makes of records is what it makes of their commands. -/
theorem Visitor.foldl_over (rs : List Record) (s : σ) :
    rs.foldl visit.over s = visit.after s (commands rs) := by
  induction rs generalizing s with
  | nil => rfl
  | cons r rs ih =>
    rw [List.foldl_cons, ih]
    cases h : r.entry.command? with
    | none => simp only [Visitor.over, h, commands_cons_of_foreign h]
    | some d => simp only [Visitor.over, h, commands_cons_of_command h, Visitor.after_cons]

/-- Replay of a log that can be read, with a visitor that refuses nothing. -/
theorem replay_of_taken (hvisit : ∀ s c, (visit s c).2 = none) {content : Bytes}
    {rs : List Record} {c : Cursor} (h : taken content = .ok (rs, c)) (s : σ) :
    replay visit lift (some (Scan.ofContent content)) s =
      (.ok { rs.foldl Position.count {} with torn := !(Bytes.lines content).2.isEmpty },
        rs.foldl visit.over s) := by
  rw [replay_of_ok h (Visitor.accepts_of_forall hvisit _ s), Visitor.foldl_over]

/-- Replay of a log that cannot be read fails, whatever the visitor does. -/
theorem replay_of_taken_error {content : Bytes} {e : Failure} (h : taken content = .error e)
    (s : σ) : ∃ e', (replay visit lift (some (Scan.ofContent content)) s).1 = .error e' := by
  obtain ⟨rs, hleading, -⟩ := existsUnique_leading content
  rcases visit.accepts_or_refuses s (commands rs) with haccepts | ⟨before, d, e', hrefuses⟩
  · exact ⟨lift e, congrArg Prod.fst (replay_of_error h hleading haccepts)⟩
  · exact ⟨e', congrArg Prod.fst (replay_of_refuses hleading hrefuses)⟩

end

/-- The account of records that are all of a log. -/
theorem count_of_taken {content : Bytes} {rs : List Record} {c : Cursor}
    (h : taken content = .ok (rs, c)) (torn : Bool) :
    { rs.foldl Position.count {} with torn } =
      ({ records := UInt64.ofNat rs.length
         skipped := UInt64.ofNat (rs.countP fun r => r.entry.command?.isNone)
         last := UInt64.ofNat rs.length
         torn } : Position) := by
  have hlast : (rs.foldl Position.count {}).last = UInt64.ofNat rs.length := by
    rw [last_foldl_count (p := {}) h rfl, Cursor.last_takeAll h, ← Cursor.length_takeAll h,
      UInt64.zero_add]
  simp only [records_foldl_count, skipped_foldl_count, hlast, UInt64.zero_add]

/-- Where there is no file there is nothing to scan. -/
theorem Scan.find_of_missing {d : Disk} {path : String} (h : d.find path = .error .notFound) :
    Scan.find d path = .ok none := by
  simp only [Scan.find, Scan.open, h]

/-- **What replay hands over, and how it ends.** The visitor is handed the commands of the records
that the log begins with, in order, and no others; foreign entries are passed over. If it refuses
one, it is handed this one and none behind it, and replay fails with what the visitor said, even
where the log is damaged behind. If it refuses none, replay fails as reading the log does, or it has
read what reading does and counts it. A log that is missing is an empty one. What is handed over is
what a visitor finds that keeps a list and does the same otherwise. -/
theorem replay_visits_leading {σ ε : Type} (visit : Visitor σ ε) (lift : Failure → ε)
    (content : Bytes) (s : σ) :
    let scan := Scan.ofContent content
    let replayed := replay visit.recording lift (some scan) (s, [])
    (replay visit lift (some scan) s = (replayed.1, replayed.2.1)) ∧
    (∀ d path, d.find path = .error .notFound → Scan.find d path = .ok none ∧
      replay visit.recording lift none (s, []) = (.ok {}, s, [])) ∧
    (∃! rs, Leading (Bytes.lines content).1 rs) ∧
    ∀ rs, Leading (Bytes.lines content).1 rs →
      (visit.Accepts s (commands rs) ∨ ∃ before d e, visit.Refuses s (commands rs) before d e) ∧
      (∀ before d e, visit.Refuses s (commands rs) before d e →
        replayed = (.error e, visit.after s (before ++ [d]), before ++ [d])) ∧
      (visit.Accepts s (commands rs) →
        replayed.2 = (visit.after s (commands rs), commands rs) ∧
        (∀ e, scan.all.1 = .error e → replayed.1 = .error (lift e)) ∧
        ∀ all, scan.all.1 = .ok all → rs = all ∧
          replayed.1 = .ok
            { records := UInt64.ofNat all.length
              skipped := UInt64.ofNat (all.countP fun r => r.entry.command?.isNone)
              last := UInt64.ofNat all.length
              torn := scan.all.2.torn }) := by
  intro scan replayed
  refine ⟨replayFrom_recording visit lift _ _ _ s [],
    fun d path h => ⟨Scan.find_of_missing h, rfl⟩, existsUnique_leading content,
    fun rs hleading => ⟨visit.accepts_or_refuses s _, fun before d e hrefuses => ?_,
      fun haccepts => ?_⟩⟩
  · have hrefuses' : visit.recording.Refuses (s, []) (commands rs) before d e :=
      Visitor.refuses_recording_iff.2 hrefuses
    have hreplay : replayed = _ := replay_of_refuses hleading hrefuses'
    rwa [Visitor.after_recording, List.nil_append] at hreplay
  · have haccepts' : visit.recording.Accepts (s, []) (commands rs) :=
      Visitor.accepts_recording_iff.2 haccepts
    cases htaken : taken content with
    | error e =>
      have hreplay : replayed = _ := replay_of_error htaken hleading haccepts'
      have hall : scan.all.1 = .error e := all_eq_error_iff.2 htaken
      rw [hreplay, hall, Visitor.after_recording]
      refine ⟨rfl, fun e' he => ?_, fun all h => ?_⟩
      · obtain rfl := Except.error.inj he
        rfl
      · cases h
    | ok p =>
      obtain ⟨all, c⟩ := p
      obtain rfl := hleading.unique (leading_of_taken htaken)
      have hreplay : replayed = _ := replay_of_ok htaken haccepts'
      have hall : scan.all = _ := all_of_taken htaken
      rw [hreplay, hall, Visitor.after_recording, count_of_taken htaken]
      refine ⟨rfl, fun e he => ?_, fun all h => ?_⟩
      · cases he
      · obtain rfl := Except.ok.inj h
        exact ⟨rfl, rfl⟩

/-- Of three commands and a foreign entry the second command is refused. The visitor has seen the
first two, and what it said of the second is told, although the log ends in an empty line. -/
theorem replay_visits_leading_refused :
    ∃ (es : List Entry) (content : Bytes),
      es = [.command (.delete "a"), .foreign "note" (.object [("op", .string "note")]),
        .command (.delete "b"), .command (.delete "c")] ∧
      content = Bytes.joinLines (bodies 0 es ++ [[]]) ∧
      let visit : Visitor Nat String := fun n _ => (n + 1, if n = 1 then some "refused" else none)
      (∃ e, (Scan.ofContent content).all.1 = .error e) ∧
        replay visit (fun _ => "corrupt") (some (Scan.ofContent content)) 0 =
          (.error "refused", 2) ∧
        replay visit.recording (fun _ => "corrupt") (some (Scan.ofContent content)) (0, []) =
          (.error "refused", 2, [.delete "a", .delete "b"]) := by
  refine ⟨_, _, rfl, rfl, ?_⟩
  intro visit
  have hnote : (Entry.foreign "note" (.object [("op", .string "note")])).SelfDescribed ∧
      (Entry.foreign "note" (.object [("op", .string "note")])).Lasting :=
    ⟨rfl, by decide, by simp [Entry.toValue, Json.Value.numbers, Json.Value.fieldsNumbers]⟩
  -- Nothing else is needed of the entries, whose bytes would be computed below.
  generalize hes : [Entry.command (.delete "a"), .foreign "note" (.object [("op", .string "note")]),
    .command (.delete "b"), .command (.delete "c")] = es
  have hself : ∀ e ∈ es, e.SelfDescribed := by
    simp [← hes, Entry.selfDescribed_command, hnote.1]
  have hlasting : ∀ e ∈ es, e.Lasting := by
    simp [← hes, Entry.lasting_command, hnote.2]
  have hcommands : commands (numbered 0 es) = [.delete "a", .delete "b", .delete "c"] := by
    rw [commands_numbered, ← hes]
    rfl
  have hlines : (Bytes.lines (Bytes.joinLines (bodies 0 es ++ [[]]))).1 = bodies 0 es ++ [[]] := by
    rw [Bytes.lines_joinLines_whole]
    simpa [or_imp, forall_and] using newline_notMem_bodies 0 es
  obtain ⟨offset, htake⟩ := Cursor.takeAll_numbered (c := {}) hself hlasting
  obtain ⟨e, hbad⟩ : ∃ e, (⟨offset, lastOf 0 es⟩ : Cursor).take [] = .error e := ⟨_, rfl⟩
  have hleading : Leading (bodies 0 es ++ [[]]) (numbered 0 es) :=
    leading_of_takeAll htake fun line hline => ⟨e, Option.some.inj hline ▸ hbad⟩
  obtain ⟨hstate, -, -, hvisits⟩ := replay_visits_leading visit (fun _ => "corrupt")
    (Bytes.joinLines (bodies 0 es ++ [[]])) 0
  rw [← hlines] at hleading
  obtain ⟨-, hrefused, -⟩ := hvisits _ hleading
  have hreplayed := hrefused [.delete "a"] (.delete "b") "refused"
    ⟨hcommands ▸ ⟨[.delete "c"], rfl⟩, ⟨rfl, trivial⟩, rfl⟩
  refine ⟨⟨e, all_eq_error_iff.2 ?_⟩, ?_, hreplayed⟩
  · rw [taken, hlines]
    exact Cursor.takeAll_eq_error_iff.2 ⟨_, [], [], _, _, rfl, htake, hbad⟩
  · rw [hstate, hreplayed]
    rfl

end DurableKV.Log
