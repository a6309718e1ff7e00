import DurableKV.Proofs.Creation

/-!
# Looking at a log and starting from it

A log is read in three places: by an inspection, by the replay of a start, and by the writer that a
start opens behind it, which cuts off a torn line. `recover_agrees_with_inspect` says that they
cannot disagree, whatever bytes stand in the log: either all of it is refused and left as it is, or
an inspection shows what a start brings up, and a second start brings it up again.

Replay and the writer come down to what the complete lines are taken as (`Log.taken`), and cutting
off what stands behind these lines does not change that (`taken_joinLines_lines`). That an
inspection looks at a disk on which no directory has been made yet, while a start makes them first,
matters only for a log that is missing: making directories cannot take away what hides it
(`missing`).
-/

namespace DurableKV

/-! ## A log that is missing -/

namespace Disk

/-- A way that is missing on a disk with more on it was missing before. -/
theorem Extends.walk_missing {d d' : Disk} (h : Extends d d') {ps : List String} :
    {place : List String} → d'.walk place ps = .error .notFound →
    d.walk place ps = .error .notFound := by
  induction ps with
  | nil =>
    intro place hwalk
    rw [Disk.walk] at hwalk ⊢
    split at hwalk
    · cases hwalk
    · rename_i hat
      split
      · rename_i hat'
        rw [h _ _ hat'] at hat
        cases hat
      · rfl
  | cons p ps ih =>
    intro place hwalk
    rw [Disk.walk] at hwalk ⊢
    cases hat : d.at? place with
    | none => rfl
    | some item =>
      rw [h _ _ hat] at hwalk
      cases item with
      | folder => exact ih hwalk
      | file file => cases hwalk

/-- Something is missing exactly if its path cannot be taken apart so, or its way ends so. -/
theorem find_eq_missing_iff {d : Disk} {path : String} :
    d.find path = .error .notFound ↔ partsOf path = .error .notFound ∨
      ∃ ps, partsOf path = .ok ps ∧ d.walk [] ps = .error .notFound := by
  rw [find]
  cases partsOf path with
  | error e => simp [bind, Except.bind]
  | ok ps =>
    cases hwalk : d.walk [] ps with
    | error e => simp [bind, Except.bind, hwalk]
    | ok item =>
      cases item with
      | folder => simp [bind, Except.bind, hwalk]
      | file file =>
        by_cases hslash : Path.endsInSlash path <;>
          simp [bind, Except.bind, hwalk, hslash]

/-- What is missing on a disk with more on it was missing before. -/
theorem Extends.find_missing {d d' : Disk} (h : Extends d d') {path : String}
    (hfind : d'.find path = .error .notFound) : d.find path = .error .notFound := by
  rcases find_eq_missing_iff.1 hfind with hparts | ⟨ps, hps, hwalk⟩
  · exact find_eq_missing_iff.2 (Or.inl hparts)
  · exact find_eq_missing_iff.2 (Or.inr ⟨ps, hps, h.walk_missing hwalk⟩)

/-- Where nothing is, the log is missing before any directory is made. -/
theorem HoldsNothing.missing {d : Disk} {dataDir : String} (h : d.HoldsNothing dataDir) :
    d.find (Log.pathOf dataDir) = .error .notFound := by
  obtain ⟨d', hfolders, hmissing, -⟩ := h
  have hextends : Extends d d' := by
    have h := extends_ensureFolders ((dataDir :: Path.above dataDir).filter (· ≠ "")) d
    rw [createFolders] at hfolders
    rw [hfolders] at h
    exact h
  exact hextends.find_missing hmissing

/-- A disk on which the log of a data directory has this content: these bytes, or no log and nothing
in its way. -/
def Holds (d : Disk) (dataDir : String) : Option Bytes → Prop
  | some content => d.HoldsLog dataDir content
  | none => d.HoldsNothing dataDir

end Disk

/-! ## The complete lines of a log -/

/-- What stands behind the complete lines has no part in what they are taken as. -/
theorem Log.taken_joinLines_lines (content : Bytes) :
    taken (Bytes.joinLines (Bytes.lines content).1) = taken content := by
  rw [taken, Bytes.lines_joinLines_lines]
  rfl

namespace Recovery

/-! ## What replay reports -/

/-- The statistics of a log whose complete lines are taken as these records. -/
def statsOf (rs : List Log.Record) (torn : Bool) : ReplayStats :=
  (rs.foldl (Log.Visitor.over visit) (∅, {})).2.endAt { rs.foldl Log.Position.count {} with torn }

/-- Replay of a log that can be read comes to its entries and its statistics. -/
theorem rebuild_eq_of_taken {content : Bytes} {rs : List Log.Record} {c : Log.Cursor}
    (h : Log.taken content = .ok (rs, c)) :
    rebuild (some (.ofContent content)) ∅ =
      (.ok (statsOf rs !(Bytes.lines content).2.isEmpty),
        Store.ofEntries (rs.map Log.Record.entry)) := by
  have hreplay := Log.replay_of_taken visit RecoveryError.log (fun _ _ => rfl) h (∅, {})
  rw [rebuild, hreplay]
  exact Prod.ext rfl (foldl_over_visit rs ∅ {})

/-- A log that is missing is replayed as an empty one. -/
theorem rebuild_getD (content : Option Bytes) (s : Store) :
    rebuild (content.map Log.Scan.ofContent) s =
      rebuild (some (.ofContent (content.getD []))) s := by
  cases content with
  | none => exact rebuild_none s
  | some content => rfl

/-- Recovery reports what replay reports, and brings up the store that replay built. -/
theorem rebuild_of_restore {path : String} {content : Option Bytes} {machine : Machine}
    {stats : ReplayStats} (h : (restore path content).1 = .ok (machine, stats)) :
    rebuild (content.map Log.Scan.ofContent) ∅ = (.ok stats, machine.store) := by
  unfold restore at h
  split at h
  · cases h
  · rename_i hrebuild
    split at h
    · cases h
    · cases h
      exact hrebuild

/-- Recovery fails as replay fails. -/
theorem restore_of_rebuild {path : String} {content : Option Bytes} {e : RecoveryError}
    (h : (rebuild (content.map Log.Scan.ofContent) ∅).1 = .error e) :
    restore path content = (.error e, content) := by
  unfold restore
  split
  · rename_i hrebuild
    rw [hrebuild] at h
    cases h
    rfl
  · rename_i hrebuild
    rw [hrebuild] at h
    cases h

/-! ## The log on a disk -/

/-- An inspection replays the log that the disk holds. -/
theorem inspect_of_holds {d : Disk} {dataDir : String} {content : Option Bytes}
    (h : d.Holds dataDir content) (s : Store) :
    inspect d dataDir s = rebuild (content.map Log.Scan.ofContent) s := by
  cases content with
  | some content =>
    unfold Disk.Holds Disk.HoldsLog at h
    simp only [inspect, Log.Scan.find, Log.Scan.open, h, File.content_ofContent, Option.map_some]
  | none =>
    have hmissing := Disk.HoldsNothing.missing h
    simp only [inspect, Log.Scan.find, Log.Scan.open, hmissing, Option.map_none]

/-- Recovery on a disk comes to what recovery of the log on it comes to. -/
theorem fst_recover_of_holds {d : Disk} {dataDir : String} {content : Option Bytes}
    (h : d.Holds dataDir content) :
    (recover d dataDir).1 = (restore (Log.pathOf dataDir) content).1 := by
  cases content with
  | some content =>
    have hfolders := Disk.createFolders_of_find_log h
    unfold Disk.Holds Disk.HoldsLog at h
    simp only [recover, hfolders, h, File.content_ofContent]
    split
    · rename_i hrestore
      rw [hrestore]
    · rename_i hrestore
      rw [hrestore]
  | none =>
    obtain ⟨d', hfolders, hmissing, -⟩ := h
    simp only [recover, hfolders, hmissing]
    split
    · rename_i hrestore
      rw [hrestore]
    · rename_i hrestore
      rw [hrestore]

/-- An inspection shows what recovery brings up. -/
theorem inspect_of_recover {d after : Disk} {dataDir : String} {content : Option Bytes}
    {machine : Machine} {stats : ReplayStats} (h : d.Holds dataDir content)
    (hrecover : recover d dataDir = (.ok (machine, stats), after)) :
    inspect d dataDir ∅ = (.ok stats, machine.store) := by
  have hrestore := fst_recover_of_holds h
  rw [hrecover] at hrestore
  rw [inspect_of_holds h]
  exact rebuild_of_restore hrestore.symm

/-- Recovery of a log that can be read, whether it is there or missing. -/
theorem recover_of_holds {d : Disk} {dataDir : String} {content : Option Bytes}
    {rs : List Log.Record} {c : Log.Cursor} (h : d.Holds dataDir content)
    (htaken : Log.taken (content.getD []) = .ok (rs, c)) :
    ∃ machine after, recover d dataDir =
        (.ok (machine, statsOf rs !(Bytes.lines (content.getD [])).2.isEmpty), after) ∧
      machine.store = Store.ofEntries (rs.map Log.Record.entry) ∧
      machine.lastSequence = c.last ∧
      after.HoldsLog dataDir (Bytes.joinLines (Bytes.lines (content.getD [])).1) := by
  have hrecover : ∃ machine stats after, recover d dataDir = (.ok (machine, stats), after) ∧
      Restored (Log.pathOf dataDir) (content.getD []) rs c machine stats ∧
      after.HoldsLog dataDir (Bytes.joinLines (Bytes.lines (content.getD [])).1) := by
    cases content with
    | some content => exact recover_of_taken h htaken
    | none =>
      cases htaken
      exact recover_of_holdsNothing h
  obtain ⟨machine, stats, after, hrecover, hrestored, hafter⟩ := hrecover
  have hinspect := inspect_of_recover h hrecover
  rw [inspect_of_holds h, rebuild_getD, rebuild_eq_of_taken htaken] at hinspect
  obtain ⟨hstats, hstore⟩ := Prod.ext_iff.1 hinspect
  cases hstats
  refine ⟨machine, after, hrecover, hstore.symm, ?_, hafter⟩
  rw [Machine.lastSequence, Log.Writer.last, hrestored.next, UInt64.add_sub_cancel]

/-- Recovery of a log that cannot be read fails as an inspection does, and leaves the log. -/
theorem recover_of_refused {d : Disk} {dataDir : String} {content : Bytes} {e : Log.Failure}
    (h : d.HoldsLog dataDir content) (htaken : Log.taken content = .error e) :
    ∃ e' after, (inspect d dataDir ∅).1 = .error e' ∧ recover d dataDir = (.error e', after) ∧
      after.HoldsLog dataDir content := by
  obtain ⟨e', he⟩ := rebuild_of_error htaken ∅
  have hrestore : restore (Log.pathOf dataDir) (some content) = (.error e', some content) :=
    restore_of_rebuild he
  refine ⟨e', _, ?_, recover_of_holdsLog h hrestore, Disk.find_save h rfl _⟩
  rw [@inspect_of_holds d dataDir (some content) h]
  exact he

/-- **An inspection, a start and a second start agree on every log.** A disk holds any bytes at all
as the log of a data directory, or no log. Either an inspection and a start fail with the same error
and the log is left as it is; or both succeed with the same statistics and the same store. Then the
machine goes on behind the number that is reported as the last, the log holds its complete lines and
nothing else, and a second start brings up the same store, reports the same but that no line is
torn, and leaves the log. -/
theorem recover_agrees_with_inspect {d : Disk} {dataDir : String} {content : Option Bytes}
    (h : d.Holds dataDir content) :
    (∃ e after, (inspect d dataDir ∅).1 = .error e ∧ recover d dataDir = (.error e, after) ∧
      after.Holds dataDir content) ∨
    ∃ machine stats after whole, whole = Bytes.joinLines (Bytes.lines (content.getD [])).1 ∧
      inspect d dataDir ∅ = (.ok stats, machine.store) ∧
      recover d dataDir = (.ok (machine, stats), after) ∧
      machine.lastSequence = stats.finalSequence ∧ after.HoldsLog dataDir whole ∧
      ∃ second again, recover after dataDir = (.ok (second, { stats with torn := false }), again) ∧
        second.store = machine.store ∧ again.HoldsLog dataDir whole := by
  cases htaken : Log.taken (content.getD []) with
  | error e =>
    left
    cases content with
    | none => cases htaken
    | some content => exact recover_of_refused h htaken
  | ok p =>
    right
    obtain ⟨rs, c⟩ := p
    obtain ⟨machine, after, hrecover, hstore, hlast, hafter⟩ := recover_of_holds h htaken
    have hfinal : (statsOf rs !(Bytes.lines (content.getD [])).2.isEmpty).finalSequence = c.last :=
      Log.last_foldl_count (p := {}) htaken rfl
    -- the log that the start left is taken as the same records, with nothing behind them
    have htaken' : Log.taken (Bytes.joinLines (Bytes.lines (content.getD [])).1) = .ok (rs, c) := by
      rw [Log.taken_joinLines_lines]
      exact htaken
    obtain ⟨second, again, hagain, hsecond, -, hleft⟩ :=
      @recover_of_holds after dataDir (some (Bytes.joinLines (Bytes.lines (content.getD [])).1))
        rs c hafter htaken'
    rw [Option.getD_some, Bytes.lines_joinLines_lines] at hagain hleft
    -- the two statistics are of the same records, so they differ in `torn` only
    exact ⟨machine, _, after, _, rfl, inspect_of_recover h hrecover, hrecover,
      hlast.trans hfinal.symm, hafter, second, again, hagain, hsecond.trans hstore.symm, hleft⟩

/-- A log of one record and of a line that was cut short: an inspection reports both and leaves the
line, a start cuts it off and keeps the record, and a second start has nothing torn left to
report. -/
theorem inspect_and_recover_torn :
    let whole := Bytes.joinLines (Log.bodies 0 [.command (.set "k" "v")])
    let d := Disk.withLog (whole ++ Bytes.ofText "\x7b\"seq")
    let stats : ReplayStats := { records := 1, sets := 1, finalSequence := 1, torn := true }
    (inspect d "data" ∅).1 = .ok stats ∧
      ∃ machine after again, recover d "data" = (.ok (machine, stats), after) ∧
        machine.store.get? "k" = some ⟨"v", 1⟩ ∧ after.HoldsLog "data" whole ∧
        ∃ second, recover after "data" = (.ok (second, { stats with torn := false }), again) ∧
          second.store = machine.store := by
  let es : List Entry := [.command (.set "k" "v")]
  let part := Bytes.ofText "\x7b\"seq"
  let content := Bytes.joinLines (Log.bodies 0 es) ++ part
  have hself : ∀ e ∈ es, e.SelfDescribed := by
    simp [es, Entry.selfDescribed_command]
  have hlasting : ∀ e ∈ es, e.Lasting := by
    simp [es, Entry.lasting_command]
  have hpart : Bytes.newline ∉ part := by
    decide
  have hlines : Bytes.lines content = (Log.bodies 0 es, part) :=
    Bytes.lines_joinLines (Log.newline_notMem_bodies 0 es) hpart
  obtain ⟨offset, htaken⟩ := Log.taken_bodies hself hlasting hpart
  have h : (Disk.withLog content).Holds "data" (some content) := Disk.holdsLog_withLog content
  have hinspect := inspect_of_holds h ∅
  rw [Option.map_some, rebuild_eq_of_taken htaken, hlines] at hinspect
  intro whole d stats
  refine ⟨congrArg Prod.fst hinspect, ?_⟩
  rcases recover_agrees_with_inspect h with
    ⟨e, after, he, -⟩ | ⟨machine, stats, after, whole, hwhole, hshown, hrecover, -, hafter, second,
      again, hagain, hsecond, -⟩
  · rw [hinspect] at he
    cases he
  · rw [hinspect] at hshown
    obtain ⟨hstats, hstore⟩ := Prod.mk.inj hshown
    cases hstats
    rw [Option.getD_some, hlines] at hwhole
    rw [hwhole] at hafter
    refine ⟨machine, after, again, hrecover, ?_, hafter, second, hagain, hsecond⟩
    rw [← hstore]
    rfl

end Recovery

end DurableKV
