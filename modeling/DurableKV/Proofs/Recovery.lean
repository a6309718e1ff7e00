import DurableKV.Recovery
import DurableKV.Proofs.Disk
import DurableKV.Proofs.Log.Replay

/-!
# What recovery brings up

Recovery from a log depends on nothing but the records that its complete lines are taken as
(`Log.taken`). If one of them is refused, recovery fails (`restore_of_error`). Otherwise it
succeeds, and `Restored` says what it brings up: the store that the entries of the records make of
the empty one, and a writer that goes on after the last of them, over a file that holds the complete
lines and nothing else.
-/

namespace DurableKV

/-! ## Entries and the store -/

/-- What an entry makes of a store; a foreign entry leaves it as it is. -/
def Store.absorb (s : Store) : Entry → Store
  | .command c => (s.dispatch c).1
  | .foreign .. => s

/-- The store that entries make of the empty one. -/
def Store.ofEntries (es : List Entry) : Store := es.foldl Store.absorb ∅

/-- More entries are absorbed by the store of the first ones. -/
theorem Store.ofEntries_append (es fs : List Entry) :
    ofEntries (es ++ fs) = fs.foldl absorb (ofEntries es) :=
  List.foldl_append

/-- A medium that takes whatever is written to it. -/
structure Log.Medium.Healthy (m : Log.Medium) : Prop where
  /-- What is written stays. -/
  keeps : m.keeps
  /-- Writing does not fall short. -/
  writes : m.writeFault = none
  /-- The file can be made durable. -/
  syncs : m.syncFault = none

namespace Log

/-! ## Opening a log for appending -/

/-- The bytes before the cursor behind all lines are those of the lines. -/
theorem take_offset_takeAll {content : Bytes} {rs : List Record} {c : Cursor}
    (h : taken content = .ok (rs, c)) :
    content.take c.offset = Bytes.joinLines (Bytes.lines content).1 := by
  have hoffset : c.offset = (Bytes.joinLines (Bytes.lines content).1).length := by
    rw [Cursor.offset_takeAll h]
    exact Nat.zero_add _
  have hcontent := Bytes.joinLines_lines content
  calc content.take c.offset
      = (Bytes.joinLines (Bytes.lines content).1 ++ (Bytes.lines content).2).take c.offset := by
        rw [hcontent]
    _ = Bytes.joinLines (Bytes.lines content).1 := by rw [hoffset, List.take_left']; rfl

/-- A log that can be read is opened for appending behind its complete lines. -/
theorem attach_of_taken (path : String) {content : Bytes} {rs : List Record} {c : Cursor}
    (h : taken content = .ok (rs, c)) :
    ∃ m : Medium, Writer.attach path (.ofFile (.ofContent content)) =
        (.ok { path, next := c.last + 1, medium := m }, m) ∧
      m.Healthy ∧ m.content = Bytes.joinLines (Bytes.lines content).1 := by
  have hall := all_of_taken h
  have hcontent : (Medium.ofFile (.ofContent content)).content = content :=
    File.content_ofContent content
  by_cases htail : (Bytes.lines content).2 = []
  · refine ⟨.ofFile (.ofContent content), ?_, ⟨rfl, rfl, rfl⟩, ?_⟩
    · simp only [Writer.attach, hcontent, hall, Scan.ended, htail]
      rfl
    · rw [hcontent]
      have hlines := Bytes.joinLines_lines content
      rw [htail, List.append_nil] at hlines
      exact hlines.symm
  · have htorn : (Bytes.lines content).2.isEmpty = false := by
      rw [List.isEmpty_eq_false_iff]
      exact htail
    refine ⟨{ toFile := (File.ofContent content).withContent (content.take c.offset) },
      ?_, ⟨rfl, rfl, rfl⟩, ?_⟩
    · simp only [Writer.attach, hcontent, hall, Scan.ended, htorn]
      rfl
    · rw [← take_offset_takeAll h]
      exact File.content_withContent _ _

end Log

namespace Recovery

/-! ## Replay -/

/-- Rebuilding a store from records is absorbing their entries one after the other. -/
theorem foldl_over_visit (rs : List Log.Record) (s : Store) (stats : ReplayStats) :
    (rs.foldl (Log.Visitor.over visit) (s, stats)).1 =
      (rs.map Log.Record.entry).foldl Store.absorb s := by
  induction rs generalizing s stats with
  | nil => rfl
  | cons r rs ih =>
    rw [List.foldl_cons, List.map_cons, List.foldl_cons]
    obtain ⟨n, checksum, e⟩ := r
    cases e with
    | foreign op raw => exact ih s stats
    | command c => exact ih _ _

/-- A log whose lines can all be taken is rebuilt into the store of its entries, and the report has
its last number and says whether the tail is torn. -/
theorem rebuild_of_taken {content : Bytes} {rs : List Log.Record} {c : Log.Cursor}
    (h : Log.taken content = .ok (rs, c)) :
    ∃ stats, rebuild (some (.ofContent content)) ∅ =
        (.ok stats, Store.ofEntries (rs.map Log.Record.entry)) ∧
      stats.finalSequence = c.last ∧ stats.torn = !(Bytes.lines content).2.isEmpty := by
  have hreplay := Log.replay_of_taken visit RecoveryError.log (fun _ _ => rfl) h (∅, {})
  have hstore := foldl_over_visit rs ∅ {}
  have hlast := Log.last_foldl_count (p := {}) h rfl
  rw [rebuild, hreplay]
  exact ⟨_, Prod.ext rfl hstore, hlast, rfl⟩

/-- A log of which a line cannot be taken is not rebuilt. -/
theorem rebuild_of_error {content : Bytes} {e : Log.Failure} (h : Log.taken content = .error e)
    (s : Store) : ∃ e', (rebuild (some (.ofContent content)) s).1 = .error e' := by
  obtain ⟨e', he⟩ := Log.replay_of_taken_error visit RecoveryError.log h (s, {})
  refine ⟨e', ?_⟩
  rw [rebuild]
  generalize Log.replay visit RecoveryError.log (some (.ofContent content)) (s, {}) = result at he ⊢
  obtain ⟨result, store, stats⟩ := result
  cases he
  rfl

/-- A log that is missing is replayed as an empty one. -/
theorem rebuild_none (s : Store) : rebuild none s = rebuild (some (.ofContent [])) s := rfl

/-! ## Recovery of a log -/

/-- What recovery brings up from a log whose complete lines are taken as these records. -/
structure Restored (path : String) (content : Bytes) (rs : List Log.Record) (c : Log.Cursor)
    (machine : Machine) (stats : ReplayStats) : Prop where
  /-- The store is what the entries of the log make of the empty one. -/
  store : machine.store = Store.ofEntries (rs.map Log.Record.entry)
  /-- Appending goes on in the same file. -/
  path : machine.log.path = path
  /-- Appending goes on behind the complete lines of the file. -/
  holds : machine.log.medium.content = Bytes.joinLines (Bytes.lines content).1
  /-- Appending goes on with the number after the last record. -/
  next : machine.log.next = c.last + 1
  /-- Nothing stands in the way of appending. -/
  healthy : machine.log.medium.Healthy
  /-- The number of the last record is reported. -/
  finalSequence : stats.finalSequence = c.last
  /-- It is reported whether anything stood behind the last complete line. -/
  torn : stats.torn = !(Bytes.lines content).2.isEmpty

/-- **Recovery of a log that can be read** succeeds, and leaves its complete lines. -/
theorem restore_of_taken (path : String) {content : Option Bytes} {rs : List Log.Record}
    {c : Log.Cursor} (h : Log.taken (content.getD []) = .ok (rs, c)) :
    ∃ machine stats, restore path content =
        (.ok (machine, stats), some (Bytes.joinLines (Bytes.lines (content.getD [])).1)) ∧
      Restored path (content.getD []) rs c machine stats := by
  obtain ⟨stats, hrebuild, hfinal, htorn⟩ := rebuild_of_taken h
  obtain ⟨m, hattach, hhealthy, hcontent⟩ := Log.attach_of_taken path h
  have hscan : rebuild (content.map Log.Scan.ofContent) ∅ =
      rebuild (some (.ofContent (content.getD []))) ∅ := by
    cases content with
    | none => exact rebuild_none ∅
    | some content => rfl
  let machine : Machine :=
    { log := { path, next := c.last + 1, medium := m }
      store := Store.ofEntries (rs.map Log.Record.entry)
      tally := Tally.countReplayed {} stats.records }
  refine ⟨machine, stats, ?_, ?_⟩
  · rw [restore, hscan, hrebuild]
    dsimp only
    rw [hattach]
    dsimp only
    rw [hcontent]
  · exact ⟨rfl, rfl, hcontent, rfl, hhealthy, hfinal, htorn⟩

/-- A log whose lines can all be taken is restored, and its file is cut to these lines. -/
theorem restore_some_of_taken (path : String) {content : Bytes} {rs : List Log.Record}
    {c : Log.Cursor} (h : Log.taken content = .ok (rs, c)) :
    ∃ machine stats, restore path (some content) =
        (.ok (machine, stats), some (Bytes.joinLines (Bytes.lines content).1)) ∧
      Restored path content rs c machine stats :=
  @restore_of_taken path (some content) rs c h

/-- Recovery of a log that cannot be read fails and leaves the log as it is. -/
theorem restore_of_error (path : String) {content : Bytes} {e : Log.Failure}
    (h : Log.taken content = .error e) :
    ∃ e', restore path (some content) = (.error e', some content) := by
  obtain ⟨e', he⟩ := rebuild_of_error h ∅
  refine ⟨e', ?_⟩
  rw [restore, Option.map_some]
  split
  · rename_i heq
    rw [heq] at he
    cases he
    rfl
  · rename_i heq
    rw [heq] at he
    cases he

/-- What a recovery that succeeded has brought up. -/
theorem restored_of_restore {path : String} {content file : Option Bytes} {machine : Machine}
    {stats : ReplayStats} (h : restore path content = (.ok (machine, stats), file)) :
    ∃ rs c, Log.taken (content.getD []) = .ok (rs, c) ∧
      Restored path (content.getD []) rs c machine stats := by
  cases htaken : Log.taken (content.getD []) with
  | error e =>
    cases content with
    | none => cases htaken
    | some content =>
      obtain ⟨e', he⟩ := restore_of_error path htaken
      rw [Option.getD_some, h] at he
      cases he
  | ok p =>
    obtain ⟨rs, c⟩ := p
    obtain ⟨machine', stats', hrestore, hrestored⟩ := restore_of_taken path htaken
    rw [h] at hrestore
    cases hrestore
    exact ⟨rs, c, rfl, hrestored⟩

end Recovery

/-! ## Recovery on a disk -/

/-- A disk on which a data directory can be made and holds no log. -/
def Disk.HoldsNoLog (d : Disk) (dataDir : String) : Prop :=
  ∃ d', d.createFolders dataDir = (.ok (), d') ∧ d'.find (Log.pathOf dataDir) = .error .notFound

/-- A disk on which the log of a data directory holds these bytes. -/
def Disk.HoldsLog (d : Disk) (dataDir : String) (content : Bytes) : Prop :=
  d.find (Log.pathOf dataDir) = .ok (.file (.ofContent content))

/-- There is no log on an empty disk. -/
theorem Disk.holdsNoLog_empty : ({} : Disk).HoldsNoLog "data" := ⟨_, rfl, rfl⟩

/-- A disk with nothing on it but a log in the data directory `data`. -/
def Disk.withLog (content : Bytes) : Disk :=
  ((({} : Disk).put ["data"] .folder).put ["data", "wal"] .folder).put ["data", "wal", "wal.log"]
    (.file (.ofContent content))

/-- The disk made of a log holds the log. -/
theorem Disk.holdsLog_withLog (content : Bytes) : (withLog content).HoldsLog "data" content := rfl

namespace Recovery

/-- Recovery from a disk with a log writes back the file that restoring leaves. -/
theorem recover_of_holdsLog {d : Disk} {dataDir : String} {content file : Bytes}
    {result : Except RecoveryError (Machine × ReplayStats)} (h : d.HoldsLog dataDir content)
    (hrestore : restore (Log.pathOf dataDir) (some content) = (result, some file)) :
    recover d dataDir = (result, d.write (Log.pathOf dataDir) file) := by
  have hfolders := Disk.createFolders_of_find_log h
  unfold Disk.HoldsLog at h
  simp only [recover, hfolders, h, File.content_ofContent, hrestore]

/-- Recovery from a log that can be read leaves its complete lines on the disk. -/
theorem recover_of_taken {d : Disk} {dataDir : String} {content : Bytes} {rs : List Log.Record}
    {c : Log.Cursor} (h : d.HoldsLog dataDir content) (htaken : Log.taken content = .ok (rs, c)) :
    ∃ machine stats after, recover d dataDir = (.ok (machine, stats), after) ∧
      Restored (Log.pathOf dataDir) content rs c machine stats ∧
      after.HoldsLog dataDir (Bytes.joinLines (Bytes.lines content).1) := by
  obtain ⟨machine, stats, hrestore, hrestored⟩ :=
    restore_some_of_taken (Log.pathOf dataDir) htaken
  exact ⟨machine, stats, _, recover_of_holdsLog h hrestore, hrestored, Disk.find_save h rfl _⟩

/-- Recovery of a log that succeeded has read it. -/
theorem restored_of_holdsLog {d d' : Disk} {dataDir : String} {content : Bytes}
    {machine : Machine} {stats : ReplayStats} (h : d.HoldsLog dataDir content)
    (hrecover : recover d dataDir = (.ok (machine, stats), d')) :
    ∃ rs c, Log.taken content = .ok (rs, c) ∧
      Restored (Log.pathOf dataDir) content rs c machine stats ∧
      d'.HoldsLog dataDir (Bytes.joinLines (Bytes.lines content).1) := by
  cases htaken : Log.taken content with
  | error e =>
    obtain ⟨e', he⟩ := restore_of_error (Log.pathOf dataDir) htaken
    rw [recover_of_holdsLog h he] at hrecover
    cases hrecover
  | ok p =>
    obtain ⟨rs, c⟩ := p
    obtain ⟨machine', stats', after, hrecover', hrestored, hafter⟩ := recover_of_taken h htaken
    rw [hrecover] at hrecover'
    cases hrecover'
    exact ⟨rs, c, rfl, hrestored, hafter⟩

/-- Recovery on a disk that holds no log brings up an empty store and an empty log. -/
theorem recover_of_holdsNoLog {d : Disk} {dataDir : String} (h : d.HoldsNoLog dataDir) :
    ∃ machine stats, (recover d dataDir).1 = .ok (machine, stats) ∧
      Restored (Log.pathOf dataDir) [] [] {} machine stats := by
  obtain ⟨d', hfolders, hmissing⟩ := h
  obtain ⟨machine, stats, hrestore, hrestored⟩ :=
    @restore_of_taken (Log.pathOf dataDir) none [] {} rfl
  refine ⟨machine, stats, ?_, hrestored⟩
  simp only [recover, hfolders, hmissing, hrestore]

/-- A recovery that succeeded has restored some log, or none. -/
theorem restore_of_recover {d d' : Disk} {dataDir : String} {machine : Machine}
    {stats : ReplayStats} (h : recover d dataDir = (.ok (machine, stats), d')) :
    ∃ content file, restore (Log.pathOf dataDir) content = (.ok (machine, stats), file) := by
  unfold recover at h
  split at h
  · cases h
  · dsimp only at h
    split at h
    · split at h <;> cases h <;> exact ⟨_, _, by assumption⟩
    · split at h <;> cases h <;> exact ⟨_, _, by assumption⟩
    · cases h
    · cases h

/-- What a recovery that succeeded has brought up, whatever stood on the disk. -/
theorem restored_of_recover {d d' : Disk} {dataDir : String} {machine : Machine}
    {stats : ReplayStats} (h : recover d dataDir = (.ok (machine, stats), d')) :
    ∃ content rs c, Log.taken content = .ok (rs, c) ∧
      Restored (Log.pathOf dataDir) content rs c machine stats := by
  obtain ⟨content, file, hrestore⟩ := restore_of_recover h
  obtain ⟨rs, c, htaken, hrestored⟩ := restored_of_restore hrestore
  exact ⟨_, rs, c, htaken, hrestored⟩

end Recovery

end DurableKV
