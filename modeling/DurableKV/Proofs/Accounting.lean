import DurableKV.Proofs.Halting
import DurableKV.Proofs.Inspection
import DurableKV.Proofs.Restart
import DurableKV.Proofs.Store

/-!
# Two accounts of one log

What entries came to is counted twice. A running node counts every record that it appends and the
outcome of the entry in it; a node that starts counts the records that it replays, and their
outcomes again. The two are written separately, and replay takes the number of foreign entries from
the log and not from the store. `counts_agree` says that they are accounts of the same log: each
adds up, and after a restart the second is what it was plus the first.

What both count is `Store.outcomes`, and `Outcome.countOf` is the number of each kind in it.
`ReplayStats.Describes` and `Replica.Counted` tie the two tallies to it. A failure breaks neither:
what is counted is counted only once the record is durable.
-/

namespace DurableKV

/-! ## Outcomes by their kinds -/

/-- What is counted separately. -/
inductive Outcome.Kind where
  /-- A key was set. -/
  | set
  /-- A key was deleted. -/
  | deleted
  /-- A transaction committed. -/
  | committed
  /-- A transaction was refused. -/
  | conflict
  /-- A foreign entry was passed over. -/
  | ignored
  deriving DecidableEq, Repr

namespace Outcome

/-- What an outcome is counted as. -/
def kind : Outcome → Kind
  | .set .. => .set
  | .deleted _ => .deleted
  | .committed _ => .committed
  | .conflict _ => .conflict
  | .ignored _ => .ignored

/-- How many outcomes are of a kind, in 64 bits. -/
def countOf (k : Kind) (os : List Outcome) : UInt64 := UInt64.ofNat (os.countP (·.kind = k))

/-- The outcomes of a kind are counted list by list. -/
theorem countOf_append (k : Kind) (os ps : List Outcome) :
    countOf k (os ++ ps) = countOf k os + countOf k ps := by
  unfold countOf
  rw [List.countP_append, UInt64.ofNat_add]

/-- One outcome counts once, for its kind. -/
theorem countOf_singleton (k : Kind) (o : Outcome) :
    countOf k [o] = if o.kind = k then 1 else 0 := by
  by_cases h : o.kind = k <;> simp [countOf, h]

/-- One outcome more in front counts for its own kind. -/
theorem countOf_cons (k : Kind) (o : Outcome) (os : List Outcome) :
    countOf k (o :: os) = (if o.kind = k then 1 else 0) + countOf k os := by
  rw [← countOf_singleton]
  exact countOf_append k [o] os

/-- Every outcome is of one kind. -/
theorem sum_countOf (os : List Outcome) :
    countOf .set os + countOf .deleted os + countOf .committed os + countOf .conflict os +
      countOf .ignored os = UInt64.ofNat os.length := by
  unfold countOf
  simp only [← UInt64.ofNat_add]
  congr 1
  induction os with
  | nil => rfl
  | cons o os ih =>
    simp only [List.countP_cons, List.length_cons]
    cases hkind : o.kind <;> simp <;> omega

end Outcome

/-- What entries come to, one after the other. -/
def Store.outcomes (s : Store) : List Entry → List Outcome
  | [] => []
  | e :: es => s.outcomeOf e :: (s.absorb e).outcomes es

/-- Entries come to what they come to one after the other, on the store that is left. -/
theorem Store.outcomes_append (es fs : List Entry) (s : Store) :
    s.outcomes (es ++ fs) = s.outcomes es ++ (es.foldl absorb s).outcomes fs := by
  induction es generalizing s with
  | nil => rfl
  | cons e es ih => simp only [List.cons_append, outcomes, ih, List.foldl_cons]

/-- Every entry comes to one outcome. -/
theorem Store.length_outcomes (es : List Entry) (s : Store) :
    (s.outcomes es).length = es.length := by
  induction es generalizing s with
  | nil => rfl
  | cons e es ih => simp [outcomes, ih]

/-- No command comes to being passed over. -/
theorem Store.kind_dispatch_ne_ignored (s : Store) (c : Command) :
    (s.dispatch c).2.kind ≠ .ignored := by
  cases c with
  | set key value => simp [dispatch, Outcome.kind]
  | delete key => simp [dispatch, Outcome.kind]
  | commit reads writes =>
    rw [dispatch_commit]
    cases s.conflict? reads <;> simp [Outcome.kind]

/-! ## What replay counts -/

namespace ReplayStats

/-- What was counted for a kind of outcomes. -/
def counter (s : ReplayStats) : Outcome.Kind → UInt64
  | .set => s.sets
  | .deleted => s.deletes
  | .committed => s.commits
  | .conflict => s.conflicts
  | .ignored => s.ignored

/-- An outcome counts for its own kind in the statistics of a replay. -/
theorem counter_count (s : ReplayStats) (o : Outcome) (k : Outcome.Kind) :
    (s.count o).counter k = s.counter k + if o.kind = k then 1 else 0 := by
  cases o <;> cases k <;> simp [count, counter, Outcome.kind]

/-- Statistics of a log with these entries, replayed into a store. -/
structure Describes (stats : ReplayStats) (before : Store) (es : List Entry) : Prop where
  /-- Every record is counted. -/
  records : stats.records = UInt64.ofNat es.length
  /-- The last sequence number is how many records were counted. -/
  finalSequence : stats.finalSequence = UInt64.ofNat es.length
  /-- Every outcome is counted for its kind. -/
  counter : ∀ k, stats.counter k = Outcome.countOf k (before.outcomes es)

/-- Statistics add up. -/
theorem Describes.sum {stats : ReplayStats} {before : Store} {es : List Entry}
    (h : stats.Describes before es) :
    stats.records = stats.sets + stats.deletes + stats.commits + stats.conflicts + stats.ignored ∧
      stats.records = stats.finalSequence := by
  have hsum := Outcome.sum_countOf (before.outcomes es)
  rw [Store.length_outcomes, ← h.records] at hsum
  simp only [← h.counter] at hsum
  exact ⟨hsum.symm, h.records.trans h.finalSequence.symm⟩

end ReplayStats

namespace Recovery

/-- A visitor counts every outcome but those of foreign entries, which it does not see. -/
theorem counter_foldl_over {k : Outcome.Kind} (hk : k ≠ .ignored) (rs : List Log.Record)
    (s : Store) (stats : ReplayStats) :
    (rs.foldl (Log.Visitor.over visit) (s, stats)).2.counter k =
      stats.counter k + Outcome.countOf k (s.outcomes (rs.map Log.Record.entry)) := by
  induction rs generalizing s stats with
  | nil => exact (UInt64.add_zero _).symm
  | cons r rs ih =>
    obtain ⟨n, checksum, e⟩ := r
    rw [List.foldl_cons, List.map_cons, Store.outcomes, Outcome.countOf_cons, ← UInt64.add_assoc]
    cases e with
    | foreign op raw =>
      have hpassed : (s.outcomeOf (.foreign op raw)).kind ≠ k := hk.symm
      rw [if_neg hpassed, UInt64.add_zero]
      exact ih s stats
    | command c =>
      rw [show s.outcomeOf (.command c) = (s.dispatch c).2 from rfl, ← ReplayStats.counter_count]
      exact ih _ _

/-- The outcomes of foreign entries are as many as these entries. -/
theorem countOf_ignored (rs : List Log.Record) (s : Store) :
    Outcome.countOf .ignored (s.outcomes (rs.map Log.Record.entry)) =
      UInt64.ofNat (rs.countP fun r => r.entry.command?.isNone) := by
  induction rs generalizing s with
  | nil => rfl
  | cons r rs ih =>
    obtain ⟨n, checksum, e⟩ := r
    rw [List.map_cons, Store.outcomes, Outcome.countOf_cons, ih, List.countP_cons]
    cases e with
    | foreign op raw => exact (UInt64.ofNat_add _ 1).symm ▸ UInt64.add_comm _ _
    | command c =>
      have hkind : (s.outcomeOf (.command c)).kind ≠ .ignored := s.kind_dispatch_ne_ignored c
      rw [if_neg hkind, UInt64.zero_add]
      rfl

section

variable {content : Option Bytes} {rs : List Log.Record} {c : Log.Cursor} {before after : Store}
  {stats : ReplayStats}

/-- A replay that succeeded has read the log. -/
theorem taken_of_rebuild
    (h : rebuild (content.map Log.Scan.ofContent) before = (.ok stats, after)) :
    ∃ rs c, Log.taken (content.getD []) = .ok (rs, c) := by
  rw [rebuild_getD] at h
  cases htaken : Log.taken (content.getD []) with
  | error e =>
    obtain ⟨e', he⟩ := rebuild_of_error htaken before
    rw [h] at he
    cases he
  | ok p => exact ⟨p.1, p.2, rfl⟩

/-- **Replay reports the log that it has read.** -/
theorem describes_of_rebuild
    (h : rebuild (content.map Log.Scan.ofContent) before = (.ok stats, after))
    (htaken : Log.taken (content.getD []) = .ok (rs, c)) :
    stats.Describes before (rs.map Log.Record.entry) := by
  have hreplay := Log.replay_of_taken visit RecoveryError.log (fun _ _ => rfl) htaken (before, {})
  rw [rebuild_getD, rebuild, hreplay] at h
  obtain ⟨hstats, -⟩ := Prod.mk.inj h
  cases hstats
  have hlast := Log.last_foldl_count (p := {}) htaken rfl
  have hlength := Log.Cursor.length_takeAll htaken
  rw [Log.Cursor.last_takeAll htaken, ← hlength, UInt64.zero_add] at hlast
  refine ⟨?_, ?_, ?_⟩
  · rw [List.length_map]
    exact (Log.records_foldl_count rs {}).trans (UInt64.zero_add _)
  · rw [List.length_map]
    exact hlast
  · intro k
    by_cases hk : k = .ignored
    · subst hk
      rw [countOf_ignored]
      exact (Log.skipped_foldl_count rs {}).trans (UInt64.zero_add _)
    · have hseen := counter_foldl_over hk rs before {}
      cases k <;> simp_all [ReplayStats.counter, ReplayStats.endAt]

end

/-- An inspection that succeeded has replayed a log, or found none. -/
theorem rebuild_of_inspect {d : Disk} {dataDir : String} {before after : Store}
    {stats : ReplayStats} (h : inspect d dataDir before = (.ok stats, after)) :
    ∃ content : Option Bytes,
      rebuild (content.map Log.Scan.ofContent) before = (.ok stats, after) := by
  unfold inspect at h
  split at h
  · rename_i scan hfind
    unfold Log.Scan.find Log.Scan.open at hfind
    split at hfind
    · rename_i hopen
      split at hopen
      · rename_i file _
        cases hopen
        cases hfind
        exact ⟨some file.content, h⟩
      · -- a directory opens, but nothing can be read from it
        cases hopen
        cases hfind
        cases h
      · cases hopen
    · cases hfind
      exact ⟨none, h⟩
    · cases hfind
  · cases h

end Recovery

/-! ## What a running node counts -/

namespace Tally

/-- What was counted for a kind of outcomes. -/
def counter (t : Tally) : Outcome.Kind → UInt64
  | .set => t.sets
  | .deleted => t.deletes
  | .committed => t.commits
  | .conflict => t.conflicts
  | .ignored => t.ignored

/-- An outcome counts for its own kind in the tally. -/
theorem counter_countOutcome (t : Tally) (o : Outcome) (k : Outcome.Kind) :
    (t.countOutcome o).counter k = t.counter k + if o.kind = k then 1 else 0 := by
  cases o <;> cases k <;> simp [countOutcome, counter, Outcome.kind]

section

variable (t : Tally) (o : Outcome) (bytes : UInt64)

/-- Counting an outcome adds no record. -/
@[simp] theorem walRecords_countOutcome : (t.countOutcome o).walRecords = t.walRecords := by
  cases o <;> rfl

/-- Counting an outcome adds no bytes. -/
@[simp] theorem walBytes_countOutcome : (t.countOutcome o).walBytes = t.walBytes := by
  cases o <;> rfl

/-- Counting an outcome adds nothing to what was replayed. -/
@[simp] theorem replayed_countOutcome : (t.countOutcome o).replayed = t.replayed := by
  cases o <;> rfl

/-- Counting an append adds one record. -/
@[simp] theorem walRecords_countAppend : (t.countAppend bytes).walRecords = t.walRecords + 1 := rfl

/-- Counting an append adds its bytes. -/
@[simp] theorem walBytes_countAppend : (t.countAppend bytes).walBytes = t.walBytes + bytes := rfl

/-- Counting an append adds nothing to what was replayed. -/
@[simp] theorem replayed_countAppend : (t.countAppend bytes).replayed = t.replayed := rfl

/-- Counting an append adds no outcome of any kind. -/
@[simp] theorem counter_countAppend (k : Outcome.Kind) :
    (t.countAppend bytes).counter k = t.counter k := by
  cases k <;> rfl

end

end Tally

/-- An accepted entry is counted with its line and its outcome. -/
theorem Machine.tally_accept (m : Machine) (e : Entry) :
    (m.accept e).tally = (m.tally.countAppend
      (UInt64.ofNat (Log.Record.make m.log.next e).line.length)).countOutcome
        (m.store.outcomeOf e) := by
  have hwritten : (m.log.appended e).written - m.log.written =
      UInt64.ofNat (Log.Record.make m.log.next e).line.length := by
    show m.log.written + _ - m.log.written = _
    rw [UInt64.add_comm, UInt64.add_sub_cancel]
  cases e <;> simp only [accept, hwritten] <;> rfl

namespace Replica

/-- The records that an action acknowledges: that of the entry, at the position that is answered. -/
def acknowledgedBy (r : Replica) : Action → List Log.Record
  | .submit input timeout held =>
    match (r.submit input timeout held).1, Entry.decode input with
    | .ok acc, .ok e => [.make acc.index e]
    | _, _ => []
  | _ => []

/-- The records that actions acknowledge, one after the other. -/
def acknowledged (r : Replica) : List Action → List Log.Record
  | [] => []
  | a :: actions => r.acknowledgedBy a ++ (r.act a).acknowledged actions

/-- The acknowledged records hold the accepted entries. -/
theorem map_entry_acknowledged (actions : List Action) (r : Replica) :
    (r.acknowledged actions).map Log.Record.entry = r.accepted actions := by
  induction actions generalizing r with
  | nil => rfl
  | cons a actions ih =>
    rw [acknowledged, accepted, List.map_append, ih]
    congr 1
    cases a with
    | submit input timeout held =>
      simp only [acknowledgedBy, acceptedBy]
      cases (r.submit input timeout held).1 <;> cases Entry.decode input <;> rfl
    | stepDown leader => rfl
    | becomeLeader => rfl
    | addVoter nodeId address => rfl
    | fault write sync => rfl

/-- How many bytes some records take in a log. -/
def lengthOf (rs : List Log.Record) : Nat := (rs.flatMap Log.Record.line).length

/-- One record more makes the log longer by its line. -/
theorem lengthOf_concat (rs : List Log.Record) (r : Log.Record) :
    lengthOf (rs ++ [r]) = lengthOf rs + r.line.length := by
  simp [lengthOf]

/-- A replica that has acknowledged some records since it was brought up after the replay of so many
others, over some store. -/
structure Counted (replayed : UInt64) (before : Store) (rs : List Log.Record) (r : Replica) :
    Prop where
  /-- The next record has the number after the position of the last entry. -/
  next : r.machine.log.next = r.commitIndex + 1
  /-- The position of the last entry counts what was replayed and what was acknowledged. -/
  commitIndex : r.commitIndex = replayed + UInt64.ofNat rs.length
  /-- The store has taken the entries. -/
  store : r.store = (rs.map Log.Record.entry).foldl Store.absorb before
  /-- What was replayed at the boot is kept. -/
  replayed : r.machine.tally.replayed = replayed
  /-- Every record that was appended is counted. -/
  walRecords : r.machine.tally.walRecords = UInt64.ofNat rs.length
  /-- The bytes of every line that was appended are counted. -/
  walBytes : r.machine.tally.walBytes = UInt64.ofNat (lengthOf rs)
  /-- Every outcome since the boot is counted for its kind. -/
  counter : ∀ k, r.machine.tally.counter k =
    Outcome.countOf k (before.outcomes (rs.map Log.Record.entry))

section

variable {replayed : UInt64} {before : Store} {rs : List Log.Record} {r : Replica}

/-- Nothing is counted where the machine keeps its counters, its store and its place in the log. -/
theorem Counted.kept (h : r.Counted replayed before rs) {r' : Replica}
    (hindex : r'.commitIndex = r.commitIndex) (hstore : r'.store = r.store)
    (hnext : r'.machine.log.next = r.machine.log.next)
    (htally : r'.machine.tally = r.machine.tally) : r'.Counted replayed before rs := by
  refine ⟨?_, ?_, ?_, ?_, ?_, ?_, ?_⟩
  · rw [hnext, hindex, h.next]
  · rw [hindex, h.commitIndex]
  · rw [hstore, h.store]
  · rw [htally, h.replayed]
  · rw [htally, h.walRecords]
  · rw [htally, h.walBytes]
  · rw [htally]
    exact h.counter

/-- An accepted entry is one record more in every account. -/
theorem Counted.accept (h : r.Counted replayed before rs) (e : Entry) :
    (r.accept e).Counted replayed before (rs ++ [.make (r.commitIndex + 1) e]) := by
  have htally : (r.accept e).machine.tally = _ := r.machine.tally_accept e
  have hlog : (r.accept e).machine.log = r.machine.log.appended e := r.machine.accept_log e
  have hone : UInt64.ofNat (rs ++ [Log.Record.make (r.commitIndex + 1) e]).length =
      UInt64.ofNat rs.length + 1 := by
    rw [List.length_append, UInt64.ofNat_add]
    rfl
  have hentries : (rs ++ [Log.Record.make (r.commitIndex + 1) e]).map Log.Record.entry =
      rs.map Log.Record.entry ++ [e] := by
    rw [List.map_append]
    rfl
  refine ⟨?_, ?_, ?_, ?_, ?_, ?_, ?_⟩
  · rw [hlog]
    show r.machine.log.next + 1 = r.commitIndex + 1 + 1
    rw [h.next]
  · show r.commitIndex + 1 = _
    rw [hone, ← UInt64.add_assoc, ← h.commitIndex]
  · rw [accept_store, hentries, List.foldl_append, ← h.store]
    rfl
  · simpa [htally] using h.replayed
  · simpa [htally, hone] using h.walRecords
  · rw [htally, lengthOf_concat, UInt64.ofNat_add, ← h.walBytes, ← h.next]
    simp
  · intro k
    have hstore : r.machine.store = _ := h.store
    rw [htally, Tally.counter_countOutcome, Tally.counter_countAppend, hentries,
      Store.outcomes_append, Outcome.countOf_append, ← h.counter, ← hstore]
    exact congrArg (_ + ·) (Outcome.countOf_singleton k _).symm

/-- One action acknowledges what it counts, whatever comes of it. -/
theorem Counted.act (h : r.Counted replayed before rs) (a : Action) :
    (r.act a).Counted replayed before (rs ++ r.acknowledgedBy a) := by
  -- all that is not accepted leaves every account as it was
  have hkept : ∀ {r' : Replica}, r'.commitIndex = r.commitIndex → r'.store = r.store →
      r'.machine.log.next = r.machine.log.next → r'.machine.tally = r.machine.tally →
      r'.Counted replayed before (rs ++ []) := by
    intro r' hindex hstore hnext htally
    rw [List.append_nil]
    exact h.kept hindex hstore hnext htally
  cases a with
  | submit input timeout held =>
    have hsubmission := r.submission input timeout held
    simp only [Replica.act, acknowledgedBy]
    generalize r.submit input timeout held = result at hsubmission ⊢
    cases hsubmission with
    | accepted hleads hfree hrunning hdecode hwrites hsyncs =>
      rw [hdecode]
      exact h.accept _
    | notLeader hleads => exact hkept rfl rfl rfl rfl
    | timeout hleads hheld => exact hkept rfl rfl rfl rfl
    | halted hleads hfree hhalted => exact hkept rfl rfl rfl rfl
    | undecodable hleads hfree hrunning hdecode => exact hkept rfl rfl rfl rfl
    | unlogged hleads hfree hrunning hdecode hpart => exact hkept rfl rfl rfl rfl
  | stepDown leader => exact hkept rfl rfl rfl rfl
  | becomeLeader => exact hkept rfl rfl rfl rfl
  | addVoter nodeId address =>
    obtain ⟨voters, hact⟩ := r.addVoter_eq nodeId address
    rw [show r.act (.addVoter nodeId address) = { r with voters } from hact]
    exact hkept rfl rfl rfl rfl
  | fault write sync => exact hkept rfl rfl rfl rfl

/-- **A run counts what it acknowledges.** -/
theorem Counted.run (actions : List Action) (h : r.Counted replayed before rs) :
    (r.run actions).Counted replayed before (rs ++ r.acknowledged actions) := by
  induction actions generalizing r rs with
  | nil =>
    rw [acknowledged, List.append_nil]
    exact h
  | cons a actions ih =>
    rw [acknowledged, ← List.append_assoc]
    exact ih (h.act a)

/-- Counters add up. -/
theorem Counted.sum (h : r.Counted replayed before rs) :
    r.machine.tally.walRecords = r.machine.tally.sets + r.machine.tally.deletes +
      r.machine.tally.commits + r.machine.tally.conflicts + r.machine.tally.ignored := by
  have hsum := Outcome.sum_countOf (before.outcomes (rs.map Log.Record.entry))
  rw [Store.length_outcomes, List.length_map, ← h.walRecords] at hsum
  simp only [← h.counter] at hsum
  exact hsum.symm

/-- The position of the last entry tells apart what was replayed and what was appended. -/
theorem Counted.walRecords_eq (h : r.Counted replayed before rs) :
    r.machine.tally.walRecords = r.commitIndex - r.machine.tally.replayed := by
  rw [h.walRecords, h.replayed, h.commitIndex, UInt64.add_comm, UInt64.add_sub_cancel]

/-- A running replica still runs if nothing has failed for good. -/
theorem running_of_fatalsIn {actions : List Action} (hrunning : r.halted = none)
    (hnone : r.fatalsIn actions = []) : (r.run actions).halted = none := by
  induction actions generalizing r with
  | nil => exact hrunning
  | cons a actions ih =>
    rw [fatalsIn, List.append_eq_nil_iff] at hnone
    refine ih ?_ hnone.2
    cases a with
    | submit input timeout held =>
      have hsubmission := r.submission input timeout held
      have hfatal := hnone.1
      rw [fatalBy] at hfatal
      rw [Replica.act]
      generalize r.submit input timeout held = result at hsubmission hfatal ⊢
      cases hsubmission with
      | notLeader hleads => exact hrunning
      | timeout hleads hheld => exact hrunning
      | halted hleads hfree hhalted => exact hrunning
      | accepted hleads hfree hrunning hdecode hwrites hsyncs => exact hrunning
      | undecodable hleads hfree hrunning hdecode => simp at hfatal
      | unlogged hleads hfree hrunning hdecode hpart => simp at hfatal
    | stepDown leader => exact hrunning
    | becomeLeader => exact hrunning
    | addVoter nodeId address =>
      obtain ⟨voters, hact⟩ := r.addVoter_eq nodeId address
      rw [show r.act (.addVoter nodeId address) = { r with voters } from hact]
      exact hrunning
    | fault write sync => exact hrunning

end

end Replica

namespace Node

/-! ## From one boot to the next -/

/-- A recovery that succeeded counts the records that it replayed. -/
theorem tally_of_restore {path : String} {content : Option Bytes} {machine : Machine}
    {stats : ReplayStats} (h : (Recovery.restore path content).1 = .ok (machine, stats)) :
    machine.tally = Tally.countReplayed {} stats.records := by
  unfold Recovery.restore at h
  split at h
  · cases h
  · split at h
    · cases h
    · cases h
      rfl

/-- A booted node has counted what its log holds, and nothing since. -/
theorem counted_boot {d d' : Disk} {config : Config} {leads : Bool} {ids : Nat → String}
    {node : Node} (h : boot d config leads ids = (.ok node, d')) :
    ∃ content rs c, Log.taken content = .ok (rs, c) ∧
      node.stats.Describes ∅ (rs.map Log.Record.entry) ∧ node.replica.halted = none ∧
      node.replica.Logged (Bytes.lines content).1 c.last
        (Store.ofEntries (rs.map Log.Record.entry)) [] ∧
      node.replica.Counted node.stats.records (Store.ofEntries (rs.map Log.Record.entry)) [] := by
  obtain ⟨machine, stats, hrecover, rfl⟩ := recovered_of_boot h
  obtain ⟨content, file, hrestore⟩ := Recovery.restore_of_recover hrecover
  obtain ⟨rs, c, htaken, hrestored⟩ := Recovery.restored_of_restore hrestore
  have hrestore' := congrArg Prod.fst hrestore
  have hdescribes := Recovery.describes_of_rebuild (Recovery.rebuild_of_restore hrestore') htaken
  have htally := tally_of_restore hrestore'
  have hlogged := logged_ofMachine hrestored config leads ids
  have hindex := hlogged.commitIndex
  have hmachine : (ofMachine config leads ids machine stats).replica.machine = machine := by
    cases leads <;> rfl
  refine ⟨_, rs, c, htaken, hdescribes, ?_, hlogged, ?_, ?_, hlogged.store, ?_, ?_, ?_, ?_⟩
  · cases leads <;> rfl
  · rw [hlogged.next, hindex]
  · rw [hindex, Log.lastOf_nil, ← hrestored.finalSequence, ← hdescribes.sum.2]
    exact (UInt64.add_zero _).symm
  · rw [hmachine, htally]
    exact UInt64.zero_add _
  · rw [hmachine, htally]
    rfl
  · rw [hmachine, htally]
    rfl
  · intro k
    rw [hmachine, htally]
    cases k <;> rfl

/-- What a boot reports of a log that can be read. -/
theorem boot_of_holdsLog {d : Disk} {config : Config} {content : Bytes} {rs : List Log.Record}
    {c : Log.Cursor} (hdisk : d.HoldsLog config.dataDir content)
    (htaken : Log.taken content = .ok (rs, c)) (leads : Bool) (ids : Nat → String) :
    ∃ node d', boot d config leads ids = (.ok node, d') ∧
      node.stats.Describes ∅ (rs.map Log.Record.entry) ∧
      node.stats.torn = !(Bytes.lines content).2.isEmpty := by
  obtain ⟨machine, stats, after, hrecover, hrestored, -⟩ := Recovery.recover_of_taken hdisk htaken
  have hholds : d.Holds config.dataDir (some content) := hdisk
  have hinspect := Recovery.inspect_of_recover hholds hrecover
  rw [Recovery.inspect_of_holds hholds] at hinspect
  refine ⟨ofMachine config leads ids machine stats, after, ?_,
    Recovery.describes_of_rebuild hinspect htaken, hrestored.torn⟩
  unfold boot
  rw [hrecover]

/-- Statistics of some entries and of more behind them, which a run has counted meanwhile. -/
theorem stats_eq_add {stats later : ReplayStats} {es : List Entry} {r : Replica}
    {rs : List Log.Record} (h : stats.Describes ∅ es)
    (hlater : later.Describes ∅ (es ++ rs.map Log.Record.entry))
    (hr : r.Counted stats.records (Store.ofEntries es) rs) (htorn : later.torn = false) :
    later =
      { records := stats.records + r.machine.tally.walRecords
        sets := stats.sets + r.machine.tally.sets
        deletes := stats.deletes + r.machine.tally.deletes
        commits := stats.commits + r.machine.tally.commits
        conflicts := stats.conflicts + r.machine.tally.conflicts
        ignored := stats.ignored + r.machine.tally.ignored
        finalSequence := stats.finalSequence + r.machine.tally.walRecords
        torn := false } := by
  have hlength : UInt64.ofNat (es ++ rs.map Log.Record.entry).length =
      UInt64.ofNat es.length + r.machine.tally.walRecords := by
    rw [List.length_append, List.length_map, UInt64.ofNat_add, hr.walRecords]
  have hcounter : ∀ k, later.counter k = stats.counter k + r.machine.tally.counter k := by
    intro k
    rw [hlater.counter, Store.outcomes_append, Outcome.countOf_append, ← h.counter, hr.counter]
    rfl
  have hrecords := hlater.records
  have hfinal := hlater.finalSequence
  rw [hlength, ← h.records] at hrecords
  rw [hlength, ← h.finalSequence] at hfinal
  obtain ⟨records, sets, deletes, commits, conflicts, ignored, finalSequence, torn⟩ := later
  simp only [ReplayStats.mk.injEq]
  exact ⟨hrecords, hcounter .set, hcounter .deleted, hcounter .committed, hcounter .conflict,
    hcounter .ignored, hfinal, htorn⟩

/-- **Two accounts of one log.** A node is booted on any disk whose log can be read, and anything
happens to it: submissions of any bytes, while the log is held or not, changes of leadership, and
faults of the file. At any time the records that it has counted are as many as the outcomes that it
has counted, and as many as the positions that were taken since the boot; and the bytes that it has
counted are those of the lines of the records that were acknowledged since then.

The statistics of any replay that succeeds add up as well, to the number of the last record.

If nothing has failed for good and all accepted entries are commands, then a node that is booted on
what the log holds now reports, field by field, what was reported at the boot and what was counted
since then. -/
theorem counts_agree {d d' : Disk} {config : Config} {leads : Bool} {ids : Nat → String}
    {node : Node} (hboot : boot d config leads ids = (.ok node, d'))
    (actions : List Replica.Action) :
    let n := node.withReplica (·.run actions)
    let m := n.metrics
    m.walRecords = m.sets + m.deletes + m.commits + m.conflicts + m.ignored ∧
    m.walRecords = n.replica.commitIndex - m.replayed ∧
    m.walBytes = UInt64.ofNat (Replica.lengthOf (node.replica.acknowledged actions)) ∧
    (∀ (disk : Disk) (dataDir : String) (before after : Store) (stats : ReplayStats),
      Recovery.inspect disk dataDir before = (.ok stats, after) →
      stats.records =
          stats.sets + stats.deletes + stats.commits + stats.conflicts + stats.ignored ∧
        stats.records = stats.finalSequence) ∧
    (node.replica.fatalsIn actions = [] →
      (∀ e ∈ node.replica.accepted actions, ∃ c, e = .command c) →
      ∀ (disk : Disk) (config' : Config) (leads' : Bool) (ids' : Nat → String),
        disk.HoldsLog config'.dataDir n.replica.logContent →
        ∃ again after, boot disk config' leads' ids' = (.ok again, after) ∧ again.stats =
          { records := node.stats.records + m.walRecords
            sets := node.stats.sets + m.sets
            deletes := node.stats.deletes + m.deletes
            commits := node.stats.commits + m.commits
            conflicts := node.stats.conflicts + m.conflicts
            ignored := node.stats.ignored + m.ignored
            finalSequence := node.stats.finalSequence + m.walRecords
            torn := false }) := by
  intro n m
  obtain ⟨content, rs, c, htaken, hdescribes, hrunning, hlogged, hcounted⟩ := counted_boot hboot
  have hrun := hcounted.run actions
  rw [List.nil_append] at hrun
  refine ⟨hrun.sum, hrun.walRecords_eq, hrun.walBytes, ?_, ?_⟩
  · intro disk dataDir before after stats hinspect
    obtain ⟨content, hrebuild⟩ := Recovery.rebuild_of_inspect hinspect
    obtain ⟨rs, c, htaken⟩ := Recovery.taken_of_rebuild hrebuild
    exact (Recovery.describes_of_rebuild hrebuild htaken).sum
  · intro hnone hcommands disk config' leads' ids' hdisk
    have hkept := Replica.logged_run actions (fun _ => hlogged)
      (Replica.running_of_fatalsIn hrunning hnone)
    rw [List.nil_append] at hkept
    have hlasting : ∀ e ∈ node.replica.accepted actions, e.Lasting := by
      intro e he
      obtain ⟨c, rfl⟩ := hcommands e he
      exact Entry.lasting_command c
    -- the log is read as what the boot has read and the entries that were accepted since
    obtain ⟨offset, htaken'⟩ := hkept.taken_of_lasting htaken
      (Replica.selfDescribed_of_accepted actions _) hlasting
    obtain ⟨again, after, hagain, hlater, htorn⟩ := boot_of_holdsLog hdisk htaken' leads' ids'
    rw [List.map_append, Log.map_entry_numbered, ← Replica.map_entry_acknowledged] at hlater
    have hwhole : (Bytes.lines n.replica.logContent).2 = [] := congrArg Prod.snd hkept.lines_eq
    rw [hwhole] at htorn
    exact ⟨again, after, hagain, stats_eq_add hdescribes hlater hrun htorn⟩

/-- A key is set, the node follows for a while, and then a transaction is refused that saw the key
absent. The boot after that reports the set and the conflict, and so does an inspection. -/
theorem counts_agree_conflict :
    let config : Config := { nodeId := "n", dataDir := "data" }
    let set := Command.set "k" "v"
    let commit := Command.commit [⟨"k", 0⟩] []
    let actions : List Replica.Action := [.submit set.encode 0 false, .stepDown none,
      .submit set.encode 0 false, .becomeLeader, .submit commit.encode 0 false]
    ∃ node d' again disk after, boot {} config true Nat.repr = (.ok node, d') ∧
      disk = .withLog (node.replica.run actions).logContent ∧
      boot disk config true Nat.repr = (.ok again, after) ∧
      again.stats = { records := 2, sets := 1, conflicts := 1, finalSequence := 2 } := by
  intro config set commit actions
  obtain ⟨machine, hrecover, htally, hstore, hhealthy⟩ : ∃ machine,
      (Recovery.recover {} "data").1 = .ok (machine, {}) ∧ machine.tally = {} ∧
        machine.store = ∅ ∧ machine.log.medium.Healthy :=
    ⟨{ log := { path := Log.pathOf "data", next := 1, medium := .ofFile {} } }, rfl, rfl, rfl,
      rfl, rfl, rfl⟩
  have hboot : boot {} config true Nat.repr =
      (.ok (ofMachine config true Nat.repr machine {}), (Recovery.recover {} "data").2) := by
    unfold boot
    rw [show Recovery.recover {} config.dataDir = (.ok (machine, {}), _) from Prod.ext hrecover rfl]
  let start := Replica.bootstrap config.nodeId config.raftAddress machine
  have hready : start.Ready := Replica.ready_bootstrap hhealthy config.nodeId config.raftAddress
  have hset := Replica.submit_of_ready hready set.decode_encode 0
  have hcommit := Replica.submit_of_ready (hready.accept (.command set)) commit.decode_encode 0
  have hrun : start.run actions = (start.accept (.command set)).accept (.command commit) := by
    show ((((start.submit set.encode 0 false).2.stepDown none).submit set.encode 0
      false).2.becomeLeader.submit commit.encode 0 false).2 = _
    rw [hset]
    exact congrArg Prod.snd hcommit
  have hcounted : ∃ bytes, (start.run actions).machine.tally =
      { walBytes := bytes, walRecords := 2, sets := 1, conflicts := 1 } := by
    rw [hrun]
    show ∃ bytes, ((machine.accept (.command set)).accept (.command commit)).tally = _
    rw [Machine.tally_accept, Machine.tally_accept, Machine.accept_store, htally, hstore]
    exact ⟨_, rfl⟩
  have hnone : start.fatalsIn actions = [] :=
    Replica.fatalsIn_of_running actions (by rw [hrun]; rfl)
  have hcommands : ∀ e ∈ start.accepted actions, ∃ c, e = .command c := by
    intro e he
    obtain ⟨input, timeout, held, hsubmitted, hdecode⟩ := Replica.decoded_of_accepted _ _ e he
    obtain ⟨c, rfl⟩ : ∃ c : Command, input = c.encode := by
      simp only [actions, List.mem_cons, Replica.Action.submit.injEq, reduceCtorEq, false_or,
        List.not_mem_nil, or_false] at hsubmitted
      rcases hsubmitted with h | h | h <;> exact ⟨_, h.1⟩
    rw [Command.decode_encode] at hdecode
    cases hdecode
    exact ⟨c, rfl⟩
  obtain ⟨-, -, -, -, hagain⟩ := counts_agree hboot actions
  obtain ⟨again, after, hreboot, hstats⟩ := hagain hnone hcommands _ config true Nat.repr
    (Disk.holdsLog_withLog _)
  refine ⟨_, _, again, _, after, hboot, rfl, hreboot, ?_⟩
  obtain ⟨bytes, hcounted⟩ := hcounted
  have htally : (withReplica (ofMachine config true Nat.repr machine {})
    (·.run actions)).metrics.toTally = _ := hcounted
  simp only [hstats, htally]
  rfl

end Node

end DurableKV
