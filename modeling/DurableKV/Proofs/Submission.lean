import DurableKV.Proofs.Runs

/-!
# All or nothing

A submission touches the file of the log, the number of the next record, the store, what was
counted, and the position of the last entry, one after the other, and it may stop on the way.
`submit_all_or_nothing` says what is left behind: a refusal leaves everything as it was, a
submission that succeeds has done everything (`GrownBy`), and one that fails has done nothing but
halt the replica and leave a part of one line in the file (`HaltedBy`).

It holds in every state that a replica can come to (`Reachable`), whatever the file holds and
however it fails. One fact about these states is needed: the position of the last entry is the
number of the last record (`Reachable.commitIndex_eq`). It survives a halt, for a part of a line
does not count.
-/

namespace DurableKV

namespace Log.Medium

/-- A medium as there can be one: a file that keeps nothing cannot be made durable. Every file that
is opened is such a medium (`possible_ofFile`). -/
def Possible (m : Medium) : Prop := m.syncFault = none → m.keeps = true

/-- The medium of a file that was opened is possible. -/
theorem possible_ofFile (file : File) : (ofFile file).Possible := by
  intro hsync
  cases hkeeps : file.keeps with
  | true => exact hkeeps
  | false => simp [ofFile, hkeeps] at hsync

/-- Writing a part of a line leaves a part of it in the file. -/
theorem content_grown_part (m : Medium) {part line : Bytes} (h : part <+: line) :
    ∃ left, left <+: line ∧ (m.grown part).content = m.content ++ left := by
  by_cases hkeeps : m.keeps = true
  · exact ⟨part, h, content_grown hkeeps part⟩
  · refine ⟨[], List.nil_prefix, ?_⟩
    simp [grown, File.append, hkeeps]

end Log.Medium

namespace Replica

/-- What the file of the log holds. -/
def logContent (r : Replica) : Bytes := r.machine.log.medium.content

/-! ## The states of a replica -/

/-- The states that a replica can come to. -/
inductive Reachable : Replica → Prop where
  /-- It starts over any machine. -/
  | bootstrap (nodeId address : String) (machine : Machine) :
      Reachable (.bootstrap nodeId address machine)
  /-- Something happens to it. -/
  | act {r : Replica} (a : Action) : Reachable r → Reachable (r.act a)
  /-- Its file is changed by others. -/
  | file {r : Replica} (medium : Log.Medium) :
      Reachable r → Reachable { r with machine.log.medium := medium }

/-- One submission keeps the position of the last entry and the number of the last record together:
either both go up by one or none does. -/
theorem Submission.commitIndex_eq {r : Replica} {b : Bytes} {timeout : Nat} {held : Bool}
    {result : Except SubmitError Accepted × Replica}
    (hsubmission : r.Submission b timeout held result)
    (h : r.commitIndex = r.machine.lastSequence) :
    result.2.commitIndex = result.2.machine.lastSequence := by
  cases hsubmission with
  | notLeader hleads => exact h
  | timeout hleads hheld => exact h
  | halted hleads hfree hhalted => exact h
  | accepted hleads hfree hrunning hdecode hwrites hsyncs =>
    show r.commitIndex + 1 = (r.machine.accept _).lastSequence
    rw [Machine.lastSequence_accept, h]
  | undecodable hleads hfree hrunning hdecode => exact h
  | unlogged hleads hfree hrunning hdecode hpart => exact h

/-- As long as the commit index is the number of the last record, it stays so. -/
theorem commitIndex_act {r : Replica} (h : r.commitIndex = r.machine.lastSequence) (a : Action) :
    (r.act a).commitIndex = (r.act a).machine.lastSequence := by
  cases a with
  | submit input timeout held => exact (r.submission input timeout held).commitIndex_eq h
  | stepDown leader => exact h
  | becomeLeader => exact h
  | addVoter nodeId address =>
    obtain ⟨voters, hact⟩ := r.addVoter_eq nodeId address
    rw [show r.act (.addVoter nodeId address) = { r with voters } from hact]
    exact h
  | fault write sync => exact h

/-- **The position of the last entry is the number of the last record**, also after a halt. -/
theorem Reachable.commitIndex_eq {r : Replica} (h : r.Reachable) :
    r.commitIndex = r.machine.lastSequence := by
  induction h with
  | bootstrap nodeId address machine => rfl
  | act a _ ih => exact commitIndex_act ih a
  | file medium _ ih => exact ih

/-- The next record has the number after the position of the last entry. -/
theorem Reachable.next_eq {r : Replica} (h : r.Reachable) :
    r.machine.log.next = r.commitIndex + 1 := by
  rw [h.commitIndex_eq]
  exact r.machine.next_eq

/-! ## What a submission leaves behind -/

/-- What a submission leaves that failed for good. -/
structure HaltedBy (r : Replica) (b : Bytes) (cause : ApplyError) (r' : Replica) : Prop where
  /-- The store is as it was. -/
  store : r'.store = r.store
  /-- The position of the last entry is as it was. -/
  commitIndex : r'.commitIndex = r.commitIndex
  /-- The number of the last record is as it was. -/
  lastSequence : r'.machine.lastSequence = r.machine.lastSequence
  /-- All that was counted is as it was. -/
  tally : r'.machine.tally = r.machine.tally
  /-- The replica has halted for this reason. -/
  halted : r'.halted = some cause.message
  /-- The file is as it was if the input is no entry. Otherwise a part of the line of the entry in
  it may have been added, between nothing and all of it. -/
  file : match cause with
    | .decode why => Entry.decode b = .error why ∧ r'.logContent = r.logContent
    | .log _ => ∃ e part, Entry.decode b = .ok e ∧
        part <+: (Log.Record.make (r.commitIndex + 1) e).line ∧
        r'.logContent = r.logContent ++ part

/-- What a submission leaves that succeeded. -/
structure GrownBy (r : Replica) (b : Bytes) (acc : Accepted) (r' : Replica) : Prop where
  /-- The position of the last entry is one more. -/
  commitIndex : r'.commitIndex = r.commitIndex + 1
  /-- The number of the last record is one more. -/
  lastSequence : r'.machine.lastSequence = r.machine.lastSequence + 1
  /-- The position and the number are what was answered. -/
  index : acc.index = r'.commitIndex ∧ acc.index = r'.machine.lastSequence
  /-- The file has grown by the line of the entry in the input, at the position that was answered;
  the entry was applied to the store, and what it came to was answered. -/
  entry : ∃ e, Entry.decode b = .ok e ∧
    r'.logContent = r.logContent ++ (Log.Record.make acc.index e).line ∧
    r'.store = r.store.absorb e ∧ acc.outcome = r.store.outcomeOf e

/-- A replica that accepts an entry has grown by it. -/
theorem grownBy_accept {r : Replica} (hr : r.Reachable) (hkeeps : r.machine.log.medium.keeps)
    {b : Bytes} {e : Entry} (hdecode : Entry.decode b = .ok e) :
    r.GrownBy b ⟨r.commitIndex + 1, r.store.outcomeOf e⟩ (r.accept e) := by
  have hlast : (r.accept e).machine.lastSequence = r.machine.lastSequence + 1 :=
    r.machine.lastSequence_accept e
  refine ⟨rfl, hlast, ⟨rfl, ?_⟩, e, hdecode, ?_, r.accept_store e, rfl⟩
  · rw [hlast, hr.commitIndex_eq]
  · have hlog : (r.accept e).machine.log = r.machine.log.appended e := r.machine.accept_log e
    show (r.accept e).machine.log.medium.content = _
    rw [hlog, ← hr.next_eq]
    exact Log.Medium.content_grown hkeeps _

/-- **A submission does all or nothing.** A replica is in any state that it can come to, and its
file holds anything and fails in any way that a file can. A submission that is refused changes
nothing at all. One that succeeds counts the position of the last entry and the number of the last
record up by one, to what is answered, adds exactly the line of the entry to the file, and applies
the entry to the store. One that ends in a failure halts the replica and changes nothing else,
except that a part of the line may be left in the file if the input was an entry. -/
theorem submit_all_or_nothing {r r' : Replica} (hr : r.Reachable)
    (hfile : r.machine.log.medium.Possible) {b : Bytes} {timeout : Nat} {held : Bool}
    {answer : Except SubmitError Accepted} (h : r.submit b timeout held = (answer, r')) :
    match answer with
    | .ok acc => r.GrownBy b acc r'
    | .error (.fatal cause) => r.HaltedBy b cause r'
    | .error _ => r' = r := by
  have hsubmission := r.submission b timeout held
  rw [h] at hsubmission
  cases hsubmission with
  | notLeader hleads => rfl
  | timeout hleads hheld => rfl
  | halted hleads hfree hhalted => rfl
  | accepted hleads hfree hrunning hdecode hwrites hsyncs =>
    exact grownBy_accept hr (hfile hsyncs) hdecode
  | undecodable hleads hfree hrunning hdecode =>
    exact ⟨rfl, rfl, rfl, rfl, rfl, hdecode, rfl⟩
  | unlogged hleads hfree hrunning hdecode hpart =>
    obtain ⟨left, hleft, hcontent⟩ := r.machine.log.medium.content_grown_part hpart
    rw [hr.next_eq] at hleft
    exact ⟨rfl, rfl, rfl, rfl, rfl, _, left, hdecode, hleft, hcontent⟩

/-- On a node whose disk takes three more bytes, a set leaves three bytes of its line and nothing
else. -/
theorem submit_all_or_nothing_torn :
    let config : Config := { nodeId := "n", dataDir := "data" }
    let full := Action.fault (some ⟨3, .fileTooLarge⟩) none
    let cause := ApplyError.log (.append 1 .fileTooLarge)
    ∃ node d' r, Node.boot {} config true Nat.repr = (.ok node, d') ∧
      (node.replica.act full).submit (Command.set "k" "v").encode 0 false =
        (.error (.fatal cause), r) ∧
      (node.replica.act full).HaltedBy (Command.set "k" "v").encode cause r := by
  let config : Config := { nodeId := "n", dataDir := "data" }
  have hfresh : ({} : Disk).HoldsNoLog config.dataDir := Disk.holdsNoLog_empty
  obtain ⟨machine, stats, hboot, hrestored⟩ := Node.boot_of_holdsNoLog hfresh true Nat.repr
  let full := Action.fault (some ⟨3, .fileTooLarge⟩) none
  let r := (Replica.bootstrap config.nodeId config.raftAddress machine).act full
  have hreachable : r.Reachable := .act full (.bootstrap _ _ machine)
  have hpossible : r.machine.log.medium.Possible := fun _ => hrestored.healthy.keeps
  have hnext : r.machine.log.next = 1 := hrestored.next
  let log := r.machine.log.interrupted
    ((Log.Record.make r.machine.log.next (.command (.set "k" "v"))).line.take 3)
  have happend : r.machine.log.append (.command (.set "k" "v")) =
      (.error (.append r.machine.log.next .fileTooLarge), log) := rfl
  have happly : r.machine.apply (Command.set "k" "v").encode =
      (.error (.log (.append 1 .fileTooLarge)), { r.machine with log := log }) := by
    simp only [Machine.apply, Command.decode_encode, happend, hnext]
  have hsubmit := submit_of_apply_error (r := r) rfl rfl happly 0
  exact ⟨_, _, _, Prod.ext hboot rfl, hsubmit, submit_all_or_nothing hreachable hpossible hsubmit⟩

end Replica

end DurableKV
