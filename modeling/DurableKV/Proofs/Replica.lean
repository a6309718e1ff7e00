import DurableKV.Consensus.Replica
import DurableKV.Proofs.Recovery

/-!
# One submission

What a submission does to a replica, said once for every replica and every input. `submission` tells
all that it may come to: one of three refusals that change nothing, the entry is accepted and
`Replica.accept` is the replica after it, or the replica halts. Then the entry was not decoded, or
its line was written only in part or not made durable; `Writer.interrupted` is the log after that.
On a replica that is ready, every entry that can be decoded is accepted (`submit_of_ready`), and the
replica stays ready.
-/

namespace DurableKV

/-! ## Appending -/

namespace Log

/-- A medium with more written to it. -/
def Medium.grown (m : Medium) (bs : Bytes) : Medium := { m with toFile := m.toFile.append bs }

/-- Growing leaves a medium healthy. -/
theorem Medium.Healthy.grown {m : Medium} (h : m.Healthy) (bs : Bytes) : (m.grown bs).Healthy where
  keeps := by
    have hkeeps := h.keeps
    simp only [Medium.grown, File.append, hkeeps, if_true]
  writes := h.writes
  syncs := h.syncs

/-- What is written to a medium stands behind its content. -/
theorem Medium.content_grown {m : Medium} (h : m.keeps) (bs : Bytes) :
    (m.grown bs).content = m.content ++ bs :=
  File.content_append h bs

namespace Writer

/-- A writer that has appended an entry. -/
def appended (w : Writer) (e : Entry) : Writer :=
  { w with
    next := w.next + 1
    written := w.written + UInt64.ofNat (Record.make w.next e).line.length
    medium := w.medium.grown (Record.make w.next e).line }

/-- Appending to a healthy medium succeeds. -/
theorem append_of_healthy {w : Writer} (h : w.medium.Healthy) (e : Entry) :
    w.append e = (.ok w.next, w.appended e) := by
  obtain ⟨path, next, written, ⟨file, writeFault, syncFault⟩⟩ := w
  obtain ⟨-, hwrites, hsyncs⟩ := h
  cases hwrites
  cases hsyncs
  rfl

/-- A writer that has written a part of a line and got no further. -/
def interrupted (w : Writer) (part : Bytes) : Writer := { w with medium := w.medium.grown part }

/-- What appending may come to: the record counts, or a part of its line, which may be all of it, is
left in the file and does not count. -/
theorem append_cases (w : Writer) (e : Entry) :
    (w.medium.writeFault = none ∧ w.medium.syncFault = none ∧
        w.append e = (.ok w.next, w.appended e)) ∨
      ∃ why part, part <+: (Record.make w.next e).line ∧
        w.append e = (.error why, w.interrupted part) := by
  obtain ⟨path, next, written, ⟨file, writeFault, syncFault⟩⟩ := w
  cases writeFault with
  | some f => exact Or.inr ⟨_, _, List.take_prefix f.kept _, rfl⟩
  | none =>
    cases syncFault with
    | some cause => exact Or.inr ⟨_, _, List.prefix_rfl, rfl⟩
    | none => exact Or.inl ⟨rfl, rfl, rfl⟩

end Writer

end Log

/-! ## Applying -/

/-- What an entry comes to on a store. -/
def Store.outcomeOf (s : Store) : Entry → Outcome
  | .command c => (s.dispatch c).2
  | .foreign op _ => .ignored op

namespace Machine

/-- A machine that has logged and applied an entry. -/
def accept (m : Machine) (e : Entry) : Machine :=
  let log := m.log.appended e
  (perform { m with log, tally := m.tally.countAppend (log.written - m.log.written) } e).2

/-- A machine that accepts an entry absorbs it into its store. -/
@[simp] theorem accept_store (m : Machine) (e : Entry) :
    (m.accept e).store = m.store.absorb e := by
  cases e <;> rfl

/-- A machine that accepts an entry appends it to its log. -/
@[simp] theorem accept_log (m : Machine) (e : Entry) : (m.accept e).log = m.log.appended e := by
  cases e <;> rfl

/-- The next number is the one after the last. -/
theorem next_eq (m : Machine) : m.log.next = m.lastSequence + 1 :=
  (UInt64.sub_add_cancel m.log.next 1).symm

/-- An accepted entry has the next number. -/
theorem lastSequence_accept (m : Machine) (e : Entry) :
    (m.accept e).lastSequence = m.lastSequence + 1 := by
  have hlog : (m.accept e).log.next = m.log.next + 1 := by rw [accept_log]; rfl
  rw [← m.next_eq]
  show (m.accept e).log.next - 1 = m.log.next
  rw [hlog, UInt64.add_sub_cancel]

/-- A decoded entry that is appended is accepted, and its outcome is that of the store before it. -/
theorem apply_of_append {m : Machine} {b : Bytes} {e : Entry} {n : UInt64}
    (hdecode : Entry.decode b = .ok e) (happend : m.log.append e = (.ok n, m.log.appended e)) :
    m.apply b = (.ok (m.store.outcomeOf e), m.accept e) := by
  simp only [apply, hdecode, happend]
  cases e <;> rfl

/-- What applying an input may come to: the entry in it is accepted, or the input is no entry and
nothing changes, or the entry is not logged and nothing changes but the file of the log. -/
theorem apply_cases (m : Machine) (b : Bytes) :
    (∃ e, Entry.decode b = .ok e ∧ m.log.medium.writeFault = none ∧
        m.log.medium.syncFault = none ∧ m.apply b = (.ok (m.store.outcomeOf e), m.accept e)) ∨
      (∃ why, Entry.decode b = .error why ∧ m.apply b = (.error (.decode why), m)) ∨
      ∃ e why part, Entry.decode b = .ok e ∧ part <+: (Log.Record.make m.log.next e).line ∧
        m.apply b = (.error (.log why), { m with log := m.log.interrupted part }) := by
  cases hdecode : Entry.decode b with
  | error why =>
    refine Or.inr (Or.inl ⟨why, rfl, ?_⟩)
    simp only [apply, hdecode]
  | ok e =>
    rcases m.log.append_cases e with ⟨hwrites, hsyncs, happend⟩ | ⟨why, part, hpart, happend⟩
    · exact Or.inl ⟨e, rfl, hwrites, hsyncs, apply_of_append hdecode happend⟩
    · refine Or.inr (Or.inr ⟨e, why, part, rfl, hpart, ?_⟩)
      simp only [apply, hdecode, happend]

end Machine

/-! ## Submitting -/

namespace Replica

/-- A replica that has accepted an entry. -/
def accept (r : Replica) (e : Entry) : Replica :=
  { r with machine := r.machine.accept e, commitIndex := r.commitIndex + 1 }

/-- A replica that accepts an entry absorbs it into its store. -/
@[simp] theorem accept_store (r : Replica) (e : Entry) :
    (r.accept e).store = r.store.absorb e :=
  r.machine.accept_store e

/-- A replica that accepts whatever can be decoded. -/
structure Ready (r : Replica) : Prop where
  /-- It leads. -/
  leads : r.role = .leader
  /-- It has not halted. -/
  running : r.halted = none
  /-- Its log takes whatever is appended. -/
  healthy : r.machine.log.medium.Healthy

/-- What leads has the role of the leader. -/
theorem role_of_isLeader {r : Replica} (h : r.isLeader = true) : r.role = .leader := by
  unfold isLeader Role.isLeader at h
  split at h
  · assumption
  · cases h

/-- Accepting an entry leaves the log healthy. -/
theorem healthy_accept {r : Replica} (h : r.machine.log.medium.Healthy) (e : Entry) :
    (r.accept e).machine.log.medium.Healthy := by
  show (r.machine.accept e).log.medium.Healthy
  rw [Machine.accept_log]
  exact h.grown _

/-- A replica that is ready stays ready when it accepts an entry. -/
theorem Ready.accept {r : Replica} (h : r.Ready) (e : Entry) : (r.accept e).Ready where
  leads := h.leads
  running := h.running
  healthy := healthy_accept h.healthy e

/-- **A replica that is ready accepts whatever can be decoded**, under the next position and with
the outcome that the store has for it. -/
theorem submit_of_ready {r : Replica} (hr : r.Ready) {b : Bytes} {e : Entry}
    (h : Entry.decode b = .ok e) (timeout : Nat) :
    r.submit b timeout false =
      (.ok ⟨r.commitIndex + 1, r.store.outcomeOf e⟩, r.accept e) := by
  have happly := Machine.apply_of_append h (Log.Writer.append_of_healthy hr.healthy e)
  obtain ⟨nodeId, address, machine, commitIndex, halted, role, voters⟩ := r
  obtain ⟨hleads, hrunning, -⟩ := hr
  cases hleads
  cases hrunning
  unfold submit
  rw [if_neg (fun hnot => hnot rfl), if_neg Bool.false_ne_true]
  dsimp only at happly ⊢
  rw [happly]
  rfl

/-- A replica that runs halts if the input cannot be applied. -/
theorem submit_of_apply_error {r : Replica} (hleads : r.isLeader = true)
    (hrunning : r.halted = none) {b : Bytes} {cause : ApplyError} {m : Machine}
    (happly : r.machine.apply b = (.error cause, m)) (timeout : Nat) :
    r.submit b timeout false =
      (.error (.fatal cause), { r with machine := m, halted := some cause.message }) := by
  simp [submit, hleads, hrunning, happly]

/-- What a submission may come to: what stood in its way, or what it did. -/
inductive Submission (r : Replica) (b : Bytes) (timeout : Nat) (held : Bool) :
    Except SubmitError Accepted × Replica → Prop where
  /-- The replica does not lead. -/
  | notLeader (hleads : r.isLeader = false) :
      Submission r b timeout held (.error (.notLeader r.leaderAddress), r)
  /-- Another submission holds the log for too long. -/
  | timeout (hleads : r.isLeader = true) (hheld : held = true) :
      Submission r b timeout held (.error (.timeout timeout), r)
  /-- The replica halted earlier. -/
  | halted {reason : String} (hleads : r.isLeader = true) (hfree : held = false)
      (hhalted : r.halted = some reason) :
      Submission r b timeout held (.error (.halted reason), r)
  /-- The entry is accepted. -/
  | accepted {e : Entry} (hleads : r.isLeader = true) (hfree : held = false)
      (hrunning : r.halted = none) (hdecode : Entry.decode b = .ok e)
      (hwrites : r.machine.log.medium.writeFault = none)
      (hsyncs : r.machine.log.medium.syncFault = none) :
      Submission r b timeout held
        (.ok ⟨r.commitIndex + 1, r.store.outcomeOf e⟩, r.accept e)
  /-- The input is no entry, and the replica halts. -/
  | undecodable {why : EntryError} (hleads : r.isLeader = true) (hfree : held = false)
      (hrunning : r.halted = none) (hdecode : Entry.decode b = .error why) :
      Submission r b timeout held
        (.error (.fatal (.decode why)), { r with halted := some (ApplyError.decode why).message })
  /-- The entry is not logged, and the replica halts. A part of its line may be in the file. -/
  | unlogged {e : Entry} {why : Log.Failure} {part : Bytes} (hleads : r.isLeader = true)
      (hfree : held = false) (hrunning : r.halted = none) (hdecode : Entry.decode b = .ok e)
      (hpart : part <+: (Log.Record.make r.machine.log.next e).line) :
      Submission r b timeout held
        (.error (.fatal (.log why)), { r with
          machine := { r.machine with log := r.machine.log.interrupted part }
          halted := some (ApplyError.log why).message })

/-- **Every submission comes to one of these.** -/
theorem submission (r : Replica) (b : Bytes) (timeout : Nat) (held : Bool) :
    Submission r b timeout held (r.submit b timeout held) := by
  unfold submit
  split
  · rename_i hleads
    simp only [Bool.not_eq_true] at hleads
    exact .notLeader hleads
  rename_i hleads
  rw [Classical.not_not] at hleads
  split
  · rename_i hheld
    exact .timeout hleads hheld
  rename_i hfree
  rw [Bool.not_eq_true] at hfree
  split
  · rename_i reason hhalted
    exact .halted hleads hfree hhalted
  rename_i hrunning
  rcases r.machine.apply_cases b with ⟨e, hdecode, hwrites, hsyncs, happly⟩ |
    ⟨why, hdecode, happly⟩ | ⟨e, why, part, hdecode, hpart, happly⟩
  · rw [happly]
    exact .accepted hleads hfree hrunning hdecode hwrites hsyncs
  · rw [happly]
    exact .undecodable hleads hfree hrunning hdecode
  · rw [happly]
    exact .unlogged hleads hfree hrunning hdecode hpart

/-- What a submission may come to: the entry is accepted, or the store is as it was and the replica
is as it was or has halted. -/
theorem submit_cases (r : Replica) (b : Bytes) (timeout : Nat) (held : Bool) :
    (∃ e, Entry.decode b = .ok e ∧ r.halted = none ∧ r.machine.log.medium.writeFault = none ∧
        r.machine.log.medium.syncFault = none ∧
        r.submit b timeout held =
          (.ok ⟨r.commitIndex + 1, r.store.outcomeOf e⟩, r.accept e)) ∨
      ∃ cause r', r.submit b timeout held = (.error cause, r') ∧ r'.store = r.store ∧
        (r' = r ∨ r'.halted ≠ none) := by
  have hsubmission := r.submission b timeout held
  generalize r.submit b timeout held = result at hsubmission ⊢
  cases hsubmission with
  | notLeader hleads => exact Or.inr ⟨_, r, rfl, rfl, Or.inl rfl⟩
  | timeout hleads hheld => exact Or.inr ⟨_, r, rfl, rfl, Or.inl rfl⟩
  | halted hleads hfree hhalted => exact Or.inr ⟨_, r, rfl, rfl, Or.inl rfl⟩
  | accepted hleads hfree hrunning hdecode hwrites hsyncs =>
    exact Or.inl ⟨_, hdecode, hrunning, hwrites, hsyncs, rfl⟩
  | undecodable hleads hfree hrunning hdecode =>
    exact Or.inr ⟨_, _, rfl, rfl, Or.inr (Option.some_ne_none _)⟩
  | unlogged hleads hfree hrunning hdecode hpart =>
    exact Or.inr ⟨_, _, rfl, rfl, Or.inr (Option.some_ne_none _)⟩

/-- What is known of a submission that succeeded. -/
theorem submit_eq_ok {r r' : Replica} {b : Bytes} {timeout : Nat} {held : Bool} {acc : Accepted}
    (h : r.submit b timeout held = (.ok acc, r')) :
    ∃ e, Entry.decode b = .ok e ∧ r.halted = none ∧
      acc = ⟨r.commitIndex + 1, r.store.outcomeOf e⟩ ∧ r' = r.accept e := by
  rcases r.submit_cases b timeout held with
    ⟨e, hdecode, hrunning, -, -, hok⟩ | ⟨cause, r'', herror, -, -⟩
  · rw [h] at hok
    cases hok
    exact ⟨e, hdecode, hrunning, rfl, rfl⟩
  · rw [h] at herror
    cases herror

/-- Nothing but a halt is left of what was refused if the file takes whatever is written to it. -/
theorem submit_error_of_healthy {r r' : Replica} (hhealthy : r.machine.log.medium.Healthy)
    {b : Bytes} {timeout : Nat} {why : SubmitError}
    (h : r.submit b timeout false = (.error why, r')) : ∃ halted, r' = { r with halted } := by
  have hsubmission := r.submission b timeout false
  rw [h] at hsubmission
  cases hsubmission with
  | notLeader hleads => exact ⟨r.halted, rfl⟩
  | timeout hleads hheld => exact ⟨r.halted, rfl⟩
  | halted hleads hfree hhalted => exact ⟨r.halted, rfl⟩
  | undecodable hleads hfree hrunning hdecode => exact ⟨_, rfl⟩
  | unlogged hleads hfree hrunning hdecode hpart =>
    rw [submit_of_ready ⟨role_of_isLeader hleads, hrunning, hhealthy⟩ hdecode] at h
    cases h

/-- Adding a voter changes nothing but the voters. -/
theorem addVoter_eq (r : Replica) (nodeId address : String) :
    ∃ voters, (r.addVoter nodeId address).2 = { r with voters } := by
  unfold addVoter
  split
  · exact ⟨r.voters, rfl⟩
  · split
    · exact ⟨r.voters, rfl⟩
    · exact ⟨_, rfl⟩

end Replica

end DurableKV
