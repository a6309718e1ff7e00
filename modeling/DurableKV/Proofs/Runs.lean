import DurableKV.Node
import DurableKV.Proofs.Replica

/-!
# Runs of a replica

What can happen to a replica between two starts (`Replica.Action`): submissions of any bytes, with
or without the log being held by others, changes of leadership, new voters, and faults of the file
that come and go. `Replica.accepted` are the entries that a run accepts.

The invariant of a run is `Replica.Logged`: the log holds the lines that it held at the start and
then one line for every accepted entry, and the store is what these entries made of the store of the
start. It holds as long as the replica has not halted (`logged_run`). A fault in the middle of a
line breaks it, but such a fault also halts the replica, and then nothing is accepted any more.
-/

namespace DurableKV

namespace Replica

/-! ## What a log holds -/

/-- A replica that has accepted some entries since its log held some lines, the last of them with
some number, and its store was what it was then. -/
structure Logged (lines : List Bytes) (last : UInt64) (before : Store) (es : List Entry)
    (r : Replica) : Prop where
  /-- What is appended to the file stays. -/
  keeps : r.machine.log.medium.keeps
  /-- The file holds the lines, and then one for every entry. -/
  holds : r.machine.log.medium.content = Bytes.joinLines (lines ++ Log.bodies last es)
  /-- The next record has the number after them. -/
  next : r.machine.log.next = Log.lastOf last es + 1
  /-- The store has taken the entries. -/
  store : r.store = es.foldl Store.absorb before
  /-- The position of the last entry is the number of its record. -/
  commitIndex : r.commitIndex = Log.lastOf last es

section

variable {lines : List Bytes} {last : UInt64} {before : Store} {es : List Entry} {r : Replica}

/-- An accepted entry is logged behind those before it. -/
theorem Logged.accept (h : r.Logged lines last before es) (e : Entry) :
    (r.accept e).Logged lines last before (es ++ [e]) := by
  have hlast := Log.lastOf_concat last es e
  have hlog : (r.accept e).machine.log = r.machine.log.appended e := r.machine.accept_log e
  refine ⟨?_, ?_, ?_, ?_, ?_⟩
  · rw [hlog]
    have hkeeps := h.keeps
    simp only [Log.Writer.appended, Log.Medium.grown, File.append, hkeeps, if_true]
  · rw [hlog]
    show (r.machine.log.medium.grown (Log.Record.make r.machine.log.next e).line).content = _
    rw [Log.Medium.content_grown h.keeps, h.holds, h.next, Log.bodies_append, ← List.append_assoc,
      Bytes.joinLines_append _ (Log.bodies (Log.lastOf last es) [e])]
    exact congrArg _ (List.append_nil _).symm
  · rw [hlog, hlast, ← h.next]
    rfl
  · rw [accept_store, h.store, List.foldl_append]
    rfl
  · rw [hlast, ← h.commitIndex]
    rfl

/-- A replica that has just been brought up has accepted nothing yet. -/
theorem logged_bootstrap {path : String} {content : Bytes} {rs : List Log.Record} {c : Log.Cursor}
    {machine : Machine} {stats : ReplayStats}
    (h : Recovery.Restored path content rs c machine stats) (nodeId address : String) :
    (bootstrap nodeId address machine).Logged (Bytes.lines content).1 c.last
      (Store.ofEntries (rs.map Log.Record.entry)) [] := by
  have hlast := Log.lastOf_nil c.last
  refine ⟨h.healthy.keeps, ?_, ?_, h.store, ?_⟩
  · show machine.log.medium.content = _
    rw [h.holds]
    exact congrArg _ (List.append_nil _).symm
  · rw [hlast]
    exact h.next
  · show machine.log.next - 1 = _
    rw [h.next, hlast, UInt64.add_sub_cancel]

/-- A replica that starts on a healthy log is ready. -/
theorem ready_bootstrap {machine : Machine} (h : machine.log.medium.Healthy)
    (nodeId address : String) : (bootstrap nodeId address machine).Ready :=
  ⟨rfl, rfl, h⟩

end

/-! ## Runs -/

/-- What can happen to a replica. -/
inductive Action where
  /-- An entry is submitted; the log may be held by another submission for too long. -/
  | submit (input : Bytes) (timeout : Nat) (held : Bool)
  /-- The replica gives up leadership. -/
  | stepDown (leader : Option String)
  /-- The replica takes up leadership. -/
  | becomeLeader
  /-- A voter is added. -/
  | addVoter (nodeId address : String)
  /-- Writing to the file or making it durable begins to fail, or works again. -/
  | fault (write : Option Log.WriteFault) (sync : Option OsError)

/-- The replica after an action. -/
def act (r : Replica) : Action → Replica
  | .submit input timeout held => (r.submit input timeout held).2
  | .stepDown leader => r.stepDown leader
  | .becomeLeader => r.becomeLeader
  | .addVoter nodeId address => (r.addVoter nodeId address).2
  | .fault write sync =>
    let medium := { r.machine.log.medium with writeFault := write, syncFault := sync }
    { r with machine.log.medium := medium }

/-- The entries that an action accepts. -/
def acceptedBy (r : Replica) : Action → List Entry
  | .submit input timeout held =>
    match (r.submit input timeout held).1, Entry.decode input with
    | .ok _, .ok e => [e]
    | _, _ => []
  | _ => []

/-- The replica after actions. -/
def run (r : Replica) (actions : List Action) : Replica := actions.foldl act r

/-- The entries that actions accept, one after the other. -/
def accepted (r : Replica) : List Action → List Entry
  | [] => []
  | a :: actions => r.acceptedBy a ++ (r.act a).accepted actions

section

variable {lines : List Bytes} {last : UInt64} {before : Store}

/-- One action: if the replica still runs after it, then it ran before, and the accepted entries
were logged. -/
theorem logged_act {r : Replica} {es : List Entry}
    (h : r.halted = none → r.Logged lines last before es) (a : Action) :
    (r.act a).halted = none →
      (r.act a).Logged lines last before (es ++ r.acceptedBy a) := by
  cases a with
  | submit input timeout held =>
    rcases r.submit_cases input timeout held with
      ⟨e, hdecode, hrunning, -, -, hsubmit⟩ | ⟨cause, r', hsubmit, -, hr'⟩
    · have haccepted : r.acceptedBy (.submit input timeout held) = [e] := by
        simp only [acceptedBy, hsubmit, hdecode]
      have hact : r.act (.submit input timeout held) = r.accept e := by
        simp only [act, hsubmit]
      rw [haccepted, hact]
      intro _
      exact (h hrunning).accept e
    · have haccepted : r.acceptedBy (.submit input timeout held) = [] := by
        simp only [acceptedBy, hsubmit]
      have hact : r.act (.submit input timeout held) = r' := by
        simp only [act, hsubmit]
      rw [haccepted, hact, List.append_nil]
      intro hrunning
      rcases hr' with rfl | hhalted
      · exact h hrunning
      · exact absurd hrunning hhalted
  | stepDown leader =>
    intro hrunning
    have hlogged := h hrunning
    rw [show r.acceptedBy (.stepDown leader) = [] from rfl, List.append_nil]
    exact ⟨hlogged.keeps, hlogged.holds, hlogged.next, hlogged.store, hlogged.commitIndex⟩
  | becomeLeader =>
    intro hrunning
    have hlogged := h hrunning
    rw [show r.acceptedBy .becomeLeader = [] from rfl, List.append_nil]
    exact ⟨hlogged.keeps, hlogged.holds, hlogged.next, hlogged.store, hlogged.commitIndex⟩
  | addVoter nodeId address =>
    obtain ⟨voters, hact⟩ := r.addVoter_eq nodeId address
    rw [show r.act (.addVoter nodeId address) = { r with voters } from hact,
      show r.acceptedBy (.addVoter nodeId address) = [] from rfl, List.append_nil]
    intro hrunning
    have hlogged := h hrunning
    exact ⟨hlogged.keeps, hlogged.holds, hlogged.next, hlogged.store, hlogged.commitIndex⟩
  | fault write sync =>
    intro hrunning
    have hlogged := h hrunning
    rw [show r.acceptedBy (.fault write sync) = [] from rfl, List.append_nil]
    exact ⟨hlogged.keeps, hlogged.holds, hlogged.next, hlogged.store, hlogged.commitIndex⟩

/-- **Whatever happens to a replica that has not halted, its log holds what it accepted.** -/
theorem logged_run (actions : List Action) : {r : Replica} → {es : List Entry} →
    (r.halted = none → r.Logged lines last before es) → (r.run actions).halted = none →
    (r.run actions).Logged lines last before (es ++ r.accepted actions) := by
  induction actions with
  | nil =>
    intro r es h hrunning
    rw [accepted, List.append_nil]
    exact h hrunning
  | cons a actions ih =>
    intro r es h hrunning
    rw [accepted, ← List.append_assoc]
    exact ih (logged_act h a) hrunning

/-- Every accepted entry was decoded from what was submitted. -/
theorem decoded_of_accepted (actions : List Action) : (r : Replica) → ∀ e ∈ r.accepted actions,
    ∃ input timeout held, .submit input timeout held ∈ actions ∧ Entry.decode input = .ok e := by
  induction actions with
  | nil =>
    intro _ _ he
    exact absurd he List.not_mem_nil
  | cons a actions ih =>
    intro r e he
    rw [accepted, List.mem_append] at he
    rcases he with he | he
    · cases a with
      | submit input timeout held =>
        unfold acceptedBy at he
        dsimp only at he
        split at he
        · rename_i hdecode
          obtain rfl := List.mem_singleton.1 he
          exact ⟨input, timeout, held, List.mem_cons_self, hdecode⟩
        · exact absurd he List.not_mem_nil
      | stepDown leader => exact absurd he List.not_mem_nil
      | becomeLeader => exact absurd he List.not_mem_nil
      | addVoter nodeId address => exact absurd he List.not_mem_nil
      | fault write sync => exact absurd he List.not_mem_nil
    · obtain ⟨input, timeout, held, hmem, hdecode⟩ := ih _ e he
      exact ⟨input, timeout, held, List.mem_cons_of_mem _ hmem, hdecode⟩

/-- What a run accepts are entries that say what they are. -/
theorem selfDescribed_of_accepted (actions : List Action) (r : Replica) :
    ∀ e ∈ r.accepted actions, e.SelfDescribed := by
  intro e he
  obtain ⟨input, timeout, held, -, hdecode⟩ := decoded_of_accepted actions r e he
  exact Entry.selfDescribed_of_decode hdecode

end

end Replica

/-! ## Booted nodes -/

namespace Node

/-- A node that is booted where no log is. -/
theorem boot_of_holdsNoLog {d : Disk} {config : Config} (h : d.HoldsNoLog config.dataDir)
    (leads : Bool) (ids : Nat → String) :
    ∃ machine stats, (boot d config leads ids).1 =
        .ok (ofMachine config leads ids machine stats) ∧
      Recovery.Restored (Log.pathOf config.dataDir) [] [] {} machine stats := by
  obtain ⟨machine, stats, hrecover, hrestored⟩ := Recovery.recover_of_holdsNoLog h
  refine ⟨machine, stats, ?_, hrestored⟩
  rw [boot]
  split
  · rename_i heq
    rw [heq] at hrecover
    cases hrecover
  · rename_i heq
    rw [heq] at hrecover
    cases hrecover
    rfl

/-- A boot that succeeded has recovered. -/
theorem recovered_of_boot {d d' : Disk} {config : Config} {leads : Bool} {ids : Nat → String}
    {node : Node} (h : boot d config leads ids = (.ok node, d')) :
    ∃ machine stats, Recovery.recover d config.dataDir = (.ok (machine, stats), d') ∧
      node = ofMachine config leads ids machine stats := by
  unfold boot at h
  split at h
  · cases h
  · rename_i machine stats d'' hrecover
    cases h
    exact ⟨machine, stats, hrecover, rfl⟩

/-- A node over a machine that has just been brought up has accepted nothing yet. -/
theorem logged_ofMachine {path : String} {content : Bytes} {rs : List Log.Record} {c : Log.Cursor}
    {machine : Machine} {stats : ReplayStats}
    (h : Recovery.Restored path content rs c machine stats) (config : Config) (leads : Bool)
    (ids : Nat → String) :
    (ofMachine config leads ids machine stats).replica.Logged (Bytes.lines content).1 c.last
      (Store.ofEntries (rs.map Log.Record.entry)) [] := by
  have hlogged := Replica.logged_bootstrap h config.nodeId config.raftAddress
  cases leads with
  | true => exact hlogged
  | false =>
    exact ⟨hlogged.keeps, hlogged.holds, hlogged.next, hlogged.store, hlogged.commitIndex⟩

/-- A booted node has accepted nothing since the start of its log. -/
theorem logged_boot {d d' : Disk} {config : Config} {leads : Bool} {ids : Nat → String}
    {node : Node} (h : boot d config leads ids = (.ok node, d')) :
    ∃ content rs c, Log.taken content = .ok (rs, c) ∧
      node.replica.Logged (Bytes.lines content).1 c.last
        (Store.ofEntries (rs.map Log.Record.entry)) [] := by
  obtain ⟨machine, stats, hrecover, rfl⟩ := recovered_of_boot h
  obtain ⟨content, rs, c, htaken, hrestored⟩ := Recovery.restored_of_recover hrecover
  exact ⟨content, rs, c, htaken, logged_ofMachine hrestored config leads ids⟩

end Node

end DurableKV
