import DurableKV.Consensus.Basic

/-!
# A replica on its own

A cluster of one voter: every entry that is submitted while the node leads is agreed on at once and
applied. The first entry that cannot be applied halts the replica for good, and the reason is kept.

A replica applies one entry at a time. `submit` is told whether another submission holds the log for
longer than the submitter waits; the entry then does not enter the log.
-/

namespace DurableKV

/-- A cluster of one voter. -/
structure Replica where
  /-- The id of the node. -/
  nodeId : String
  /-- The address of the node. -/
  address : String
  /-- What entries are applied to. -/
  machine : Machine
  /-- The position of the last applied entry. -/
  commitIndex : UInt64
  /-- Why the replica halted, if it has. -/
  halted : Option String := none
  /-- The part that the node plays. -/
  role : Role := .leader
  /-- The voters, with their addresses. -/
  voters : Table String
  deriving Repr

namespace Replica

/-- A replica that leads its own cluster. Positions go on from the last record of the log. -/
def bootstrap (nodeId address : String) (machine : Machine) : Replica where
  nodeId := nodeId
  address := address
  machine := machine
  commitIndex := machine.lastSequence
  voters := Table.empty.insert nodeId address

/-- The store that entries are applied to. -/
def store (r : Replica) : Store := r.machine.store

/-- Does the node lead? -/
def isLeader (r : Replica) : Bool := r.role.isLeader

/-- The address of the leader, if it is known. -/
def leaderAddress (r : Replica) : Option String := r.role.leaderAddress r.address

/-- Give up leadership; the new leader's address may be known. -/
def stepDown (r : Replica) (leader : Option String) : Replica := { r with role := .follower leader }

/-- Take up leadership. -/
def becomeLeader (r : Replica) : Replica := { r with role := .leader }

/-- Submit an entry, waiting at most `timeout` nanoseconds; `held` says that another submission
holds the log for longer than that. -/
def submit (r : Replica) (entry : Bytes) (timeout : Nat) (held : Bool) :
    Except SubmitError Accepted × Replica :=
  if ¬ r.isLeader then (.error (.notLeader r.leaderAddress), r)
  else if held then (.error (.timeout timeout), r)
  else
    match r.halted with
    | some reason => (.error (.halted reason), r)
    | none =>
      match r.machine.apply entry with
      | (.ok outcome, machine) =>
        let index := r.commitIndex + 1
        (.ok ⟨index, outcome⟩, { r with machine, commitIndex := index })
      | (.error cause, machine) =>
        (.error (.fatal cause), { r with machine, halted := some cause.message })

/-- Add a voter with its address. -/
def addVoter (r : Replica) (nodeId address : String) : Except SubmitError Unit × Replica :=
  if nodeId = "" ∨ address = "" then
    (.error (.invalidMember "node_id and address are required"), r)
  else if ¬ r.isLeader then (.error (.notLeader r.leaderAddress), r)
  else (.ok (), { r with voters := r.voters.insert nodeId address })

/-- Release the log. -/
def shutdown (r : Replica) : Except SubmitError Unit := r.machine.close.mapError .fatal

instance : Consensus Replica where
  submit r entry timeout := r.submit entry timeout false
  isLeader := isLeader
  leaderAddress := leaderAddress
  addVoter := addVoter
  store := store

end Replica

end DurableKV
