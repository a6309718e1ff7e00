import DurableKV.Recovery
import DurableKV.Text.Duration

/-!
# Agreeing on entries

What a service needs of consensus: a way to submit entries, the leader, the voters, and the store
that agreed entries are applied to. `Consensus` is that interface. Everything the service does can
be said over it, whatever stands behind it.
-/

namespace DurableKV

/-- The part that a node plays. -/
inductive Role where
  /-- The node leads. -/
  | leader
  /-- The node follows a leader, whose address it may know. -/
  | follower (leader : Option String)
  deriving DecidableEq, Repr

namespace Role

/-- Does the node lead? -/
def isLeader : Role → Bool
  | leader => true
  | follower _ => false

/-- The address of the leader, if it is known; `own` is that of the node. -/
def leaderAddress (own : String) : Role → Option String
  | leader => some own
  | follower hint => hint

end Role

/-- Why an entry or a voter was not accepted. -/
inductive SubmitError where
  /-- The node does not lead; the leader's address may be known. -/
  | notLeader (leader : Option String)
  /-- The log was busy for the whole time, in nanoseconds; the entry did not enter it. -/
  | timeout (nanos : Nat)
  /-- A voter cannot be added, for this reason. -/
  | invalidMember (reason : String)
  /-- The node halted earlier, for this reason. -/
  | halted (reason : String)
  /-- The node halts because the entry could not be applied. -/
  | fatal (cause : ApplyError)
  deriving DecidableEq, Repr

/-- How the refusal of a node that does not lead is worded. -/
def notLeaderMessage (leader : Option String) : String :=
  "not the leader; current leader is " ++ leader.getD "unknown"

/-- The code of such a refusal. -/
def notLeaderCode : String := "HELIOS_NOT_LEADER"

namespace SubmitError

/-- The wording of a failure. -/
def message : SubmitError → String
  | notLeader leader => notLeaderMessage leader
  | timeout nanos => "command not submitted within " ++ Text.duration nanos
  | invalidMember reason => "invalid voter: " ++ reason
  | halted reason => "node halted: " ++ reason
  | fatal cause => "state machine failed: " ++ cause.message

/-- The code of a failure. -/
def code : SubmitError → String
  | notLeader _ => notLeaderCode
  | timeout _ => "HELIOS_SUBMIT_TIMEOUT"
  | invalidMember _ => "HELIOS_INVALID_MEMBER"
  | halted _ => "HELIOS_NODE_HALTED"
  | fatal cause => cause.code

/-- Does the failure end the node? -/
def isFatal : SubmitError → Bool
  | halted _ | fatal _ => true
  | _ => false

end SubmitError

/-- An entry that was accepted and applied. -/
structure Accepted where
  /-- The position of the entry in the log. -/
  index : UInt64
  /-- What applying it came to. -/
  outcome : Outcome
  deriving DecidableEq, Repr

/-- What a service needs of consensus. -/
class Consensus (σ : Type) where
  /-- Submit an entry, waiting at most so many nanoseconds for the log. -/
  submit : σ → Bytes → Nat → Except SubmitError Accepted × σ
  /-- Does this node lead? -/
  isLeader : σ → Bool
  /-- The address of the leader, if it is known. -/
  leaderAddress : σ → Option String
  /-- Add a voter with its address. -/
  addVoter : σ → String → String → Except SubmitError Unit × σ
  /-- The store that entries are applied to. -/
  store : σ → Store

end DurableKV
