import DurableKV.Consensus.Basic

/-!
# Consensus with given answers

A stand-in that answers every submission as it was told to, remembers the entries, and applies none
of them. With it a service can be looked at under any answers of consensus.
-/

namespace DurableKV

/-- What a scripted consensus answers. -/
inductive Script where
  /-- Submissions time out. -/
  | silent
  /-- Submissions are accepted with this outcome. -/
  | outcome (o : Outcome)
  /-- Submissions and new voters are refused with this failure. -/
  | failure (e : SubmitError)
  deriving DecidableEq, Repr

/-- A stand-in for consensus. -/
structure Scripted where
  /-- Does the node lead? -/
  leads : Bool
  /-- The address of the leader. -/
  address : Option String
  /-- What is answered. -/
  script : Script := .silent
  /-- The entries that were submitted, first entry first. -/
  submitted : List Bytes := []
  /-- The store, which no entry changes. -/
  store : Store := ∅
  deriving Repr

namespace Scripted

/-- Remember an entry and answer as told. -/
def submit (s : Scripted) (entry : Bytes) (timeout : Nat) :
    Except SubmitError Accepted × Scripted :=
  let answer := match s.script with
    | .silent => .error (.timeout timeout)
    | .outcome o => .ok ⟨1, o⟩
    | .failure e => .error e
  (answer, { s with submitted := s.submitted ++ [entry] })

/-- Refuse a voter only if told to. -/
def addVoter (s : Scripted) (_ _ : String) : Except SubmitError Unit × Scripted :=
  match s.script with
  | .failure e => (.error e, s)
  | _ => (.ok (), s)

instance : Consensus Scripted where
  submit := submit
  isLeader := leads
  leaderAddress := address
  addVoter := addVoter
  store := store

end Scripted

end DurableKV
