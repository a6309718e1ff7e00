import DurableKV.Consensus.Basic
import DurableKV.Transactions

/-!
# The service

What clients can do with a node. Reads are answered from the node's own store and may be stale on a
follower. Writes, commits and new voters need a leader, and a node that does not lead refuses them
with the leader's address as a hint.

A transaction lives in the service from `begin` to `commit` or `abort`. What it reads and writes is
staged; `commit` submits it as one entry and closes it whatever comes of that. Operations are over
any `Consensus`, and each of them gives its answer together with the service after it.
-/

namespace DurableKV

/-- Why an operation was not done. -/
inductive ServiceError where
  /-- The node does not lead; the leader's address may be known. -/
  | notLeader (leader : Option String)
  /-- The transaction is not open. -/
  | transaction (cause : UnknownTransaction)
  /-- The transaction was refused because an observation no longer held. -/
  | conflict (c : Conflict)
  /-- The request lacks something. -/
  | invalidRequest (reason : String)
  /-- The entry has no written form. -/
  | encode (cause : EntryError)
  /-- Consensus did not accept the entry or the voter. -/
  | consensus (cause : SubmitError)
  /-- Applying the entry came to something that its kind cannot come to. -/
  | unexpected (o : Outcome)
  deriving DecidableEq, Repr

namespace ServiceError

/-- A failure of consensus as one of the service; a missing leader is the service's own. -/
def ofSubmit : SubmitError → ServiceError
  | .notLeader leader => notLeader leader
  | e => consensus e

/-- The wording of a failure. -/
def message : ServiceError → String
  | notLeader leader => notLeaderMessage leader
  | transaction cause => cause.message
  | conflict c => "transaction conflict: " ++ c.message
  | invalidRequest reason => "invalid request: " ++ reason
  | encode cause => "failed to encode command: " ++ cause.message
  | consensus cause => cause.message
  | unexpected o => "unexpected apply outcome: " ++ o.shown

/-- The code of a failure. -/
def code : ServiceError → String
  | notLeader _ => notLeaderCode
  | transaction cause => cause.code
  | conflict _ => "HELIOS_TX_CONFLICT"
  | invalidRequest _ => "HELIOS_INVALID_REQUEST"
  | encode _ => "HELIOS_ENCODE_FAILED"
  | consensus cause => cause.code
  | unexpected _ => "HELIOS_UNEXPECTED_OUTCOME"

/-- Does the failure end the node? -/
def isFatal : ServiceError → Bool
  | consensus cause => cause.isFatal
  | _ => false

end ServiceError

/-- A service over some consensus. -/
structure Service (σ : Type) where
  /-- What entries are submitted to. -/
  consensus : σ
  /-- The open transactions. -/
  transactions : Transactions := ∅
  /-- How long a submission may wait, in nanoseconds. -/
  timeout : Nat
  /-- The operations that were refused because the node did not lead. -/
  notLeader : UInt64 := 0

namespace Service

variable {σ : Type} [Consensus σ]

/-- The answer of an operation, and the service after it. -/
abbrev Answer (σ α : Type) := Except ServiceError α × Service σ

/-- The store that reads are answered from. -/
def store (s : Service σ) : Store := Consensus.store s.consensus

/-- An operation that needs a text to be present. -/
@[macro_inline] def requiring {α : Type} (name field : String) (s : Service σ)
    (act : Answer σ α) : Answer σ α :=
  if field = "" then (.error (.invalidRequest (name ++ " is missing")), s) else act

/-- An operation that needs the node to lead. -/
@[macro_inline] def leading {α : Type} (s : Service σ) (act : Answer σ α) : Answer σ α :=
  if Consensus.isLeader s.consensus then act
  else
    (.error (.notLeader (Consensus.leaderAddress s.consensus)),
      { s with notLeader := s.notLeader + 1 })

/-- Submit a command. -/
def submit (s : Service σ) (c : Command) : Answer σ Outcome :=
  match Consensus.submit s.consensus c.encode s.timeout with
  | (.ok accepted, consensus) => (.ok accepted.outcome, { s with consensus })
  | (.error e, consensus) => (.error (.ofSubmit e), { s with consensus })

/-! ## Single keys -/

/-- The value and version of a key. -/
def get (s : Service σ) (key : String) : Answer σ (Option Versioned) :=
  s.requiring "key" key (.ok (s.store.get? key), s)

/-- Set a key; its new version is the answer. -/
def set (s : Service σ) (key value : String) : Answer σ UInt64 :=
  s.requiring "key" key <| s.leading <|
    match s.submit (.set key value) with
    | (.ok (.set _ version), s) => (.ok version, s)
    | (.ok o, s) => (.error (.unexpected o), s)
    | (.error e, s) => (.error e, s)

/-- Delete a key. -/
def delete (s : Service σ) (key : String) : Answer σ Unit :=
  s.requiring "key" key <| s.leading <|
    match s.submit (.delete key) with
    | (.ok (.deleted _), s) => (.ok (), s)
    | (.ok o, s) => (.error (.unexpected o), s)
    | (.error e, s) => (.error e, s)

/-! ## Transactions -/

/-- Begin a transaction under a fresh id. -/
def begin (s : Service σ) (id : String) : Service σ :=
  { s with transactions := s.transactions.begin id }

/-- Read a key in a transaction, which stages the version that was seen. -/
def read (s : Service σ) (id key : String) : Answer σ (Option String) :=
  s.requiring "key" key <|
    match s.transactions.stageRead id key (s.store.version key) with
    | .ok transactions =>
      (.ok ((s.store.get? key).map Versioned.value), { s with transactions })
    | .error e => (.error (.transaction e), s)

/-- Stage a write in a transaction. -/
def stageWrite (s : Service σ) (id key value : String) : Answer σ Unit :=
  s.requiring "key" key <|
    match s.transactions.stageWrite id key value with
    | .ok transactions => (.ok (), { s with transactions })
    | .error e => (.error (.transaction e), s)

/-- Commit a transaction; the versions that its writes gave are the answer. -/
def commit (s : Service σ) (id : String) : Answer σ (List KeyVersion) :=
  s.leading <|
    match s.transactions.get? id with
    | none => (.error (.transaction ⟨id⟩), s)
    | some t =>
      let (result, s) := s.submit t.toCommand
      let s := { s with transactions := s.transactions.clear id }
      match result with
      | .ok (.committed versions) => (.ok versions, s)
      | .ok (.conflict c) => (.error (.conflict c), s)
      | .ok o => (.error (.unexpected o), s)
      | .error e => (.error e, s)

/-- Drop a transaction. -/
def abort (s : Service σ) (id : String) : Service σ :=
  { s with transactions := s.transactions.clear id }

/-! ## Members -/

/-- Add a voter with its address. -/
def join (s : Service σ) (nodeId address : String) : Answer σ Unit :=
  s.requiring "node_id" nodeId <| s.requiring "addr" address <| s.leading <|
    match Consensus.addVoter s.consensus nodeId address with
    | (.ok (), consensus) => (.ok (), { s with consensus })
    | (.error e, consensus) => (.error (.ofSubmit e), { s with consensus })

end Service

end DurableKV
