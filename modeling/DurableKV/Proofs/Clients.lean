import DurableKV.Proofs.Service

/-!
# Clients of a service

What clients do with a service one after the other, and what they are told, over any consensus.
Between two operations anything may happen to what stands behind the service (`Event.behind`):
leadership may be lost and won, the log may be taken by others and left again, its file may fail,
and the store may change. The open transactions are the service's own, and only operations change
them.
-/

namespace DurableKV.Service

/-- What clients can do with a service. -/
inductive Operation where
  /-- Look a key up. -/
  | get (key : String)
  /-- Set a key. -/
  | set (key value : String)
  /-- Delete a key. -/
  | delete (key : String)
  /-- Begin a transaction. -/
  | begin (id : String)
  /-- Read a key in a transaction. -/
  | read (id key : String)
  /-- Stage a write in a transaction. -/
  | stageWrite (id key value : String)
  /-- Commit a transaction. -/
  | commit (id : String)
  /-- Drop a transaction. -/
  | abort (id : String)
  /-- Add a voter. -/
  | join (nodeId address : String)
  deriving DecidableEq, Repr

/-- What an operation that was done tells its client. -/
inductive Result where
  /-- The value and version of a key. -/
  | found (v : Option Versioned)
  /-- The version that a key was given. -/
  | written (version : UInt64)
  /-- The id of a new transaction. -/
  | begun (id : String)
  /-- The value of a key in a transaction. -/
  | value (v : Option String)
  /-- The versions that a transaction gave. -/
  | committed (versions : List KeyVersion)
  /-- That it was done. -/
  | done
  deriving DecidableEq, Repr

/-- An answer as clients are told it. -/
def Answer.telling {σ α : Type} (a : Answer σ α) (result : α → Result) : Answer σ Result :=
  (a.1.map result, a.2)

/-- The transaction that an operation is part of. -/
def Operation.transaction? : Operation → Option String
  | .begin id | .read id _ | .stageWrite id _ _ | .commit id | .abort id => some id
  | .get _ | .set .. | .delete _ | .join .. => none

/-- Something that happens to a service. -/
inductive Event (σ : Type) where
  /-- A client does something. -/
  | client (op : Operation)
  /-- What stands behind the service changes. -/
  | behind (change : σ → σ)

/-- The transaction that an event is part of. -/
def Event.transaction? {σ : Type} : Event σ → Option String
  | .client op => op.transaction?
  | .behind _ => none

section

variable {σ : Type} [Consensus σ]

/-- The answer of an operation, and the service after it. -/
def answer (s : Service σ) : Operation → Answer σ Result
  | .get key => (s.get key).telling .found
  | .set key value => (s.set key value).telling .written
  | .delete key => (s.delete key).telling fun () => .done
  | .begin id => (.ok (.begun id), s.begin id)
  | .read id key => (s.read id key).telling .value
  | .stageWrite id key value => (s.stageWrite id key value).telling fun () => .done
  | .commit id => (s.commit id).telling .committed
  | .abort id => (.ok .done, s.abort id)
  | .join nodeId address => (s.join nodeId address).telling fun () => .done

/-- The service after an operation. -/
def perform (s : Service σ) (op : Operation) : Service σ := (s.answer op).2

/-- The service after operations, one after the other. -/
def performAll (s : Service σ) (ops : List Operation) : Service σ := ops.foldl perform s

/-! Which operation of the service each of them is: `perform` is unfolded by these alone. -/

/-- A lookup leaves what `get` leaves. -/
@[simp] theorem perform_get (s : Service σ) (key : String) :
    s.perform (.get key) = (s.get key).2 := rfl

/-- A set leaves what `set` leaves. -/
@[simp] theorem perform_set (s : Service σ) (key value : String) :
    s.perform (.set key value) = (s.set key value).2 := rfl

/-- A delete leaves what `delete` leaves. -/
@[simp] theorem perform_delete (s : Service σ) (key : String) :
    s.perform (.delete key) = (s.delete key).2 := rfl

/-- A begin leaves what `begin` leaves. -/
@[simp] theorem perform_begin (s : Service σ) (id : String) :
    s.perform (.begin id) = s.begin id := rfl

/-- A read leaves what `read` leaves. -/
@[simp] theorem perform_read (s : Service σ) (id key : String) :
    s.perform (.read id key) = (s.read id key).2 := rfl

/-- A staged write leaves what `stageWrite` leaves. -/
@[simp] theorem perform_stageWrite (s : Service σ) (id key value : String) :
    s.perform (.stageWrite id key value) = (s.stageWrite id key value).2 := rfl

/-- A commit leaves what `commit` leaves. -/
@[simp] theorem perform_commit (s : Service σ) (id : String) :
    s.perform (.commit id) = (s.commit id).2 := rfl

/-- An abort leaves what `abort` leaves. -/
@[simp] theorem perform_abort (s : Service σ) (id : String) :
    s.perform (.abort id) = s.abort id := rfl

/-- A new voter leaves what `join` leaves. -/
@[simp] theorem perform_join (s : Service σ) (nodeId address : String) :
    s.perform (.join nodeId address) = (s.join nodeId address).2 := rfl

/-- No operations leave the service as it is. -/
@[simp] theorem performAll_nil (s : Service σ) : s.performAll [] = s := rfl

/-- Operations go on behind the first one. -/
@[simp] theorem performAll_cons (s : Service σ) (op : Operation) (ops : List Operation) :
    s.performAll (op :: ops) = (s.perform op).performAll ops := rfl

/-- Operations go on behind others. -/
theorem performAll_append (as bs : List Operation) (s : Service σ) :
    s.performAll (as ++ bs) = (s.performAll as).performAll bs :=
  List.foldl_append

/-- The service after an event. -/
def next (s : Service σ) : Event σ → Service σ
  | .client op => s.perform op
  | .behind change => { s with consensus := change s.consensus }

/-- The service after events, one after the other. -/
def after (s : Service σ) (events : List (Event σ)) : Service σ := events.foldl next s

/-- Events go on behind the first one. -/
theorem after_cons (s : Service σ) (event : Event σ) (events : List (Event σ)) :
    s.after (event :: events) = (s.next event).after events := rfl

/-- Events go on behind others. -/
theorem after_append (s : Service σ) (events more : List (Event σ)) :
    s.after (events ++ more) = (s.after events).after more :=
  List.foldl_append

/-- What a client did, what it was told, and the store behind it. -/
structure Exchange where
  /-- What it did. -/
  operation : Operation
  /-- What it was told. -/
  result : Except ServiceError Result
  /-- The store after that. -/
  store : Store

/-- What clients did and were told, one after the other. -/
def transcript (s : Service σ) : List (Event σ) → List Exchange
  | [] => []
  | .client op :: events =>
    ⟨op, (s.answer op).1, (s.perform op).store⟩ :: (s.perform op).transcript events
  | .behind change :: events => transcript { s with consensus := change s.consensus } events

end

/-- An operation that is part of no transaction leaves all of them as they were. -/
theorem transactions_answer {σ : Type} [Consensus σ] (s : Service σ) {op : Operation}
    (hop : op.transaction? = none) : (s.answer op).2.transactions = s.transactions := by
  have hrequiring : ∀ {α : Type} {act : Answer σ α} (name field : String),
      act.2.transactions = s.transactions →
      (s.requiring name field act).2.transactions = s.transactions := by
    intro α act name field hact
    rcases s.requiring_cases act name field with h | ⟨e, h⟩
    · rwa [h]
    · rw [h]
  have hleading : ∀ {α : Type} {act : Answer σ α}, act.2.transactions = s.transactions →
      (s.leading act).2.transactions = s.transactions := by
    intro α act hact
    rcases s.leading_cases act with h | ⟨e, h⟩
    · rwa [h]
    · rw [h]
  cases op with
  | get key => exact congrArg transactions (s.get_kept key)
  | set key value =>
    have hsubmit := congrArg transactions (s.snd_submit (.set key value))
    show (s.set key value).2.transactions = _
    rw [set_eq]
    exact hrequiring "key" key (hleading hsubmit)
  | delete key =>
    have hsubmit := congrArg transactions (s.snd_submit (.delete key))
    show (s.delete key).2.transactions = _
    rw [delete_eq]
    exact hrequiring "key" key (hleading hsubmit)
  | join nodeId address =>
    refine hrequiring "node_id" nodeId (hrequiring "addr" address (hleading ?_))
    rcases Consensus.addVoter s.consensus nodeId address with ⟨e | _, c⟩ <;> rfl
  | begin id => simp [Operation.transaction?] at hop
  | read id key => simp [Operation.transaction?] at hop
  | stageWrite id key value => simp [Operation.transaction?] at hop
  | commit id => simp [Operation.transaction?] at hop
  | abort id => simp [Operation.transaction?] at hop

/-- Clients are told the same over another kind of consensus that does the same. -/
theorem answer_map {σ τ : Type} [Consensus σ] [Consensus τ] {f : σ → τ} (hf : Consensus.Hom f)
    (s : Service σ) (op : Operation) : (s.map f).answer op = Answer.over f (s.answer op) := by
  cases op with
  | get key => exact congrArg (Answer.telling · _) (get_map hf s key)
  | set key value => exact congrArg (Answer.telling · _) (set_map hf s key value)
  | delete key => exact congrArg (Answer.telling · _) (delete_map hf s key)
  | begin id => rfl
  | read id key => exact congrArg (Answer.telling · _) (read_map hf s id key)
  | stageWrite id key value => exact congrArg (Answer.telling · _) (stageWrite_map s id key value)
  | commit id => exact congrArg (Answer.telling · _) (commit_map hf s id)
  | abort id => rfl
  | join nodeId address => exact congrArg (Answer.telling · _) (join_map hf s nodeId address)

end DurableKV.Service
