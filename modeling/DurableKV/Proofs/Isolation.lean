import DurableKV.Contention
import DurableKV.Proofs.Clients

/-!
# Transactions that are not committed

A transaction that nobody commits leaves no trace: if its operations are left out, all other clients
are told the same, and the node comes to the same state, but for that transaction itself
(`uncommitted_leaves_no_trace`).

The two runs are compared step by step. `AgreesBut id` says that two services differ at most in the
transaction `id`. An operation of that transaction, other than its commit, keeps the relation to a
service that does nothing (`AgreesBut.skip`). Any other operation is answered alike by both, and
keeps the relation too (`AgreesBut.answer`).
-/

namespace DurableKV.Service

section

variable {σ : Type} {id : String} {s t : Service σ}

/-- Two services that differ at most in one transaction. -/
structure AgreesBut (id : String) (s t : Service σ) : Prop where
  /-- Both services stand over the same consensus. -/
  consensus : t.consensus = s.consensus
  /-- Submissions may wait equally long in both. -/
  timeout : t.timeout = s.timeout
  /-- As many operations were refused for the leader. -/
  notLeader : t.notLeader = s.notLeader
  /-- Every other transaction is the same. -/
  transactions : ∀ j, j ≠ id → t.transactions.get? j = s.transactions.get? j

/-- A service agrees with itself. -/
theorem AgreesBut.refl (id : String) (s : Service σ) : AgreesBut id s s :=
  ⟨rfl, rfl, rfl, fun _ _ => rfl⟩

/-- Services over the same consensus go on over the same one. -/
theorem AgreesBut.withConsensus (h : AgreesBut id s t) {c c' : σ} (hc : c' = c) :
    AgreesBut id { s with consensus := c } { t with consensus := c' } :=
  ⟨hc, h.timeout, h.notLeader, h.transactions⟩

/-- Another transaction becomes the same in both. -/
theorem AgreesBut.insert (h : AgreesBut id s t) (j : String) (x : Transaction) :
    AgreesBut id { s with transactions := s.transactions.insert j x }
      { t with transactions := t.transactions.insert j x } := by
  refine ⟨h.consensus, h.timeout, h.notLeader, ?_⟩
  intro i hi
  simp only [Table.get?_insert, h.transactions i hi]

/-- A transaction is closed in both. -/
theorem AgreesBut.clear (h : AgreesBut id s t) (j : String) :
    AgreesBut id { s with transactions := s.transactions.clear j }
      { t with transactions := t.transactions.clear j } := by
  refine ⟨h.consensus, h.timeout, h.notLeader, ?_⟩
  intro i hi
  simp only [Transactions.clear, Table.get?_erase, h.transactions i hi]

/-- The one service changes the transaction that the two may differ in. -/
theorem AgreesBut.restage (h : AgreesBut id s t) {ts : Transactions}
    (hts : ∀ j, j ≠ id → ts.get? j = s.transactions.get? j) :
    AgreesBut id { s with transactions := ts } t := by
  refine ⟨h.consensus, h.timeout, h.notLeader, ?_⟩
  intro j hj
  exact (h.transactions j hj).trans (hts j hj).symm

/-- Two answers that are the same, from services that differ at most in one transaction. -/
def Answer.AgreesBut {α : Type} (id : String) (a b : Answer σ α) : Prop :=
  b.1 = a.1 ∧ Service.AgreesBut id a.2 b.2

section

variable {α : Type} {a b : Answer σ α}

/-- Answers that agree are told alike. -/
theorem Answer.AgreesBut.telling (h : a.AgreesBut id b) (result : α → Result) :
    (a.telling result).AgreesBut id (b.telling result) :=
  ⟨congrArg (Except.map result) h.1, h.2⟩

/-- Services that agree require the same. -/
theorem AgreesBut.requiring (h : AgreesBut id s t) (hact : a.AgreesBut id b)
    (name field : String) :
    (s.requiring name field a).AgreesBut id (t.requiring name field b) := by
  by_cases hfield : field = ""
  · rw [s.requiring_of_eq a hfield, t.requiring_of_eq b hfield]
    exact ⟨rfl, h⟩
  · rw [s.requiring_of_ne a hfield, t.requiring_of_ne b hfield]
    exact hact

/-- A write of another transaction is staged alike. -/
theorem AgreesBut.stageWrite {j : String} (h : AgreesBut id s t) (hj : j ≠ id)
    (key value : String) : (s.stageWrite j key value).AgreesBut id (t.stageWrite j key value) := by
  apply h.requiring
  rw [Transactions.stageWrite, Transactions.stageWrite, Transactions.stage,
    Transactions.stage, h.transactions j hj]
  cases s.transactions.get? j with
  | none => exact ⟨rfl, h⟩
  | some x => exact ⟨rfl, h.insert j _⟩

/-- Services that agree lead both or neither. -/
theorem AgreesBut.leading [Consensus σ] (h : AgreesBut id s t) (hact : a.AgreesBut id b) :
    (s.leading a).AgreesBut id (t.leading b) := by
  have hleads := congrArg Consensus.isLeader h.consensus
  cases hs : Consensus.isLeader s.consensus with
  | false =>
    rw [s.leading_of_follower a hs, t.leading_of_follower b (hleads.trans hs), h.consensus]
    exact ⟨rfl, rfl, h.timeout, congrArg (· + 1) h.notLeader, h.transactions⟩
  | true =>
    rw [s.leading_of_leader a hs, t.leading_of_leader b (hleads.trans hs)]
    exact hact

end

variable [Consensus σ]

/-- A command is submitted alike. -/
theorem AgreesBut.submit (h : AgreesBut id s t) (c : Command) :
    ∃ answer c', s.submit c = (answer, { s with consensus := c' }) ∧
      t.submit c = (answer, { t with consensus := c' }) := by
  simp only [Service.submit, h.consensus, h.timeout]
  rcases Consensus.submit s.consensus c.encode s.timeout with ⟨e | accepted, c'⟩
  · exact ⟨_, c', rfl, rfl⟩
  · exact ⟨_, c', rfl, rfl⟩

/-- Services that agree have the same store. -/
theorem AgreesBut.store (h : AgreesBut id s t) : t.store = s.store :=
  congrArg Consensus.store h.consensus

/-! ## Operations -/

/-- A lookup is answered alike. -/
theorem AgreesBut.get (h : AgreesBut id s t) (key : String) :
    (s.get key).AgreesBut id (t.get key) := by
  apply h.requiring
  rw [h.store]
  exact ⟨rfl, h⟩

/-- A set is answered alike. -/
theorem AgreesBut.set (h : AgreesBut id s t) (key value : String) :
    (s.set key value).AgreesBut id (t.set key value) := by
  rw [set_eq, set_eq]
  apply h.requiring
  apply h.leading
  obtain ⟨answer, c, hs, ht⟩ := h.submit (.set key value)
  rw [hs, ht]
  exact ⟨rfl, h.withConsensus rfl⟩

/-- A delete is answered alike. -/
theorem AgreesBut.delete (h : AgreesBut id s t) (key : String) :
    (s.delete key).AgreesBut id (t.delete key) := by
  rw [delete_eq, delete_eq]
  apply h.requiring
  apply h.leading
  obtain ⟨answer, c, hs, ht⟩ := h.submit (.delete key)
  rw [hs, ht]
  exact ⟨rfl, h.withConsensus rfl⟩

/-- A new voter is answered alike. -/
theorem AgreesBut.join (h : AgreesBut id s t) (nodeId address : String) :
    (s.join nodeId address).AgreesBut id (t.join nodeId address) := by
  apply h.requiring
  apply h.requiring
  apply h.leading
  rw [h.consensus]
  rcases Consensus.addVoter s.consensus nodeId address with ⟨e | _, c⟩
  · exact ⟨rfl, h.withConsensus rfl⟩
  · exact ⟨rfl, h.withConsensus rfl⟩

/-- A read of another transaction is answered alike. -/
theorem AgreesBut.read {j : String} (h : AgreesBut id s t) (hj : j ≠ id) (key : String) :
    (s.read j key).AgreesBut id (t.read j key) := by
  apply h.requiring
  rw [h.store, Transactions.stageRead, Transactions.stageRead, Transactions.stage,
    Transactions.stage, h.transactions j hj]
  cases s.transactions.get? j with
  | none => exact ⟨rfl, h⟩
  | some x => exact ⟨rfl, h.insert j _⟩

/-- A commit of another transaction is answered alike. -/
theorem AgreesBut.commit {j : String} (h : AgreesBut id s t) (hj : j ≠ id) :
    (s.commit j).AgreesBut id (t.commit j) := by
  apply h.leading
  rw [h.transactions j hj]
  cases s.transactions.get? j with
  | none => exact ⟨rfl, h⟩
  | some x =>
    dsimp only
    obtain ⟨answer, c, hs, ht⟩ := h.submit x.toCommand
    rw [hs, ht]
    have hclosed := (h.withConsensus (show c = c from rfl)).clear j
    rcases answer with e | o
    · exact ⟨rfl, hclosed⟩
    · cases o <;> exact ⟨rfl, hclosed⟩

/-- **An operation that is no part of a transaction does not depend on it.** -/
theorem AgreesBut.answer (h : AgreesBut id s t) {op : Operation} (hop : op.transaction? ≠ some id) :
    (s.answer op).AgreesBut id (t.answer op) := by
  cases op with
  | get key => exact (h.get key).telling _
  | set key value => exact (h.set key value).telling _
  | delete key => exact (h.delete key).telling _
  | begin j => exact ⟨rfl, h.insert j {}⟩
  | read j key => exact (h.read (hop <| congrArg some ·) key).telling _
  | stageWrite j key value => exact (h.stageWrite (hop <| congrArg some ·) key value).telling _
  | commit j => exact (h.commit (hop <| congrArg some ·)).telling _
  | abort j => exact ⟨rfl, h.clear j⟩
  | join nodeId address => exact (h.join nodeId address).telling _

/-- **An operation of a transaction changes nothing else**, unless it is the commit. -/
theorem AgreesBut.skip (h : AgreesBut id s t) {op : Operation} (hop : op.transaction? = some id)
    (hcommit : op ≠ .commit id) : AgreesBut id (s.perform op) t := by
  have hinsert : ∀ x : Transaction, AgreesBut id
      { s with transactions := s.transactions.insert id x } t := by
    intro x
    apply h.restage
    intro j hj
    rw [Table.get?_insert, if_neg (Ne.symm hj)]
  cases op with
  | begin j =>
    obtain rfl : j = id := Option.some.inj hop
    exact hinsert {}
  | read j key =>
    obtain rfl : j = id := Option.some.inj hop
    show AgreesBut j (s.read j key).2 t
    rcases s.read_cases j key with ⟨x, -, hread⟩ | ⟨e, hread⟩
    · rw [hread]
      exact hinsert _
    · rw [hread]
      exact h
  | stageWrite j key value =>
    obtain rfl : j = id := Option.some.inj hop
    show AgreesBut j (s.stageWrite j key value).2 t
    rcases s.stageWrite_cases j key value with ⟨x, -, hwrite⟩ | ⟨e, hwrite⟩
    · rw [hwrite]
      exact hinsert _
    · rw [hwrite]
      exact h
  | commit j =>
    obtain rfl : j = id := Option.some.inj hop
    exact absurd rfl hcommit
  | abort j =>
    obtain rfl : j = id := Option.some.inj hop
    apply h.restage
    intro i hi
    rw [Transactions.clear, Table.get?_erase, if_neg (Ne.symm hi)]
  | get key => simp [Operation.transaction?] at hop
  | set key value => simp [Operation.transaction?] at hop
  | delete key => simp [Operation.transaction?] at hop
  | join nodeId address => simp [Operation.transaction?] at hop

/-! ## Runs -/

/-- What is left of a run without the operations of one transaction. -/
def sparing (id : String) (events : List (Event σ)) : List (Event σ) :=
  events.filter (·.transaction? ≠ some id)

/-- The two runs, one with the operations of a transaction and one without them. -/
theorem AgreesBut.run {events : List (Event σ)} (h : AgreesBut id s t)
    (hnever : .client (.commit id) ∉ events) :
    t.transcript (sparing id events) =
        (s.transcript events).filter (·.operation.transaction? ≠ some id) ∧
      AgreesBut id (s.after events) (t.after (sparing id events)) := by
  induction events generalizing s t with
  | nil => exact ⟨rfl, h⟩
  | cons event events ih =>
    rw [List.mem_cons, not_or] at hnever
    obtain ⟨hhead, htail⟩ := hnever
    cases event with
    | behind change =>
      exact ih (h.withConsensus (congrArg change h.consensus)) htail
    | client op =>
      by_cases hop : op.transaction? = some id
      · have hkept : sparing id (.client op :: events) = sparing id events :=
          List.filter_cons_of_neg (by simp [Event.transaction?, hop])
        rw [hkept, transcript, List.filter_cons_of_neg (by simp [hop])]
        exact ih (h.skip hop (by rintro rfl; exact hhead rfl)) htail
      · have hkept : sparing id (.client op :: events) = .client op :: sparing id events :=
          List.filter_cons_of_pos (by simp [Event.transaction?, hop])
        obtain ⟨hanswer, hagrees⟩ :
            (t.answer op).1 = (s.answer op).1 ∧ AgreesBut id (s.perform op) (t.perform op) :=
          h.answer hop
        obtain ⟨htranscript, hafter⟩ := ih hagrees htail
        rw [hkept, transcript, transcript, List.filter_cons_of_pos (by simp [hop]),
          htranscript, hanswer, hagrees.store]
        exact ⟨rfl, hafter⟩

end

/-- **A transaction that is never committed leaves no trace.** A service stands over a replica in
any state. Its clients do anything, and meanwhile anything may happen to the replica and to those
who hold its log. If all operations of the transaction are left out, every other operation is answered
as it was, with the same store behind it. At the end the replica is the same, with its log, the
position of the last entry, the voters and the counters, and as many operations have been refused
for the leader. The open transactions differ in that one at most. -/
theorem uncommitted_leaves_no_trace (s : Service Contended) {id : String}
    {events : List (Event Contended)} (hnever : .client (.commit id) ∉ events) :
    s.transcript (sparing id events) =
        (s.transcript events).filter (·.operation.transaction? ≠ some id) ∧
      (s.after (sparing id events)).consensus.replica = (s.after events).consensus.replica ∧
      (s.after (sparing id events)).notLeader = (s.after events).notLeader ∧
      ∀ j, j ≠ id → (s.after (sparing id events)).transactions.get? j =
        (s.after events).transactions.get? j := by
  obtain ⟨htranscript, hagrees⟩ := (AgreesBut.refl id s).run hnever
  exact ⟨htranscript, congrArg Contended.replica hagrees.consensus, hagrees.notLeader,
    hagrees.transactions⟩

/-- A transaction reads a key and stages a write to it, while another client sets the key and the
node gives up leadership; then it is dropped. -/
theorem uncommitted_leaves_no_trace_abort :
    let machine : Machine := { log := { path := "wal.log", next := 1, medium := .ofFile {} } }
    let s : Service Contended :=
      { consensus := ⟨.bootstrap "n" "h:1" machine, false⟩, timeout := 0 }
    let lose : Event Contended := .behind fun c => { c with replica := c.replica.stepDown none }
    let events := [.client (.begin "t"), .client (.read "t" "k"), .client (.set "k" "a"),
      .client (.stageWrite "t" "k" "b"), lose, .client (.abort "t"), .client (.set "k" "c")]
    let others := [.client (.set "k" "a"), lose, .client (.set "k" "c")]
    (s.transcript others).map Exchange.operation = [.set "k" "a", .set "k" "c"] ∧
      s.transcript others =
        (s.transcript events).filter (·.operation.transaction? ≠ some "t") ∧
      (s.after others).consensus.replica = (s.after events).consensus.replica := by
  intro machine s lose events others
  have hnever : .client (.commit "t") ∉ events := by
    simp [events, lose]
  obtain ⟨htranscript, hreplica, -⟩ := uncommitted_leaves_no_trace s hnever
  exact ⟨rfl, htranscript, hreplica⟩

end DurableKV.Service
