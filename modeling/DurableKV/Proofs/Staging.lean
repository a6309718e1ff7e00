import DurableKV.Consensus.Scripted
import DurableKV.Proofs.Clients

/-!
# What is staged, and what is submitted

A transaction is submitted at most once, with exactly what was staged in it, whatever stands behind
the service and whatever it answers (`submitted_at_most_once`).

What a service submits is what is recorded when it stands over a consensus that keeps a record
(`Recorded`); the record makes no difference to anything else (`answer_recording`). A commit goes in
one of three ways (`CommitExit`): it is refused for the leader and leaves everything as it was, or
the transaction is not open, or the transaction is submitted and closed. The invariant of a run is
`Account`: an open transaction holds what was observed and assigned in it, and has not been
submitted. Since ids are fresh, a transaction that is closed stays closed.
-/

namespace DurableKV

/-! ## A record of what is submitted -/

/-- Consensus of some kind, with a record of what was submitted to it. -/
structure Recorded (σ : Type) where
  /-- What stands behind it. -/
  inner : σ
  /-- The entries that were submitted, first entry first. -/
  submitted : List Bytes := []

namespace Recorded

variable {σ : Type} [Consensus σ]

instance : Consensus (Recorded σ) where
  submit c entry timeout :=
    let (answer, inner) := Consensus.submit c.inner entry timeout
    (answer, ⟨inner, c.submitted ++ [entry]⟩)
  isLeader c := Consensus.isLeader c.inner
  leaderAddress c := Consensus.leaderAddress c.inner
  addVoter c nodeId address :=
    let (answer, inner) := Consensus.addVoter c.inner nodeId address
    (answer, { c with inner })
  store c := Consensus.store c.inner

/-- The record makes no difference. -/
theorem hom_inner : Consensus.Hom (inner : Recorded σ → σ) where
  submit _ _ _ := rfl
  isLeader _ := rfl
  leaderAddress _ := rfl
  addVoter _ _ _ := rfl
  store _ := rfl

end Recorded

namespace Service

variable {σ : Type}

/-- The same service, over a consensus that keeps a record from now on. -/
def recording (s : Service σ) : Service (Recorded σ) := s.map fun c => { inner := c }

section

variable [Consensus σ]

/-- The entries that an operation submits. -/
def calls (s : Service σ) (op : Operation) : List Bytes :=
  (s.recording.answer op).2.consensus.submitted

/-- **Recording changes neither what clients are told nor what becomes of the service.** -/
theorem answer_recording (s : Service σ) (op : Operation) :
    s.answer op = Answer.over Recorded.inner (s.recording.answer op) :=
  answer_map Recorded.hom_inner s.recording op

/-- A command is submitted as its bytes. -/
theorem submitted_submit (s : Service (Recorded σ)) (c : Command) :
    (s.submit c).2.consensus.submitted = s.consensus.submitted ++ [c.encode] := by
  rw [snd_submit]
  rfl

end

/-! ## Operations that commit nothing -/

/-- Entries none of which commits a transaction. -/
def CommitNothing (bs : List Bytes) : Prop :=
  ∀ b ∈ bs, ∀ reads writes, Entry.decode b ≠ .ok (.command (.commit reads writes))

/-- No entries commit nothing. -/
theorem commitNothing_nil : CommitNothing [] := fun _ hb => absurd hb List.not_mem_nil

/-- The entry of a command that is no commit commits nothing. -/
theorem commitNothing_encode {c : Command} (hc : ∀ reads writes, c ≠ .commit reads writes) :
    CommitNothing [c.encode] := by
  intro b hb reads writes hdecode
  rw [List.mem_singleton.1 hb, Command.decode_encode] at hdecode
  exact hc reads writes (Entry.command.inj (Except.ok.inj hdecode))

section

variable {α : Type} {s : Service σ} {act : Answer (Recorded σ) α}
  (h : CommitNothing act.2.consensus.submitted)
include h

/-- An operation that commits nothing does not with a text required. -/
theorem commitNothing_requiring (name field : String) :
    CommitNothing (s.recording.requiring name field act).2.consensus.submitted := by
  rcases s.recording.requiring_cases act name field with hact | ⟨e, herror⟩
  · rwa [hact]
  · rw [herror]
    exact commitNothing_nil

/-- An operation that commits nothing does not with leadership required. -/
theorem commitNothing_leading [Consensus σ] :
    CommitNothing (s.recording.leading act).2.consensus.submitted := by
  rcases s.recording.leading_cases act with hact | ⟨e, herror⟩
  · rwa [hact]
  · rw [herror]
    exact commitNothing_nil

end

section

variable [Consensus σ] (s : Service σ)

/-- Setting a key commits nothing. -/
theorem commitNothing_set (key value : String) : CommitNothing (s.calls (.set key value)) := by
  show CommitNothing (s.recording.set key value).2.consensus.submitted
  rw [set_eq]
  apply commitNothing_requiring
  apply commitNothing_leading
  show CommitNothing (s.recording.submit (.set key value)).2.consensus.submitted
  rw [submitted_submit]
  exact commitNothing_encode (by simp)

/-- Deleting a key commits nothing. -/
theorem commitNothing_delete (key : String) : CommitNothing (s.calls (.delete key)) := by
  show CommitNothing (s.recording.delete key).2.consensus.submitted
  rw [delete_eq]
  apply commitNothing_requiring
  apply commitNothing_leading
  show CommitNothing (s.recording.submit (.delete key)).2.consensus.submitted
  rw [submitted_submit]
  exact commitNothing_encode (by simp)

/-- Adding a voter commits nothing. -/
theorem commitNothing_join (nodeId address : String) :
    CommitNothing (s.calls (.join nodeId address)) := by
  apply commitNothing_requiring
  apply commitNothing_requiring
  apply commitNothing_leading
  have hsubmitted : (Consensus.addVoter s.recording.consensus nodeId address).2.submitted = [] :=
    rfl
  rcases hadd : Consensus.addVoter s.recording.consensus nodeId address with ⟨e | _, c⟩
  · rw [hadd] at hsubmitted
    exact hsubmitted ▸ commitNothing_nil
  · rw [hadd] at hsubmitted
    exact hsubmitted ▸ commitNothing_nil

/-- **Only the commit of a transaction submits one.** -/
theorem commitNothing_calls {op : Operation} (hop : ∀ id, op ≠ .commit id) :
    CommitNothing (s.calls op) := by
  cases op with
  | get key =>
    show CommitNothing (s.recording.get key).2.consensus.submitted
    rw [get_kept]
    exact commitNothing_nil
  | set key value => exact s.commitNothing_set key value
  | delete key => exact s.commitNothing_delete key
  | begin id => exact commitNothing_nil
  | read id key =>
    show CommitNothing (s.recording.read id key).2.consensus.submitted
    rcases s.recording.read_cases id key with ⟨t, -, hread⟩ | ⟨e, hread⟩
    · rw [hread]
      exact commitNothing_nil
    · rw [hread]
      exact commitNothing_nil
  | stageWrite id key value =>
    show CommitNothing (s.recording.stageWrite id key value).2.consensus.submitted
    rcases s.recording.stageWrite_cases id key value with ⟨t, -, hwrite⟩ | ⟨e, hwrite⟩
    · rw [hwrite]
      exact commitNothing_nil
    · rw [hwrite]
      exact commitNothing_nil
  | commit id => exact absurd rfl (hop id)
  | abort id => exact commitNothing_nil
  | join nodeId address => exact s.commitNothing_join nodeId address

end

section

variable [Consensus σ]

/-! ## The commit -/

/-- The ways in which a commit can go, with what it submits. -/
inductive CommitExit (s : Service σ) (id : String) :
    Answer σ (List KeyVersion) → List Bytes → Prop where
  /-- The node does not lead, and only that is counted. -/
  | notLeader (hfollows : Consensus.isLeader s.consensus = false) :
      CommitExit s id (.error (.notLeader (Consensus.leaderAddress s.consensus)),
        { s with notLeader := s.notLeader + 1 }) []
  /-- The transaction is not open. -/
  | unknown (hleads : Consensus.isLeader s.consensus = true)
      (hclosed : s.transactions.get? id = none) :
      CommitExit s id (.error (.transaction ⟨id⟩), s) []
  /-- The transaction is submitted and closed, whatever consensus answers. -/
  | submitted {t : Transaction} (hleads : Consensus.isLeader s.consensus = true)
      (hopen : s.transactions.get? id = some t) (answer : Except ServiceError (List KeyVersion))
      (consensus : σ) :
      CommitExit s id
        (answer, { s with consensus, transactions := s.transactions.clear id }) [t.toCommand.encode]

/-- **How a commit can go.** -/
theorem commitExit (s : Service σ) (id : String) :
    CommitExit s id (s.commit id) (s.calls (.commit id)) := by
  have hcommit : s.commit id = Answer.over Recorded.inner (s.recording.commit id) :=
    commit_map Recorded.hom_inner s.recording id
  have hcalls : s.calls (.commit id) = (s.recording.commit id).2.consensus.submitted := rfl
  rw [hcommit, hcalls]
  cases hleads : Consensus.isLeader s.consensus with
  | false =>
    rw [show s.recording.commit id = _ from s.recording.leading_of_follower _ hleads]
    exact .notLeader hleads
  | true =>
    rw [show s.recording.commit id = _ from s.recording.leading_of_leader _ hleads]
    have htransactions : s.recording.transactions = s.transactions := rfl
    rw [htransactions]
    cases hopen : s.transactions.get? id with
    | none => exact .unknown hleads hopen
    | some t =>
      have hafter := s.recording.snd_submit t.toCommand
      dsimp only
      rcases hsubmit : s.recording.submit t.toCommand with ⟨e | o, r⟩
      · rw [hsubmit] at hafter
        subst hafter
        exact .submitted hleads hopen _ _
      · rw [hsubmit] at hafter
        subst hafter
        cases o <;> exact .submitted hleads hopen _ _

/-! ## What is staged -/

/-- What a successful read adds to a transaction: its key, with the version at that time. -/
def observedBy (id : String) (s : Service σ) : Event σ → List Observation
  | .client (.read j key) =>
    match (s.read j key).1 with
    | .ok _ => if j = id then [⟨key, s.store.version key⟩] else []
    | .error _ => []
  | _ => []

/-- What a successful write adds to a transaction. -/
def assignedBy (id : String) (s : Service σ) : Event σ → List Assignment
  | .client (.stageWrite j key value) =>
    match (s.stageWrite j key value).1 with
    | .ok _ => if j = id then [⟨key, value⟩] else []
    | .error _ => []
  | _ => []

/-- The entries that the commit of a transaction submits. -/
def submittedBy (id : String) (s : Service σ) : Event σ → List Bytes
  | .client (.commit j) => if j = id then s.calls (.commit j) else []
  | _ => []

/-- Does an event begin a transaction under this id? -/
def Event.begins (id : String) : Event σ → Bool
  | .client (.begin j) => j = id
  | _ => false

/-- What events add one after the other. -/
def collect {α : Type} (added : Service σ → Event σ → List α) (s : Service σ) :
    List (Event σ) → List α
  | [] => []
  | event :: events => added s event ++ collect added (s.next event) events

/-- The observations of a transaction in a run. -/
def observed (id : String) (s : Service σ) (events : List (Event σ)) : List Observation :=
  s.collect (observedBy id) events

/-- The assignments of a transaction in a run. -/
def assigned (id : String) (s : Service σ) (events : List (Event σ)) : List Assignment :=
  s.collect (assignedBy id) events

/-- The entries that the commits of a transaction submit in a run. -/
def submissions (id : String) (s : Service σ) (events : List (Event σ)) : List Bytes :=
  s.collect (submittedBy id) events

/-- An operation that is no part of a transaction adds nothing to it. -/
theorem adds_nothing {id : String} (s : Service σ) {op : Operation}
    (hop : op.transaction? ≠ some id) :
    (Event.client (σ := σ) op).begins id = false ∧ observedBy id s (.client op) = [] ∧
      assignedBy id s (.client op) = [] ∧ submittedBy id s (.client op) = [] := by
  cases op with
  | begin j =>
    have hj : j ≠ id := fun heq => hop (congrArg some heq)
    exact ⟨decide_eq_false hj, rfl, rfl, rfl⟩
  | read j key =>
    have hj : j ≠ id := fun heq => hop (congrArg some heq)
    refine ⟨rfl, ?_, rfl, rfl⟩
    simp only [observedBy, if_neg hj]
    split <;> rfl
  | stageWrite j key value =>
    have hj : j ≠ id := fun heq => hop (congrArg some heq)
    refine ⟨rfl, rfl, ?_, rfl⟩
    simp only [assignedBy, if_neg hj]
    split <;> rfl
  | commit j =>
    have hj : j ≠ id := fun heq => hop (congrArg some heq)
    exact ⟨rfl, rfl, rfl, if_neg hj⟩
  | get key => exact ⟨rfl, rfl, rfl, rfl⟩
  | set key value => exact ⟨rfl, rfl, rfl, rfl⟩
  | delete key => exact ⟨rfl, rfl, rfl, rfl⟩
  | abort j => exact ⟨rfl, rfl, rfl, rfl⟩
  | join nodeId address => exact ⟨rfl, rfl, rfl, rfl⟩

/-- An operation that is no part of a transaction leaves it as it was. -/
theorem get?_answer {id : String} (s : Service σ) {op : Operation}
    (hop : op.transaction? ≠ some id) :
    (s.answer op).2.transactions.get? id = s.transactions.get? id := by
  cases op with
  | get key => rw [s.transactions_answer rfl]
  | set key value => rw [s.transactions_answer rfl]
  | delete key => rw [s.transactions_answer rfl]
  | join nodeId address => rw [s.transactions_answer rfl]
  | begin j =>
    have hj : j ≠ id := fun heq => hop (congrArg some heq)
    exact (s.transactions.get?_insert j id {}).trans (if_neg hj)
  | read j key =>
    have hj : j ≠ id := fun heq => hop (congrArg some heq)
    show (s.read j key).2.transactions.get? id = _
    rcases s.read_cases j key with ⟨t, -, hread⟩ | ⟨e, hread⟩
    · rw [hread]
      exact (s.transactions.get?_insert j id _).trans (if_neg hj)
    · rw [hread]
  | stageWrite j key value =>
    have hj : j ≠ id := fun heq => hop (congrArg some heq)
    show (s.stageWrite j key value).2.transactions.get? id = _
    rcases s.stageWrite_cases j key value with ⟨t, -, hwrite⟩ | ⟨e, hwrite⟩
    · rw [hwrite]
      exact (s.transactions.get?_insert j id _).trans (if_neg hj)
    · rw [hwrite]
  | commit j =>
    have hj : j ≠ id := fun heq => hop (congrArg some heq)
    show (s.commit j).2.transactions.get? id = _
    have hexit := s.commitExit j
    generalize s.commit j = result, s.calls (.commit j) = entries at hexit
    cases hexit with
    | notLeader hfollows => rfl
    | unknown hleads hclosed => rfl
    | submitted hleads hopen answer consensus =>
      exact (s.transactions.get?_erase j id).trans (if_neg hj)
  | abort j =>
    have hj : j ≠ id := fun heq => hop (congrArg some heq)
    exact (s.transactions.get?_erase j id).trans (if_neg hj)

end

/-! ## The account of a transaction -/

/-- A service in which a transaction has been begun so often, has made these observations and
assignments, and has been submitted as these entries. -/
structure Account (id : String) (begun : Nat) (reads : List Observation) (writes : List Assignment)
    (entries : List Bytes) (s : Service σ) : Prop where
  /-- If it is open it holds what was staged in it, and has not been submitted. -/
  staged : ∀ t, s.transactions.get? id = some t → t = ⟨reads, writes⟩ ∧ entries = [] ∧ 0 < begun
  /-- Nothing was done in it before it was begun. -/
  fresh : begun = 0 → reads = [] ∧ writes = [] ∧ entries = []
  /-- The transaction was submitted once at most. -/
  once : entries.length ≤ 1

section

variable {id : String} {begun : Nat} {reads : List Observation} {writes : List Assignment}
  {entries : List Bytes} {s s' : Service σ}

/-- An id that is not open, and has not been used. -/
theorem account_of_closed (hclosed : s.transactions.get? id = none) : Account id 0 [] [] [] s := by
  refine ⟨?_, fun _ => ⟨rfl, rfl, rfl⟩, Nat.zero_le 1⟩
  intro t hopen
  cases hclosed.symm.trans hopen

/-- Nothing happens to the transaction. -/
theorem Account.kept (h : Account id begun reads writes entries s)
    (hkept : s'.transactions.get? id = s.transactions.get? id) :
    Account id begun reads writes entries s' := by
  refine ⟨?_, h.fresh, h.once⟩
  rw [hkept]
  exact h.staged

/-- The transaction is closed. -/
theorem Account.closed (h : Account id begun reads writes entries s)
    (hclosed : s'.transactions.get? id = none) : Account id begun reads writes entries s' := by
  refine ⟨?_, h.fresh, h.once⟩
  intro t hopen
  cases hclosed.symm.trans hopen

/-- The transaction is begun. -/
theorem Account.begin (h : Account id begun reads writes entries s) (hfresh : begun = 0) :
    Account id (begun + 1) reads writes entries (s.begin id) := by
  obtain ⟨rfl, rfl, rfl⟩ := h.fresh hfresh
  refine ⟨?_, fun hbegun => absurd hbegun (Nat.succ_ne_zero begun), h.once⟩
  intro t hopen
  have hget : (s.begin id).transactions.get? id = some {} :=
    (s.transactions.get?_insert id id {}).trans (if_pos rfl)
  rw [hget] at hopen
  cases hopen
  exact ⟨rfl, rfl, Nat.succ_pos begun⟩

/-- The transaction stages more, which it can only do if it is open. -/
theorem Account.stage {moreReads : List Observation} {moreWrites : List Assignment}
    (h : Account id begun reads writes entries s) {t : Transaction}
    (hopen : s.transactions.get? id = some t) (hs' : s'.transactions =
      s.transactions.insert id ⟨t.reads ++ moreReads, t.writes ++ moreWrites⟩) :
    Account id begun (reads ++ moreReads) (writes ++ moreWrites) entries s' := by
  obtain ⟨rfl, hnone, hbegun⟩ := h.staged t hopen
  refine ⟨?_, fun hfresh => absurd hfresh (Nat.ne_of_gt hbegun), h.once⟩
  intro t hopen'
  rw [hs', Table.get?_insert, if_pos rfl] at hopen'
  cases hopen'
  exact ⟨rfl, hnone, hbegun⟩

/-- An open transaction is submitted and closed. -/
theorem Account.submit (h : Account id begun reads writes entries s) {t : Transaction}
    (hopen : s.transactions.get? id = some t)
    (hs' : s'.transactions = s.transactions.clear id) (b : Bytes) :
    Account id begun reads writes (entries ++ [b]) s' := by
  obtain ⟨-, rfl, hbegun⟩ := h.staged t hopen
  refine ⟨?_, fun hfresh => absurd hfresh (Nat.ne_of_gt hbegun), Nat.le_refl 1⟩
  intro t hopen'
  rw [hs', Transactions.clear, Table.get?_erase, if_pos rfl] at hopen'
  cases hopen'

variable [Consensus σ]

/-- **One event.** As long as an id is begun once at most, the account goes on. -/
theorem Account.next (h : Account id begun reads writes entries s) (event : Event σ)
    (honce : begun + (if event.begins id then 1 else 0) ≤ 1) :
    Account id (begun + if event.begins id then 1 else 0) (reads ++ observedBy id s event)
      (writes ++ assignedBy id s event) (entries ++ submittedBy id s event) (s.next event) := by
  -- an event that adds nothing to the transaction need only keep it, or close it
  have hnothing : ∀ {event : Event σ}, event.begins id = false → observedBy id s event = [] →
      assignedBy id s event = [] → submittedBy id s event = [] →
      Account id begun reads writes entries (s.next event) →
      Account id (begun + if event.begins id then 1 else 0) (reads ++ observedBy id s event)
        (writes ++ assignedBy id s event) (entries ++ submittedBy id s event) (s.next event) := by
    intro event hbegins hreads hwrites hentries haccount
    simpa [hbegins, hreads, hwrites, hentries] using haccount
  cases event with
  | behind change => exact hnothing rfl rfl rfl rfl (h.kept rfl)
  | client op =>
    by_cases hop : op.transaction? = some id
    · cases op with
      | begin j =>
        obtain rfl : j = id := Option.some.inj hop
        simp only [Event.begins, decide_true, if_true, observedBy, assignedBy, submittedBy,
          List.append_nil] at honce ⊢
        exact h.begin (by omega)
      | read j key =>
        obtain rfl : j = id := Option.some.inj hop
        rcases s.read_cases j key with ⟨t, hopen, hread⟩ | ⟨e, hread⟩
        · have hadds : observedBy j s (.client (.read j key)) = [⟨key, s.store.version key⟩] := by
            simp only [observedBy, hread, if_true]
          have hstaged : (s.read j key).2.transactions = s.transactions.insert j
              ⟨t.reads ++ [⟨key, s.store.version key⟩], t.writes ++ []⟩ := by
            rw [hread, List.append_nil]
          have haccount := h.stage hopen hstaged
          rw [hadds, show entries ++ submittedBy j s _ = entries from List.append_nil _]
          exact haccount
        · have hadds : observedBy j s (.client (.read j key)) = [] := by
            simp only [observedBy, hread]
          exact hnothing rfl hadds rfl rfl (h.kept (congrArg (·.2.transactions.get? j) hread))
      | stageWrite j key value =>
        obtain rfl : j = id := Option.some.inj hop
        rcases s.stageWrite_cases j key value with ⟨t, hopen, hwrite⟩ | ⟨e, hwrite⟩
        · have hadds : assignedBy j s (.client (.stageWrite j key value)) = [⟨key, value⟩] := by
            simp only [assignedBy, hwrite, if_true]
          have hstaged : (s.stageWrite j key value).2.transactions = s.transactions.insert j
              ⟨t.reads ++ [], t.writes ++ [⟨key, value⟩]⟩ := by
            rw [hwrite, List.append_nil]
          have haccount := h.stage hopen hstaged
          rw [hadds, show entries ++ submittedBy j s _ = entries from List.append_nil _]
          exact haccount
        · have hadds : assignedBy j s (.client (.stageWrite j key value)) = [] := by
            simp only [assignedBy, hwrite]
          exact hnothing rfl rfl hadds rfl (h.kept (congrArg (·.2.transactions.get? j) hwrite))
      | commit j =>
        obtain rfl : j = id := Option.some.inj hop
        simp only [Event.begins, Bool.false_eq_true, if_false, observedBy, assignedBy, submittedBy,
          if_true, List.append_nil]
        show Account j begun reads writes (entries ++ s.calls (.commit j)) (s.commit j).2
        have hexit := s.commitExit j
        generalize s.commit j = result, s.calls (.commit j) = called at hexit ⊢
        cases hexit with
        | notLeader hfollows =>
          rw [List.append_nil]
          exact h.kept rfl
        | unknown hleads hclosed =>
          rw [List.append_nil]
          exact h
        | submitted hleads hopen answer consensus => exact h.submit hopen rfl _
      | abort j =>
        obtain rfl : j = id := Option.some.inj hop
        exact hnothing rfl rfl rfl rfl
          (h.closed ((s.transactions.get?_erase j j).trans (if_pos rfl)))
      | get key => simp [Operation.transaction?] at hop
      | set key value => simp [Operation.transaction?] at hop
      | delete key => simp [Operation.transaction?] at hop
      | join nodeId address => simp [Operation.transaction?] at hop
    · obtain ⟨hbegins, hreads, hwrites, hentries⟩ := s.adds_nothing hop
      exact hnothing hbegins hreads hwrites hentries (h.kept (s.get?_answer hop))

/-- **A run.** As long as an id is begun once at most, the account goes on. -/
theorem Account.run (h : Account id begun reads writes entries s) (events : List (Event σ))
    (honce : begun + events.countP (·.begins id) ≤ 1) :
    Account id (begun + events.countP (·.begins id)) (reads ++ s.observed id events)
      (writes ++ s.assigned id events) (entries ++ s.submissions id events) (s.after events) := by
  induction events generalizing begun reads writes entries s with
  | nil =>
    rw [observed, assigned, submissions, collect, collect, collect, List.append_nil,
      List.append_nil, List.append_nil]
    exact h
  | cons event events ih =>
    rw [List.countP_cons] at honce ⊢
    have hnext := ih (h.next event (by omega)) (by omega)
    rw [Nat.add_comm (events.countP _), ← Nat.add_assoc]
    simp only [observed, assigned, submissions, collect, ← List.append_assoc]
    exact hnext

/-- A transaction that is closed stays closed, if its id is not begun again. -/
theorem closed_after {events : List (Event σ)} (hclosed : s.transactions.get? id = none)
    (hnone : events.countP (·.begins id) = 0) : (s.after events).transactions.get? id = none := by
  have haccount := (account_of_closed hclosed).run events (by omega)
  cases hopen : (s.after events).transactions.get? id with
  | none => rfl
  | some t =>
    obtain ⟨-, -, hbegun⟩ := haccount.staged t hopen
    omega

/-- The commit of a transaction, with what has been staged in it. -/
theorem Account.commit (h : Account id begun reads writes entries s) :
    (s.calls (.commit id) ≠ [] ↔
      Consensus.isLeader s.consensus = true ∧ s.transactions.get? id ≠ none) ∧
    (∀ b ∈ s.calls (.commit id),
      Entry.decode b = .ok (.command (.commit reads writes)) ∧ 0 < begun ∧
        (s.next (.client (.commit id))).transactions.get? id = none) ∧
    (Consensus.isLeader s.consensus = false → s.answer (.commit id) =
      (.error (.notLeader (Consensus.leaderAddress s.consensus)),
        { s with notLeader := s.notLeader + 1 })) := by
  have hexit := s.commitExit id
  have hanswer : s.answer (.commit id) = (s.commit id).telling .committed := rfl
  rw [Service.next, perform, hanswer]
  generalize s.commit id = result, s.calls (.commit id) = called at hexit ⊢
  cases hexit with
  | notLeader hfollows => simp [hfollows, Answer.telling, Except.map]
  | unknown hleads hclosed => simp [hleads, hclosed]
  | submitted hleads hopen answer consensus =>
    obtain ⟨rfl, -, hbegun⟩ := h.staged _ hopen
    refine ⟨by simp [hleads, hopen], ?_, by simp [hleads]⟩
    intro b hb
    obtain rfl := List.mem_singleton.1 hb
    exact ⟨Command.decode_encode _, hbegun, (s.transactions.get?_erase id id).trans (if_pos rfl)⟩

end

/-- **A transaction is submitted at most once, with exactly what was staged in it.** A service
stands over any consensus, and its clients do anything in turn, while anything may happen to what
stands behind it. The id of the transaction is fresh: it is not open at first, and begun once at most. Then
its commits submit one entry at most. At every commit of it, an entry is submitted exactly if the
node leads and the transaction is open; the entry is decoded to the commit of what was observed and
assigned in the transaction until then, in order; and from then on the id is unknown, whatever was
answered. If the node does not lead, the refusal is all that happens, and is counted. No other
operation submits an entry that commits a transaction. -/
theorem submitted_at_most_once [Consensus σ] (s : Service σ) {id : String}
    {events : List (Event σ)} (hclosed : s.transactions.get? id = none)
    (honce : events.countP (·.begins id) ≤ 1) :
    (s.submissions id events).length ≤ 1 ∧
    (∀ before after, events = before ++ .client (.commit id) :: after →
      let now := s.after before
      (now.calls (.commit id) ≠ [] ↔
        Consensus.isLeader now.consensus = true ∧ now.transactions.get? id ≠ none) ∧
      (∀ b ∈ now.calls (.commit id),
        Entry.decode b =
          .ok (.command (.commit (s.observed id before) (s.assigned id before))) ∧
        ∀ more, more <+: after →
          (s.after (before ++ .client (.commit id) :: more)).transactions.get? id = none) ∧
      (Consensus.isLeader now.consensus = false → now.answer (.commit id) =
        (.error (.notLeader (Consensus.leaderAddress now.consensus)),
          { now with notLeader := now.notLeader + 1 }))) ∧
    ∀ before op after, events = before ++ .client op :: after → (∀ j, op ≠ .commit j) →
      CommitNothing ((s.after before).calls op) := by
  have haccount := account_of_closed hclosed
  refine ⟨(haccount.run events (by omega)).once, ?_, ?_⟩
  · rintro before after rfl now
    rw [List.countP_append, List.countP_cons] at honce
    have hnow : Account id _ _ _ _ now := haccount.run before (by omega)
    rw [List.nil_append, List.nil_append, Nat.zero_add] at hnow
    obtain ⟨hcalls, hentry, hrefused⟩ := hnow.commit
    refine ⟨hcalls, ?_, hrefused⟩
    intro b hb
    obtain ⟨hdecode, hbegun, hnext⟩ := hentry b hb
    refine ⟨hdecode, ?_⟩
    rintro more ⟨rest, rfl⟩
    rw [List.countP_append] at honce
    rw [after_append, after_cons]
    exact closed_after hnext (by omega)
  · rintro before op after - hop
    exact (s.after before).commitNothing_calls hop

/-- A transaction stages a read and two writes of one key; its commit times out, and is tried
again. -/
theorem submitted_at_most_once_timeout :
    let s : Service Scripted := { consensus := { leads := true, address := none }, timeout := 0 }
    let staging : List (Event Scripted) := [.client (.begin "t"), .client (.read "t" "k"),
      .client (.stageWrite "t" "k" "v"), .client (.stageWrite "t" "k" "w")]
    let events := staging ++ [.client (.commit "t"), .client (.commit "t")]
    (s.submissions "t" events).length ≤ 1 ∧
      ∃ b ∈ (s.after staging).calls (.commit "t"),
        Entry.decode b =
          .ok (.command (.commit [⟨"k", 0⟩] [⟨"k", "v"⟩, ⟨"k", "w"⟩])) ∧
        (s.after events).transactions.get? "t" = none := by
  intro s staging events
  have honce : events.countP (·.begins "t") ≤ 1 := by decide
  obtain ⟨hlength, hcommit, -⟩ := submitted_at_most_once s rfl honce
  obtain ⟨hcalls, hentry, -⟩ := hcommit staging [.client (.commit "t")] rfl
  obtain ⟨b, hb⟩ := List.exists_mem_of_ne_nil _ (hcalls.2 ⟨rfl, by decide⟩)
  obtain ⟨hdecode, hclosed⟩ := hentry b hb
  exact ⟨hlength, b, hb, hdecode, hclosed _ List.prefix_rfl⟩

end Service

end DurableKV
