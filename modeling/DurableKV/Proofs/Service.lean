import DurableKV.Service
import DurableKV.Proofs.Replica
import DurableKV.Proofs.Store

/-!
# The operations of a service

What each operation of a service may come to, over any replica: it is answered and has done what it
is for, or it is refused and has left the store as it was. A command is never lost on its way to the
store: its bytes are decoded to it (`Command.decode_encode`), and what applying it comes to is the
outcome of its own kind, so no operation can be answered with that of another.
-/

namespace DurableKV

/-- The version in the outcome of a set. -/
def Outcome.version? : Outcome → Option UInt64
  | .set _ version => some version
  | _ => none

/-- Nothing, in the outcome of a delete. -/
def Outcome.deleted? : Outcome → Option Unit
  | .deleted _ => some ()
  | _ => none

namespace Service

/-! ## Submitting -/

/-- A submission changes only what entries are submitted to. -/
theorem snd_submit {σ : Type} [Consensus σ] (s : Service σ) (c : Command) :
    (s.submit c).2 =
      { s with consensus := (Consensus.submit s.consensus c.encode s.timeout).2 } := by
  unfold submit
  rcases Consensus.submit s.consensus c.encode s.timeout with ⟨e | accepted, c'⟩ <;> rfl

/-- What submitting a command may come to: it is applied, or the store stays as it was. -/
theorem submit_cases (s : Service Replica) (c : Command) :
    (∃ r, s.submit c = (.ok (s.store.dispatch c).2, { s with consensus := r }) ∧
        r.store = (s.store.dispatch c).1) ∨
      ∃ e r, s.submit c = (.error e, { s with consensus := r }) ∧ r.store = s.store := by
  have hunfold : Consensus.submit s.consensus c.encode s.timeout =
      s.consensus.submit c.encode s.timeout false := rfl
  rcases s.consensus.submit_cases c.encode s.timeout false with
    ⟨e, hdecode, -, -, -, hok⟩ | ⟨cause, r, herror, hstore, -⟩
  · rw [Command.decode_encode] at hdecode
    cases hdecode
    refine Or.inl ⟨_, ?_, s.consensus.accept_store (.command c)⟩
    rw [submit, hunfold, hok]
    rfl
  · refine Or.inr ⟨.ofSubmit cause, r, ?_, hstore⟩
    rw [submit, hunfold, herror]

/-- A replica that is ready applies every command. -/
theorem submit_of_ready {s : Service Replica} (h : s.consensus.Ready) (c : Command) :
    s.submit c = (.ok (s.store.dispatch c).2,
      { s with consensus := s.consensus.accept (.command c) }) := by
  have hok : Consensus.submit s.consensus c.encode s.timeout = _ :=
    Replica.submit_of_ready h c.decode_encode s.timeout
  rw [submit, hok]
  rfl

/-! ## What an operation needs -/

section

variable {σ α : Type} (s : Service σ) (act : Answer σ α)

/-- With the text that is required the operation is done. -/
theorem requiring_of_ne {field : String} (h : field ≠ "") (name : String) :
    s.requiring name field act = act :=
  if_neg h

/-- Without the text that is required the operation is refused. -/
theorem requiring_of_eq {field : String} (h : field = "") (name : String) :
    s.requiring name field act = (.error (.invalidRequest (name ++ " is missing")), s) :=
  if_pos h

/-- An operation that needs a text is done, or refused and nothing changes. -/
theorem requiring_cases (name field : String) :
    s.requiring name field act = act ∨ ∃ e, s.requiring name field act = (.error e, s) := by
  by_cases h : field = ""
  · exact Or.inr ⟨_, s.requiring_of_eq act h name⟩
  · exact Or.inl (s.requiring_of_ne act h name)

variable [Consensus σ]

/-- On a leader the operation is done. -/
theorem leading_of_leader (h : Consensus.isLeader s.consensus = true) : s.leading act = act :=
  if_pos h

/-- On a follower the operation is refused with the leader's address, and counted. -/
theorem leading_of_follower (h : Consensus.isLeader s.consensus = false) :
    s.leading act = (.error (.notLeader (Consensus.leaderAddress s.consensus)),
      { s with notLeader := s.notLeader + 1 }) :=
  if_neg (fun hleads => Bool.false_ne_true (h.symm.trans hleads))

/-- An operation that needs the node to lead is done, or refused and counted. -/
theorem leading_cases : s.leading act = act ∨
    ∃ e, s.leading act = (.error e, { s with notLeader := s.notLeader + 1 }) := by
  cases h : Consensus.isLeader s.consensus with
  | false => exact Or.inr ⟨_, s.leading_of_follower act h⟩
  | true => exact Or.inl (s.leading_of_leader act h)

end

/-! ## Single keys -/

/-- An answer for which the outcome of a command is picked apart. Any other outcome than that of its
own kind is unexpected. -/
def Answer.expecting {σ α : Type} (pick : Outcome → Option α) (a : Answer σ Outcome) : Answer σ α :=
  (match a.1 with
    | .ok o =>
      match pick o with
      | some x => .ok x
      | none => .error (.unexpected o)
    | .error e => .error e, a.2)

section

variable {σ : Type} [Consensus σ] (s : Service σ)

/-- A key is set by a leader that is given one. -/
theorem set_eq (key value : String) : s.set key value = s.requiring "key" key
    (s.leading ((s.submit (.set key value)).expecting Outcome.version?)) := by
  unfold set
  rcases s.submit (.set key value) with ⟨e | o, s'⟩
  · rfl
  · cases o <;> rfl

/-- A key is deleted by a leader that is given one. -/
theorem delete_eq (key : String) : s.delete key = s.requiring "key" key
    (s.leading ((s.submit (.delete key)).expecting Outcome.deleted?)) := by
  unfold delete
  rcases s.submit (.delete key) with ⟨e | o, s'⟩
  · rfl
  · cases o <;> rfl

end

/-- Looking a key up changes nothing. -/
theorem get_kept {σ : Type} [Consensus σ] (s : Service σ) (key : String) : (s.get key).2 = s := by
  by_cases hkey : key = ""
  · rw [show s.get key = _ from s.requiring_of_eq _ hkey "key"]
  · rw [show s.get key = _ from s.requiring_of_ne _ hkey "key"]

/-- A set writes its key, or is refused and leaves everything as it was. -/
theorem set_cases (s : Service Replica) (key value : String) :
    (∃ r, s.set key value = (.ok (s.store.set key value).2, { s with consensus := r }) ∧
        r.store = (s.store.set key value).1) ∨
      ∃ e s', s.set key value = (.error e, s') ∧ s'.store = s.store ∧
        s'.transactions = s.transactions := by
  by_cases hkey : key = ""
  · exact Or.inr ⟨_, s, s.requiring_of_eq _ hkey "key", rfl, rfl⟩
  have hset : s.set key value = s.leading _ := s.requiring_of_ne _ hkey "key"
  cases hleads : s.consensus.isLeader with
  | false => exact Or.inr ⟨_, _, hset.trans (s.leading_of_follower _ hleads), rfl, rfl⟩
  | true =>
    rw [hset, s.leading_of_leader _ hleads]
    rcases s.submit_cases (.set key value) with ⟨r, hsubmit, hstore⟩ | ⟨e, r, hsubmit, hstore⟩
    · rw [hsubmit]
      exact Or.inl ⟨r, rfl, hstore⟩
    · rw [hsubmit]
      exact Or.inr ⟨_, _, rfl, hstore, rfl⟩

/-- A delete takes its key away, or is refused and leaves everything as it was. -/
theorem delete_cases (s : Service Replica) (key : String) :
    (∃ r, s.delete key = (.ok (), { s with consensus := r }) ∧ r.store = s.store.erase key) ∨
      ∃ e s', s.delete key = (.error e, s') ∧ s'.store = s.store ∧
        s'.transactions = s.transactions := by
  by_cases hkey : key = ""
  · exact Or.inr ⟨_, s, s.requiring_of_eq _ hkey "key", rfl, rfl⟩
  have hdelete : s.delete key = s.leading _ := s.requiring_of_ne _ hkey "key"
  cases hleads : s.consensus.isLeader with
  | false => exact Or.inr ⟨_, _, hdelete.trans (s.leading_of_follower _ hleads), rfl, rfl⟩
  | true =>
    rw [hdelete, s.leading_of_leader _ hleads]
    rcases s.submit_cases (.delete key) with ⟨r, hsubmit, hstore⟩ | ⟨e, r, hsubmit, hstore⟩
    · rw [hsubmit]
      exact Or.inl ⟨r, rfl, hstore⟩
    · rw [hsubmit]
      exact Or.inr ⟨_, _, rfl, hstore, rfl⟩

/-! ## Transactions -/

section

variable {σ : Type} (s : Service σ)

section

variable {id key : String} {t : Transaction} (hkey : key ≠ "")
  (ht : s.transactions.get? id = some t)
include hkey ht

/-- A read in an open transaction answers from the store and is observed. -/
theorem read_of_open [Consensus σ] :
    s.read id key = (.ok ((s.store.get? key).map Versioned.value), { s with
      transactions := s.transactions.insert id
        { t with reads := t.reads ++ [⟨key, s.store.version key⟩] } }) := by
  have hread : s.read id key = _ := s.requiring_of_ne _ hkey "key"
  rw [hread, Transactions.stageRead, Transactions.stage, ht]

/-- A write of an open transaction is staged. -/
theorem stageWrite_of_open (value : String) :
    s.stageWrite id key value = (.ok (), { s with
      transactions := s.transactions.insert id
        { t with writes := t.writes ++ [⟨key, value⟩] } }) := by
  have hwrite : s.stageWrite id key value = _ := s.requiring_of_ne _ hkey "key"
  rw [hwrite, Transactions.stageWrite, Transactions.stage, ht]

end

/-- A read answers the value of its key and stages the version, or is refused. -/
theorem read_cases [Consensus σ] (id key : String) :
    (∃ t, s.transactions.get? id = some t ∧
        s.read id key = (.ok ((s.store.get? key).map Versioned.value), { s with
          transactions := s.transactions.insert id
            { t with reads := t.reads ++ [⟨key, s.store.version key⟩] } })) ∨
      ∃ e, s.read id key = (.error e, s) := by
  by_cases hkey : key = ""
  · exact Or.inr ⟨_, s.requiring_of_eq _ hkey "key"⟩
  rcases ht : s.transactions.get? id with _ | t
  · refine Or.inr ⟨.transaction ⟨id⟩, ?_⟩
    have hread : s.read id key = _ := s.requiring_of_ne _ hkey "key"
    rw [hread, Transactions.stageRead, Transactions.stage, ht]
  · exact Or.inl ⟨t, rfl, s.read_of_open hkey ht⟩

/-- A write is staged, or refused. -/
theorem stageWrite_cases (id key value : String) :
    (∃ t, s.transactions.get? id = some t ∧
        s.stageWrite id key value = (.ok (), { s with
          transactions := s.transactions.insert id
            { t with writes := t.writes ++ [⟨key, value⟩] } })) ∨
      ∃ e, s.stageWrite id key value = (.error e, s) := by
  by_cases hkey : key = ""
  · exact Or.inr ⟨_, s.requiring_of_eq _ hkey "key"⟩
  rcases ht : s.transactions.get? id with _ | t
  · refine Or.inr ⟨.transaction ⟨id⟩, ?_⟩
    have hwrite : s.stageWrite id key value = _ := s.requiring_of_ne _ hkey "key"
    rw [hwrite, Transactions.stageWrite, Transactions.stage, ht]
  · exact Or.inl ⟨t, rfl, s.stageWrite_of_open hkey ht value⟩

end

/-- A commit makes the writes of an open transaction whose observations all hold, or is refused and
leaves the store as it was. A transaction that is open stays so only if it was not submitted. -/
theorem commit_cases (s : Service Replica) (id : String) :
    (∃ t r, s.transactions.get? id = some t ∧ s.store.conflict? t.reads = none ∧
        s.commit id = (.ok (s.store.writeAll t.writes).2, { s with
          consensus := r
          transactions := s.transactions.clear id }) ∧
        r.store = (s.store.writeAll t.writes).1) ∨
      ∃ e s', s.commit id = (.error e, s') ∧ s'.store = s.store ∧
        (s'.transactions = s.transactions ∨ s'.transactions = s.transactions.clear id) := by
  cases hleads : s.consensus.isLeader with
  | false => exact Or.inr ⟨_, _, s.leading_of_follower _ hleads, rfl, Or.inl rfl⟩
  | true =>
    have hcommit : s.commit id = _ := s.leading_of_leader _ hleads
    rw [hcommit]
    cases ht : s.transactions.get? id with
    | none => exact Or.inr ⟨_, s, rfl, rfl, Or.inl rfl⟩
    | some t =>
      have hclosed : ∀ r : Replica, r.store = s.store → ∀ e : ServiceError, ∃ e' s',
          (Except.error e, { s with consensus := r, transactions := s.transactions.clear id }) =
              ((.error e', s') : Answer Replica (List KeyVersion)) ∧
            s'.store = s.store ∧
            (s'.transactions = s.transactions ∨ s'.transactions = s.transactions.clear id) :=
        fun r hstore e => ⟨e, _, rfl, hstore, Or.inr rfl⟩
      dsimp only
      rcases s.submit_cases t.toCommand with ⟨r, hsubmit, hstore⟩ | ⟨e, r, hsubmit, hstore⟩
      · rw [Transaction.toCommand, Store.dispatch_commit] at hsubmit hstore
        cases hconflict : s.store.conflict? t.reads with
        | none =>
          rw [hconflict] at hsubmit hstore
          refine Or.inl ⟨t, r, rfl, hconflict, ?_, hstore⟩
          rw [Transaction.toCommand, hsubmit]
        | some c =>
          rw [hconflict] at hsubmit hstore
          rw [Transaction.toCommand, hsubmit]
          exact Or.inr (hclosed r hstore _)
      · rw [hsubmit]
        exact Or.inr (hclosed r hstore e)

/-! ## Members -/

/-- A new voter changes neither the store nor the transactions. -/
theorem join_kept (s : Service Replica) (nodeId address : String) :
    (s.join nodeId address).2.store = s.store ∧
      (s.join nodeId address).2.transactions = s.transactions := by
  by_cases hid : nodeId = ""
  · rw [show s.join nodeId address = _ from s.requiring_of_eq _ hid "node_id"]
    exact ⟨rfl, rfl⟩
  rw [show s.join nodeId address = _ from s.requiring_of_ne _ hid "node_id"]
  by_cases haddress : address = ""
  · rw [s.requiring_of_eq _ haddress "addr"]
    exact ⟨rfl, rfl⟩
  rw [s.requiring_of_ne _ haddress "addr"]
  cases hleads : s.consensus.isLeader with
  | false =>
    rw [s.leading_of_follower _ hleads]
    exact ⟨rfl, rfl⟩
  | true =>
    rw [s.leading_of_leader _ hleads]
    obtain ⟨voters, hvoters⟩ := s.consensus.addVoter_eq nodeId address
    rcases hadd : s.consensus.addVoter nodeId address with ⟨answer, r⟩
    have hadd' : Consensus.addVoter s.consensus nodeId address = (answer, r) := hadd
    rw [hadd] at hvoters
    have hr : r.store = s.store := by
      rw [show r = _ from hvoters]
      rfl
    rw [hadd']
    cases answer <;> exact ⟨hr, rfl⟩

/-! ## On a replica that is ready -/

section

variable {s : Service Replica} (h : s.consensus.Ready)
include h

/-- A replica that is ready leads. -/
theorem isLeader_of_ready : s.consensus.isLeader = true := by
  rw [Replica.isLeader, h.leads]
  rfl

/-- A ready replica sets a key and answers its version. -/
theorem set_of_ready {key : String} (hkey : key ≠ "") (value : String) :
    s.set key value = (.ok (s.store.set key value).2,
      { s with consensus := s.consensus.accept (.command (.set key value)) }) := by
  have hset : s.set key value = _ :=
    (s.requiring_of_ne _ hkey "key").trans (s.leading_of_leader _ (isLeader_of_ready h))
  rw [hset, submit_of_ready h]
  rfl

/-- A ready replica deletes a key. -/
theorem delete_of_ready {key : String} (hkey : key ≠ "") :
    s.delete key =
      (.ok (), { s with consensus := s.consensus.accept (.command (.delete key)) }) := by
  have hdelete : s.delete key = _ :=
    (s.requiring_of_ne _ hkey "key").trans (s.leading_of_leader _ (isLeader_of_ready h))
  rw [hdelete, submit_of_ready h]
  rfl

/-- A ready replica commits an open transaction: it answers the versions of the writes, or the first
observation that is stale. The transaction is closed either way. -/
theorem commit_of_ready {id : String} {t : Transaction} (ht : s.transactions.get? id = some t) :
    s.commit id = (match s.store.conflict? t.reads with
        | none => .ok (s.store.writeAll t.writes).2
        | some c => .error (.conflict c),
      { s with
        consensus := s.consensus.accept (.command t.toCommand)
        transactions := s.transactions.clear id }) := by
  have hcommit : s.commit id = _ := s.leading_of_leader _ (isLeader_of_ready h)
  rw [hcommit, ht]
  dsimp only
  rw [submit_of_ready h, Transaction.toCommand, Store.dispatch_commit]
  cases s.store.conflict? t.reads <;> rfl

/-- A transaction that is not open is not committed. -/
theorem commit_unknown_of_ready {id : String} (ht : s.transactions.get? id = none) :
    s.commit id = (.error (.transaction ⟨id⟩), s) := by
  have hcommit : s.commit id = _ := s.leading_of_leader _ (isLeader_of_ready h)
  rw [hcommit, ht]

/-- A ready replica adds a voter. -/
theorem join_of_ready {nodeId address : String} (hid : nodeId ≠ "") (haddress : address ≠ "") :
    s.join nodeId address = (.ok (), { s with
      consensus := { s.consensus with
        voters := s.consensus.voters.insert nodeId address } }) := by
  have hjoin : s.join nodeId address = _ :=
    (s.requiring_of_ne _ hid "node_id").trans <|
      (s.requiring_of_ne _ haddress "addr").trans (s.leading_of_leader _ (isLeader_of_ready h))
  have hadd : Consensus.addVoter s.consensus nodeId address = (.ok (), { s.consensus with
      voters := s.consensus.voters.insert nodeId address }) := by
    show s.consensus.addVoter nodeId address = _
    rw [Replica.addVoter, if_neg (fun hempty => hempty.elim hid haddress),
      if_neg (fun hnot => hnot (isLeader_of_ready h))]
  rw [hjoin, hadd]

end

end Service

/-! ## From one kind of consensus to another -/

/-- A map from one kind of consensus to another that keeps everything that a service asks for. -/
structure Consensus.Hom {σ τ : Type} [Consensus σ] [Consensus τ] (f : σ → τ) : Prop where
  /-- An entry comes to the same. -/
  submit : ∀ c entry timeout,
    submit (f c) entry timeout = ((submit c entry timeout).1, f (submit c entry timeout).2)
  /-- Whether there is a leader here is the same. -/
  isLeader : ∀ c, isLeader (f c) = isLeader c
  /-- The address of the leader is the same. -/
  leaderAddress : ∀ c, leaderAddress (f c) = leaderAddress c
  /-- A voter comes to the same. -/
  addVoter : ∀ c nodeId address,
    addVoter (f c) nodeId address = ((addVoter c nodeId address).1, f (addVoter c nodeId address).2)
  /-- The store is the same. -/
  store : ∀ c, store (f c) = store c

namespace Service

/-- A service over another kind of consensus. -/
def map {σ τ : Type} (f : σ → τ) (s : Service σ) : Service τ :=
  { s with consensus := f s.consensus }

/-- An answer over another kind of consensus. -/
def Answer.over {σ τ α : Type} (f : σ → τ) (a : Answer σ α) : Answer τ α := (a.1, a.2.map f)

section

variable {σ τ α : Type} {f : σ → τ} {s : Service σ} {a : Answer σ α} {b : Answer τ α}

/-- The open transactions are the same over another kind of consensus. -/
theorem transactions_map (f : σ → τ) (s : Service σ) : (s.map f).transactions = s.transactions :=
  rfl

/-- Requiring a text is the same over another kind of consensus. -/
theorem requiring_map (h : b = Answer.over f a) (name field : String) :
    (s.map f).requiring name field b = Answer.over f (s.requiring name field a) := by
  by_cases hfield : field = ""
  · rw [(s.map f).requiring_of_eq b hfield, s.requiring_of_eq a hfield]
    rfl
  · rw [(s.map f).requiring_of_ne b hfield, s.requiring_of_ne a hfield, h]

/-- Staging a write is the same over another kind of consensus. -/
theorem stageWrite_map (s : Service σ) (id key value : String) :
    (s.map f).stageWrite id key value = Answer.over f (s.stageWrite id key value) := by
  apply requiring_map
  rw [transactions_map]
  cases s.transactions.stageWrite id key value <;> rfl

/-- Requiring leadership is the same over another kind of consensus. -/
theorem leading_map [Consensus σ] [Consensus τ] (hf : Consensus.Hom f) (h : b = Answer.over f a) :
    (s.map f).leading b = Answer.over f (s.leading a) := by
  cases hleads : Consensus.isLeader s.consensus with
  | false =>
    have hfollows : Consensus.isLeader (s.map f).consensus = false :=
      (hf.isLeader s.consensus).trans hleads
    rw [(s.map f).leading_of_follower b hfollows, s.leading_of_follower a hleads]
    exact Prod.ext (congrArg (Except.error ∘ ServiceError.notLeader) (hf.leaderAddress _)) rfl
  | true =>
    have hleads' : Consensus.isLeader (s.map f).consensus = true :=
      (hf.isLeader s.consensus).trans hleads
    rw [(s.map f).leading_of_leader b hleads', s.leading_of_leader a hleads, h]

end

section

variable {σ τ : Type} [Consensus σ] [Consensus τ] {f : σ → τ} (hf : Consensus.Hom f)
  (s : Service σ)
include hf

/-- A submission is the same over another kind of consensus. -/
theorem submit_map (c : Command) : (s.map f).submit c = Answer.over f (s.submit c) := by
  have hsubmit := hf.submit s.consensus c.encode s.timeout
  unfold submit
  rw [show Consensus.submit (s.map f).consensus c.encode (s.map f).timeout = _ from hsubmit]
  rcases Consensus.submit s.consensus c.encode s.timeout with ⟨e | accepted, c'⟩ <;> rfl

/-- The store is the same over another kind of consensus. -/
theorem store_map : (s.map f).store = s.store := hf.store s.consensus

/-- Looking a key up is the same over another kind of consensus. -/
theorem get_map (key : String) : (s.map f).get key = Answer.over f (s.get key) := by
  apply requiring_map
  rw [store_map hf]
  rfl

/-- Setting a key is the same over another kind of consensus. -/
theorem set_map (key value : String) :
    (s.map f).set key value = Answer.over f (s.set key value) := by
  rw [set_eq, set_eq]
  apply requiring_map
  apply leading_map hf
  rw [submit_map hf]
  rfl

/-- Deleting a key is the same over another kind of consensus. -/
theorem delete_map (key : String) : (s.map f).delete key = Answer.over f (s.delete key) := by
  rw [delete_eq, delete_eq]
  apply requiring_map
  apply leading_map hf
  rw [submit_map hf]
  rfl

/-- Reading a key in a transaction is the same over another kind of consensus. -/
theorem read_map (id key : String) : (s.map f).read id key = Answer.over f (s.read id key) := by
  apply requiring_map
  rw [store_map hf]
  rw [transactions_map]
  cases s.transactions.stageRead id key (s.store.version key) <;> rfl

/-- Committing a transaction is the same over another kind of consensus. -/
theorem commit_map (id : String) : (s.map f).commit id = Answer.over f (s.commit id) := by
  apply leading_map hf
  rw [transactions_map]
  cases s.transactions.get? id with
  | none => rfl
  | some t =>
    dsimp only
    rw [submit_map hf]
    rcases s.submit t.toCommand with ⟨e | o, s'⟩
    · rfl
    · cases o <;> rfl

/-- Adding a voter is the same over another kind of consensus. -/
theorem join_map (nodeId address : String) :
    (s.map f).join nodeId address = Answer.over f (s.join nodeId address) := by
  apply requiring_map
  apply requiring_map
  apply leading_map hf
  rw [show Consensus.addVoter (s.map f).consensus nodeId address = _ from
    hf.addVoter s.consensus nodeId address]
  rcases Consensus.addVoter s.consensus nodeId address with ⟨e | _, c⟩ <;> rfl

end

end Service

end DurableKV
