import DurableKV.Contention
import DurableKV.Proofs.Service
import DurableKV.Proofs.Submission

/-!
# What one request line leaves behind

A client learns of a request by its reply, or by the end of the node. `store_changes_on_success`
says what it may conclude: the store has changed only if the reply says so, the log and the position
of the last entry have changed besides that only for a transaction that was refused for a conflict,
and the node ends exactly where a command that was submitted met a halted node or halted it.

`Submits` are the requests that come to submit a command: those which pass the checks of the
service. `Execution` tells apart what doing any request may come to, by the one submission that it
makes, if any (`execution`). All the rest is read off `Replica.submission`, which says what that
submission may come to, whether or not another one holds the log.
-/

namespace DurableKV

/-! ## Submitting while the log may be held -/

/-- A submission to a replica is one to the same replica while the log is held or free. -/
theorem Contended.submit_eq {r r' : Replica} {held : Bool} {b : Bytes} {timeout : Nat}
    {answer : Except SubmitError Accepted} (h : r.submit b timeout held = (answer, r')) :
    Consensus.submit (⟨r, held⟩ : Contended) b timeout = (answer, ⟨r', held⟩) := by
  show ((r.submit b timeout held).1, (⟨(r.submit b timeout held).2, held⟩ : Contended)) = _
  rw [h]

/-- A replica of which nobody holds the log. -/
theorem Contended.hom_free : Consensus.Hom (⟨·, false⟩ : Replica → Contended) where
  submit _ _ _ := rfl
  isLeader _ := rfl
  leaderAddress _ := rfl
  addVoter _ _ _ := rfl
  store _ := rfl

namespace Service

section

variable {s : Service Replica} {held : Bool} {c : Command} {r : Replica}

/-- A command that is accepted comes to what it comes to on the store. -/
theorem submit_contend_of_ok {acc : Accepted}
    (h : s.consensus.submit c.encode s.timeout held = (.ok acc, r)) :
    (s.contend held).submit c =
      (.ok (s.store.dispatch c).2, ({ s with consensus := r } : Service Replica).contend held) := by
  obtain ⟨e, hdecode, -, rfl, -⟩ := Replica.submit_eq_ok h
  rw [Command.decode_encode] at hdecode
  cases hdecode
  have hsubmit : Consensus.submit (s.contend held).consensus c.encode
      (s.contend held).timeout = _ := Contended.submit_eq h
  rw [submit, hsubmit]
  rfl

/-- What a replica that leads answers otherwise is handed on as it is. -/
theorem submit_contend_of_error {e : SubmitError} (hleads : s.consensus.isLeader = true)
    (h : s.consensus.submit c.encode s.timeout held = (.error e, r)) :
    (s.contend held).submit c =
      (.error (.consensus e), ({ s with consensus := r } : Service Replica).contend held) := by
  have hofSubmit : ServiceError.ofSubmit e = .consensus e := by
    have hsubmission := s.consensus.submission c.encode s.timeout held
    rw [h] at hsubmission
    cases hsubmission with
    | notLeader hfollows =>
      rw [hleads] at hfollows
      cases hfollows
    | timeout _ hheld => rfl
    | halted _ hfree hhalted => rfl
    | undecodable _ hfree hrunning hdecode => rfl
    | unlogged _ hfree hrunning hdecode hpart => rfl
  have hsubmit : Consensus.submit (s.contend held).consensus c.encode
      (s.contend held).timeout = _ := Contended.submit_eq h
  rw [submit, hsubmit, ← hofSubmit]
  rfl

/-- What the submission of a service comes to that leads. -/
theorem submit_contend (held : Bool) (c : Command) (hleads : s.consensus.isLeader = true) :
    (∃ e r, s.consensus.submit c.encode s.timeout held = (.error e, r) ∧
      (s.contend held).submit c =
        (.error (.consensus e), ({ s with consensus := r } : Service Replica).contend held)) ∨
    ∃ acc r, s.consensus.submit c.encode s.timeout held = (.ok acc, r) ∧
      (s.contend held).submit c =
        (.ok (s.store.dispatch c).2,
          ({ s with consensus := r } : Service Replica).contend held) := by
  rcases hsubmit : s.consensus.submit c.encode s.timeout held with ⟨e | acc, r⟩
  · exact Or.inl ⟨e, r, rfl, submit_contend_of_error hleads hsubmit⟩
  · exact Or.inr ⟨acc, r, rfl, submit_contend_of_ok hsubmit⟩

end

/-- If nobody holds the log, it is the same service over another kind of consensus. -/
theorem contend_free (s : Service Replica) :
    s.contend false = s.map (⟨·, false⟩ : Replica → Contended) := rfl

/-! ## Operations that submit nothing -/

/-- An answer that comes without a submission: at most a voter was added, and a refusal neither ends
the node nor tells of a conflict. -/
structure Untouched {α : Type} (s : Service Replica) (a : Answer Replica α) : Prop where
  /-- The replica is as it was, or has one voter more. -/
  replica : a.2.consensus = s.consensus ∨
    ∃ nodeId address, a.2.consensus = s.consensus.act (.addVoter nodeId address)
  /-- A refusal is an ordinary one. -/
  ordinary : ∀ e, a.1 = .error e → e.isFatal = false ∧ e.code ≠ "HELIOS_TX_CONFLICT"

section

variable {α : Type} {s : Service Replica} {a : Answer Replica α}

/-- An answer that comes with the same replica leaves it untouched. -/
theorem untouched_of_ok {x : α} (h : a.1 = .ok x) (hreplica : a.2.consensus = s.consensus) :
    s.Untouched a where
  replica := Or.inl hreplica
  ordinary := by
    intro e he
    rw [h] at he
    cases he

/-- An ordinary refusal that comes with the same replica leaves it untouched. -/
theorem untouched_of_error {e : ServiceError} (h : a.1 = .error e)
    (hreplica : a.2.consensus = s.consensus) (hfatal : e.isFatal = false)
    (hcode : e.code ≠ "HELIOS_TX_CONFLICT") : s.Untouched a where
  replica := Or.inl hreplica
  ordinary := by
    intro e' he
    rw [h] at he
    cases he
    exact ⟨hfatal, hcode⟩

/-- Requiring a text adds an ordinary refusal. -/
theorem Untouched.requiring {field : String} (h : field ≠ "" → s.Untouched a) (name : String) :
    s.Untouched (s.requiring name field a) := by
  by_cases hfield : field = ""
  · rw [s.requiring_of_eq a hfield]
    exact untouched_of_error rfl rfl rfl (by simp [ServiceError.code])
  · rw [s.requiring_of_ne a hfield]
    exact h hfield

/-- Requiring leadership adds an ordinary refusal. -/
theorem Untouched.leading (h : s.consensus.isLeader = true → s.Untouched a) :
    s.Untouched (s.leading a) := by
  cases hleads : s.consensus.isLeader with
  | false =>
    rw [s.leading_of_follower a hleads]
    exact untouched_of_error rfl rfl rfl (by simp [ServiceError.code, notLeaderCode])
  | true =>
    rw [s.leading_of_leader a hleads]
    exact h hleads

end

section

variable (s : Service Replica)

/-- Looking a key up submits nothing. -/
theorem untouched_get (key : String) : s.Untouched (s.get key) := by
  apply Untouched.requiring
  intro _
  exact untouched_of_ok rfl rfl

/-- Reading a key in a transaction submits nothing. -/
theorem untouched_read (id key : String) : s.Untouched (s.read id key) := by
  apply Untouched.requiring
  intro _
  split
  · exact untouched_of_ok rfl rfl
  · exact untouched_of_error rfl rfl rfl (by simp [ServiceError.code, UnknownTransaction.code])

/-- Staging a write submits nothing. -/
theorem untouched_stageWrite (id key value : String) :
    s.Untouched (s.stageWrite id key value) := by
  apply Untouched.requiring
  intro _
  split
  · exact untouched_of_ok rfl rfl
  · exact untouched_of_error rfl rfl rfl (by simp [ServiceError.code, UnknownTransaction.code])

/-- Adding a voter submits nothing. -/
theorem untouched_join (nodeId address : String) : s.Untouched (s.join nodeId address) := by
  apply Untouched.requiring
  intro hid
  apply Untouched.requiring
  intro haddress
  apply Untouched.leading
  intro hleads
  have hadd : Consensus.addVoter s.consensus nodeId address =
      (.ok (), (s.consensus.addVoter nodeId address).2) := by
    show s.consensus.addVoter nodeId address = _
    rw [Replica.addVoter, if_neg (not_or.2 ⟨hid, haddress⟩), if_neg (fun hnot => hnot hleads)]
  rw [hadd]
  refine ⟨Or.inr ⟨nodeId, address, rfl⟩, ?_⟩
  intro e he
  cases he

end

end Service

namespace Node

/-! ## Doing a request -/

/-- The command that a request submits. It must have passed the checks of the service: its key is
there, the node leads, and the transaction is open. -/
inductive Submits (n : Node) : Request → Command → Prop where
  /-- A key is set. -/
  | set {key value : String} (hkey : key ≠ "") (hleads : n.replica.isLeader = true) :
      Submits n (.set key value) (.set key value)
  /-- A key is deleted. -/
  | delete {key : String} (hkey : key ≠ "") (hleads : n.replica.isLeader = true) :
      Submits n (.delete key) (.delete key)
  /-- An open transaction is committed. -/
  | commit {id : String} {t : Transaction} (hleads : n.replica.isLeader = true)
      (hopen : n.service.transactions.get? id = some t) : Submits n (.txCommit id) t.toCommand

/-- An answer that neither ends the node nor tells of a conflict. -/
def Ordinary : Except ServiceError Reply → Prop
  | .ok (.ok _) => True
  | .ok (.error code _) => code ≠ "HELIOS_TX_CONFLICT"
  | .error e => e.isFatal = false ∧ e.code ≠ "HELIOS_TX_CONFLICT"

/-- What doing a request may come to; `held` says whether another submission holds the log. -/
inductive Execution (n : Node) (held : Bool) (request : Request) :
    Except ServiceError Reply × Node → Prop where
  /-- Nothing is submitted, and the replica has one voter more at most. -/
  | unsubmitted {answer : Except ServiceError Reply} {n' : Node}
      (hnone : ∀ c, ¬ n.Submits request c)
      (hreplica : n'.replica = n.replica ∨
        ∃ nodeId address, n'.replica = n.replica.act (.addVoter nodeId address))
      (hordinary : Ordinary answer) : Execution n held request (answer, n')
  /-- The command is not accepted. -/
  | failed {c : Command} {e : SubmitError} {n' : Node} (hsubmits : n.Submits request c)
      (hsubmit : n.replica.submit c.encode n.service.timeout held = (.error e, n'.replica)) :
      Execution n held request (.error (.consensus e), n')
  /-- The command is accepted and applied. -/
  | done {c : Command} {acc : Accepted} {data : Json.Value} {n' : Node}
      (hsubmits : n.Submits request c)
      (hsubmit : n.replica.submit c.encode n.service.timeout held = (.ok acc, n'.replica)) :
      Execution n held request (.ok (.ok data), n')
  /-- The command is accepted and comes to a conflict, which leaves the store. -/
  | conflict {c : Command} {acc : Accepted} {x : Conflict} {n' : Node}
      (hsubmits : n.Submits request c)
      (hsubmit : n.replica.submit c.encode n.service.timeout held = (.ok acc, n'.replica))
      (hstore : (n.store.dispatch c).1 = n.store) :
      Execution n held request (.error (.conflict x), n')

section

variable {n : Node} {held : Bool} {request : Request}

/-- A request that submits nothing is done without a submission. -/
theorem execution_of_untouched {α : Type} {a : Service.Answer Replica α} {f : α → Reply}
    (hnone : ∀ c, ¬ n.Submits request c) (ha : n.service.Untouched a)
    (hf : ∀ x, Ordinary (.ok (f x))) : n.Execution held request (n.answer a f) := by
  refine .unsubmitted hnone ha.replica ?_
  obtain ⟨answer, s⟩ := a
  cases answer with
  | ok x => exact hf x
  | error e => exact ha.ordinary e rfl

/-- Nothing is submitted to a node that does not lead. -/
theorem not_submits_of_follower (h : n.replica.isLeader = false) (c : Command) :
    ¬ n.Submits request c := by
  intro hsubmits
  have hleads : n.replica.isLeader = true := by
    cases hsubmits <;> assumption
  rw [h] at hleads
  cases hleads

section

variable {α : Type} {act : Service.Answer Contended α} {f : α → Reply}
  (hf : ∀ x, Ordinary (.ok (f x)))
include hf

/-- A request that lacks a text is done without a submission, and others as they are. -/
theorem execution_of_requiring {key : String} (hmissing : key = "" → ∀ c, ¬ n.Submits request c)
    (h : key ≠ "" → n.Execution held request (n.answerWhile act f)) (name : String) :
    n.Execution held request
      (n.answerWhile ((n.service.contend held).requiring name key act) f) := by
  by_cases hkey : key = ""
  · rw [Service.requiring_of_eq _ _ hkey name]
    apply execution_of_untouched (hmissing hkey) _ hf
    exact Service.untouched_of_error rfl rfl rfl (by simp [ServiceError.code])
  · rw [Service.requiring_of_ne _ _ hkey name]
    exact h hkey

/-- A request to a node that does not lead is done without a submission, and others as they are. -/
theorem execution_of_leading
    (h : n.replica.isLeader = true → n.Execution held request (n.answerWhile act f)) :
    n.Execution held request (n.answerWhile ((n.service.contend held).leading act) f) := by
  cases hleads : n.replica.isLeader with
  | false =>
    rw [Service.leading_of_follower _ _ hleads]
    apply execution_of_untouched (not_submits_of_follower hleads) _ hf
    exact Service.untouched_of_error rfl rfl rfl (by simp [ServiceError.code, notLeaderCode])
  | true =>
    rw [Service.leading_of_leader _ _ hleads]
    exact h hleads

end

/-- Setting a key submits the command or is refused before. -/
theorem execution_set (n : Node) (held : Bool) (key value : String) :
    n.Execution held (.set key value) (n.executeWhile held (.set key value)) := by
  refine execution_of_requiring (by intro _; trivial) ?_ ?_ "key"
  · rintro rfl c hsubmits
    cases hsubmits with
    | set hkey hleads => exact hkey rfl
  intro hkey
  refine execution_of_leading (by intro _; trivial) ?_
  intro hleads
  rcases n.service.submit_contend held (.set key value) hleads with
    ⟨e, r, hsubmit, hanswer⟩ | ⟨acc, r, hsubmit, hanswer⟩
  · rw [hanswer]
    exact .failed (.set hkey hleads) hsubmit
  · rw [hanswer]
    exact .done (.set hkey hleads) hsubmit

/-- Deleting a key submits the command or is refused before. -/
theorem execution_delete (n : Node) (held : Bool) (key : String) :
    n.Execution held (.delete key) (n.executeWhile held (.delete key)) := by
  refine execution_of_requiring (by intro _; trivial) ?_ ?_ "key"
  · rintro rfl c hsubmits
    cases hsubmits with
    | delete hkey hleads => exact hkey rfl
  intro hkey
  refine execution_of_leading (by intro _; trivial) ?_
  intro hleads
  rcases n.service.submit_contend held (.delete key) hleads with
    ⟨e, r, hsubmit, hanswer⟩ | ⟨acc, r, hsubmit, hanswer⟩
  · rw [hanswer]
    exact .failed (.delete hkey hleads) hsubmit
  · rw [hanswer]
    exact .done (.delete hkey hleads) hsubmit

/-- Committing a transaction submits its command or is refused before; a conflict leaves the store.
-/
theorem execution_commit (n : Node) (held : Bool) (id : String) :
    n.Execution held (.txCommit id) (n.executeWhile held (.txCommit id)) := by
  refine execution_of_leading (by intro _; trivial) ?_
  intro hleads
  have htransactions : (n.service.contend held).transactions = n.service.transactions := rfl
  rw [htransactions]
  cases hopen : n.service.transactions.get? id with
  | none =>
    refine execution_of_untouched ?_ ?_ (fun _ => trivial)
    · intro c hsubmits
      cases hsubmits with
      | commit _ hopen' =>
        rw [hopen] at hopen'
        cases hopen'
    · exact Service.untouched_of_error rfl rfl rfl
        (by simp [ServiceError.code, UnknownTransaction.code])
  | some t =>
    dsimp only
    have hsubmits : n.Submits (.txCommit id) t.toCommand := .commit hleads hopen
    rcases n.service.submit_contend held t.toCommand hleads with
      ⟨e, r, hsubmit, hanswer⟩ | ⟨acc, r, hsubmit, hanswer⟩
    · rw [hanswer]
      exact .failed hsubmits hsubmit
    · have hdispatch : n.service.store.dispatch t.toCommand = _ :=
        Store.dispatch_commit n.store t.reads t.writes
      rw [hanswer, hdispatch]
      -- an accepted commit is a success or a conflict, and a conflict leaves the store
      cases hconflict : n.store.conflict? t.reads with
      | none => exact .done hsubmits hsubmit
      | some x =>
        rw [hconflict] at hdispatch
        exact .conflict hsubmits hsubmit (congrArg Prod.fst hdispatch)

/-- **What doing a request may come to.** -/
theorem execution (n : Node) (held : Bool) (request : Request) :
    n.Execution held request (n.executeWhile held request) := by
  cases request with
  | set key value => exact execution_set n held key value
  | delete key => exact execution_delete n held key
  | txCommit id => exact execution_commit n held id
  | get key =>
    refine execution_of_untouched (fun c => nofun) (n.service.untouched_get key) ?_
    intro found
    cases found with
    | none =>
      intro hcode
      simp at hcode
    | some v => trivial
  | txRead id key =>
    exact execution_of_untouched (fun c => nofun) (n.service.untouched_read id key)
      (by intro _; trivial)
  | txWrite id key value =>
    exact execution_of_untouched (fun c => nofun) (n.service.untouched_stageWrite id key value)
      (by intro _; trivial)
  | join nodeId address =>
    exact execution_of_untouched (fun c => nofun) (n.service.untouched_join nodeId address)
      (by intro _; trivial)
  | begin => exact .unsubmitted (fun c => nofun) (Or.inl rfl) trivial
  | txAbort id => exact .unsubmitted (fun c => nofun) (Or.inl rfl) trivial
  | status => exact .unsubmitted (fun c => nofun) (Or.inl rfl) trivial

end

/-! ## Answering a line -/

/-- Where nobody holds the log, a request is done as usual. -/
theorem executeWhile_false (n : Node) (request : Request) :
    n.executeWhile false request = n.execute request := by
  cases request with
  | set key value =>
    rw [executeWhile, n.service.contend_free, Service.set_map Contended.hom_free]
    rfl
  | delete key =>
    rw [executeWhile, n.service.contend_free, Service.delete_map Contended.hom_free]
    rfl
  | txCommit id =>
    rw [executeWhile, n.service.contend_free, Service.commit_map Contended.hom_free]
    rfl
  | get key => rfl
  | begin => rfl
  | txRead id key => rfl
  | txWrite id key value => rfl
  | txAbort id => rfl
  | join nodeId address => rfl
  | status => rfl

/-- Where nobody holds the log, a line is answered as usual. -/
theorem handleWhile_false (n : Node) (line : Bytes) : n.handleWhile false line = n.handle line := by
  rw [handleWhile, handle]
  cases Request.read line with
  | error cause => rfl
  | ok request =>
    rcases hexecute : n.execute request with ⟨e | reply, m⟩ <;>
      simp only [executeWhile_false, hexecute]

/-- What becomes of an answer: a failure that ends the node stays one, any other is a reply. -/
def concluded : Except ServiceError Reply → Except ServiceError Reply
  | .ok reply => .ok reply
  | .error e => if e.isFatal then .error e else .ok (.error e.code e.message)

section

variable {n : Node} {held : Bool} {line : Bytes}

/-- A line that is no request is refused, and nothing changes. -/
theorem handleWhile_of_unreadable {cause : Json.ReadError} (h : Request.read line = .error cause) :
    n.handleWhile held line = (.ok (.error "HELIOS_INVALID_REQUEST" cause.message), n) := by
  simp only [handleWhile, h]

/-- How a line is answered that is read as a request. -/
theorem handleWhile_of_read {request : Request} {answer : Except ServiceError Reply} {n' : Node}
    (h : Request.read line = .ok request) (hexecute : n.executeWhile held request = (answer, n')) :
    n.handleWhile held line = (concluded answer, n') := by
  simp only [handleWhile, h, hexecute]
  cases answer with
  | ok reply => rfl
  | error e =>
    unfold concluded
    dsimp only
    split <;> rfl

end

/-! ## The states of a node -/

/-- The states that a node can come to. -/
inductive Reachable : Node → Prop where
  /-- It is booted, from any disk and in any part. -/
  | boot {d d' : Disk} {config : Config} {leads : Bool} {ids : Nat → String} {n : Node}
      (hboot : boot d config leads ids = (.ok n, d')) : Reachable n
  /-- It is handed a line, which may find the log held by another submission. -/
  | handle {n : Node} (held : Bool) (line : Bytes) :
      Reachable n → Reachable (n.handleWhile held line).2
  /-- Something else happens to its replica. -/
  | act {n : Node} (a : Replica.Action) : Reachable n → Reachable (n.withReplica (·.act a))
  /-- The file of its log is changed by others. -/
  | file {n : Node} (medium : Log.Medium) :
      Reachable n → Reachable (n.withReplica fun r => { r with machine.log.medium := medium })

/-- One request: the replica comes to a state that it can come to. -/
theorem Execution.reachable {n : Node} {held : Bool} {request : Request}
    {result : Except ServiceError Reply × Node} (h : n.Execution held request result)
    (hr : n.replica.Reachable) : result.2.replica.Reachable := by
  have hact : ∀ {b timeout answer r}, n.replica.submit b timeout held = (answer, r) →
      r.Reachable := by
    intro b timeout answer r hsubmit
    have hreached := hr.act (.submit b timeout held)
    rw [Replica.act, hsubmit] at hreached
    exact hreached
  cases h with
  | unsubmitted hnone hreplica hordinary =>
    rcases hreplica with hsame | ⟨nodeId, address, hvoter⟩
    · rw [hsame]
      exact hr
    · rw [hvoter]
      exact hr.act _
  | failed hsubmits hsubmit => exact hact hsubmit
  | done hsubmits hsubmit => exact hact hsubmit
  | conflict hsubmits hsubmit hstore => exact hact hsubmit

/-- Whatever line is handled, a reachable replica leads to a reachable one. -/
theorem reachable_handleWhile {n : Node} (h : n.replica.Reachable) (held : Bool) (line : Bytes) :
    (n.handleWhile held line).2.replica.Reachable := by
  cases hread : Request.read line with
  | error cause =>
    rw [handleWhile_of_unreadable hread]
    exact h
  | ok request =>
    rw [handleWhile_of_read hread rfl]
    exact (n.execution held request).reachable h

/-- **The replica of a node comes only to states that a replica can come to**, whatever lines the
node is handed and whatever happens besides. -/
theorem Reachable.replica {n : Node} (h : n.Reachable) : n.replica.Reachable := by
  induction h with
  | boot hboot =>
    rename_i d d' config leads ids n
    unfold Node.boot at hboot
    split at hboot
    · cases hboot
    · rename_i machine stats d'' hrecover
      cases hboot
      cases leads with
      | true => exact .bootstrap _ _ machine
      | false => exact (Replica.Reachable.bootstrap _ _ machine).act (.stepDown none)
  | handle held line _ ih => exact reachable_handleWhile ih held line
  | act a _ ih => exact ih.act a
  | file medium _ ih => exact ih.file medium

/-! ## What a line leaves behind -/

/-- Only a node that leads submits anything. -/
theorem Submits.leads {n : Node} {request : Request} {c : Command} (h : n.Submits request c) :
    n.replica.isLeader = true := by
  cases h <;> assumption

section

variable {n n' : Node} {held : Bool} {request : Request} {answer : Except ServiceError Reply}

/-- A command that a leader accepts: nobody held the log, the replica was running, and all that has
changed is that one record has been appended and applied. -/
theorem submit_command_ok {r r' : Replica} {c : Command} {timeout : Nat} {acc : Accepted}
    (hr : r.Reachable) (hfile : r.machine.log.medium.Possible)
    (h : r.submit c.encode timeout held = (.ok acc, r')) :
    r.halted = none ∧ r'.halted = none ∧ r'.store = (r.store.dispatch c).1 ∧
      r'.logContent =
        r.logContent ++ (Log.Record.make (r.commitIndex + 1) (.command c)).line ∧
      r'.commitIndex = r.commitIndex + 1 := by
  have hsubmission := r.submission c.encode timeout held
  rw [h] at hsubmission
  cases hsubmission with
  | accepted hleads hfree hrunning hdecode hwrites hsyncs =>
    obtain ⟨hindex, -, -, e, hentry, hcontent, hstore, -⟩ :=
      Replica.grownBy_accept hr (hfile hsyncs) hdecode
    rw [Command.decode_encode] at hentry
    cases hentry
    exact ⟨hrunning, hrunning, hstore, hcontent, hindex⟩

/-- A command that a leader does not accept: the log was held and nothing has changed, or the
replica has halted and all that has changed besides is that a part of one line may have been
written. -/
theorem submit_command_error {r r' : Replica} {c : Command} {timeout : Nat} {e : SubmitError}
    (hr : r.Reachable) (hleads : r.isLeader = true)
    (h : r.submit c.encode timeout held = (.error e, r')) :
    (held = true ∧ e = .timeout timeout ∧ r' = r) ∨
      (held = false ∧ e.isFatal = true ∧ r'.halted ≠ none ∧ r'.store = r.store ∧
        r'.commitIndex = r.commitIndex ∧ ∃ part,
          part <+: (Log.Record.make (r.commitIndex + 1) (.command c)).line ∧
          r'.logContent = r.logContent ++ part) := by
  have hsubmission := r.submission c.encode timeout held
  rw [h] at hsubmission
  cases hsubmission with
  | notLeader hfollows =>
    rw [hleads] at hfollows
    cases hfollows
  | timeout _ hheld => exact Or.inl ⟨hheld, rfl, rfl⟩
  | halted _ hfree hhalted =>
    refine Or.inr ⟨hfree, rfl, ?_, rfl, rfl, [], List.nil_prefix, (List.append_nil _).symm⟩
    rw [hhalted]
    exact Option.some_ne_none _
  | undecodable _ hfree hrunning hdecode =>
    rw [Command.decode_encode] at hdecode
    cases hdecode
  | unlogged _ hfree hrunning hdecode hpart =>
    rw [Command.decode_encode] at hdecode
    cases hdecode
    obtain ⟨left, hleft, hcontent⟩ := r.machine.log.medium.content_grown_part hpart
    rw [hr.next_eq] at hleft
    exact Or.inr ⟨hfree, rfl, Option.some_ne_none _, rfl, rfl, left, hleft, hcontent⟩

/-- An ordinary answer is told to the client, and not as a conflict. -/
theorem concluded_of_ordinary (h : Ordinary answer) :
    ∃ reply, concluded answer = .ok reply ∧
      ∀ message, reply ≠ .error "HELIOS_TX_CONFLICT" message := by
  match answer, h with
  | .ok (.ok data), _ => exact ⟨_, rfl, by simp⟩
  | .ok (.error code message), hcode =>
    refine ⟨_, rfl, ?_⟩
    intro message' heq
    exact hcode (Reply.error.inj heq).1
  | .error e, ⟨hfatal, hcode⟩ =>
    refine ⟨.error e.code e.message, ?_, ?_⟩
    · rw [concluded, hfatal]
      rfl
    · intro message' heq
      exact hcode (Reply.error.inj heq).1

/-- A request that submits nothing changes nothing of the replica but its voters. -/
theorem replica_of_unsubmitted (h : n'.replica = n.replica ∨
      ∃ nodeId address, n'.replica = n.replica.act (.addVoter nodeId address)) :
    ∃ voters, n'.replica = { n.replica with voters } := by
  rcases h with hsame | ⟨nodeId, address, hvoter⟩
  · exact ⟨n.replica.voters, hsame⟩
  · obtain ⟨voters, hact⟩ := n.replica.addVoter_eq nodeId address
    exact ⟨voters, hvoter.trans hact⟩

/-- A request that is answered by an error, and has not ended the node. -/
theorem Execution.of_error_reply (h : n.Execution held request (answer, n'))
    (hn : n.replica.Reachable) (hfile : n.replica.machine.log.medium.Possible)
    {code message : String} (hreply : concluded answer = .ok (.error code message)) :
    n'.store = n.store ∧
      (code ≠ "HELIOS_TX_CONFLICT" → n'.replica.logContent = n.replica.logContent ∧
        n'.replica.commitIndex = n.replica.commitIndex) ∧
      (code = "HELIOS_TX_CONFLICT" → ∃ c, n.Submits request c ∧
        n'.replica.logContent = n.replica.logContent ++
          (Log.Record.make (n.replica.commitIndex + 1) (.command c)).line ∧
        n'.replica.commitIndex = n.replica.commitIndex + 1) := by
  cases h with
  | unsubmitted hnone hreplica hordinary =>
    obtain ⟨reply, hconcluded, hcode⟩ := concluded_of_ordinary hordinary
    obtain ⟨voters, hvoters⟩ := replica_of_unsubmitted hreplica
    rw [hconcluded] at hreply
    refine ⟨?_, ?_, ?_⟩
    · show n'.replica.store = n.replica.store
      rw [hvoters]
      rfl
    · intro _
      rw [hvoters]
      exact ⟨rfl, rfl⟩
    · rintro rfl
      exact absurd (Except.ok.inj hreply) (hcode message)
  | failed hsubmits hsubmit =>
    rcases submit_command_error hn hsubmits.leads hsubmit with
      ⟨-, rfl, hsame⟩ | ⟨-, hfatal, -⟩
    · have hcode : "HELIOS_SUBMIT_TIMEOUT" = code := (Reply.error.inj (Except.ok.inj hreply)).1
      refine ⟨congrArg Replica.store hsame, ?_, ?_⟩
      · intro _
        rw [hsame]
        exact ⟨rfl, rfl⟩
      · rintro rfl
        simp at hcode
    · have hends : concluded (.error (.consensus _)) = _ := if_pos hfatal
      rw [hends] at hreply
      cases hreply
  | done hsubmits hsubmit => cases hreply
  | conflict hsubmits hsubmit hstore =>
    obtain ⟨-, -, hdispatched, hcontent, hindex⟩ := submit_command_ok hn hfile hsubmit
    have hcode : "HELIOS_TX_CONFLICT" = code := (Reply.error.inj (Except.ok.inj hreply)).1
    refine ⟨hdispatched.trans hstore, ?_, ?_⟩
    · intro hother
      exact absurd hcode.symm hother
    · intro _
      exact ⟨_, hsubmits, hcontent, hindex⟩

/-- A request that has ended the node. -/
theorem Execution.of_end (h : n.Execution held request (answer, n')) (hn : n.replica.Reachable)
    {e : ServiceError} (hend : concluded answer = .error e) :
    n'.store = n.store ∧ n'.replica.commitIndex = n.replica.commitIndex ∧
      ∃ c part, n.Submits request c ∧ held = false ∧ n'.replica.halted ≠ none ∧
        part <+: (Log.Record.make (n.replica.commitIndex + 1) (.command c)).line ∧
        n'.replica.logContent = n.replica.logContent ++ part := by
  cases h with
  | unsubmitted hnone hreplica hordinary =>
    obtain ⟨reply, hconcluded, -⟩ := concluded_of_ordinary hordinary
    rw [hconcluded] at hend
    cases hend
  | failed hsubmits hsubmit =>
    rcases submit_command_error hn hsubmits.leads hsubmit with
      ⟨-, rfl, -⟩ | ⟨hfree, -, hhalted, hstore, hindex, part, hpart, hcontent⟩
    · cases hend
    · exact ⟨hstore, hindex, _, part, hsubmits, hfree, hhalted, hpart, hcontent⟩
  | done hsubmits hsubmit => cases hend
  | conflict hsubmits hsubmit hstore => cases hend

/-- A command that is submitted while nobody holds the log ends the node if it meets a halt or leads
to one. -/
theorem Execution.ends (h : n.Execution held request (answer, n')) (hn : n.replica.Reachable)
    (hfile : n.replica.machine.log.medium.Possible) {c : Command} (hsubmits : n.Submits request c)
    (hfree : held = false) (hhalted : n.replica.halted ≠ none ∨ n'.replica.halted ≠ none) :
    ∃ e, concluded answer = .error e := by
  cases h with
  | unsubmitted hnone hreplica hordinary => exact absurd hsubmits (hnone c)
  | failed hsubmits' hsubmit =>
    rcases submit_command_error hn hsubmits'.leads hsubmit with ⟨hheld, -⟩ | ⟨-, hfatal, -⟩
    · rw [hfree] at hheld
      cases hheld
    · exact ⟨_, if_pos hfatal⟩
  | done hsubmits' hsubmit =>
    obtain ⟨hrunning, hrunning', -⟩ := submit_command_ok hn hfile hsubmit
    exact absurd hhalted (not_or.2 ⟨fun h => h hrunning, fun h => h hrunning'⟩)
  | conflict hsubmits' hsubmit hstore =>
    obtain ⟨hrunning, hrunning', -⟩ := submit_command_ok hn hfile hsubmit
    exact absurd hhalted (not_or.2 ⟨fun h => h hrunning, fun h => h hrunning'⟩)

end

/-- **The store changes only with a success.** A node is in any state that it can come to, the file
of its log holds anything and fails in any way that a file can, and it is handed any line, while the
log may be held by another submission. If the reply is an error, the store is as it was, and so are
the log and the position of the last entry; only a conflict comes with exactly one record more, that
of the commit, and with the next position. If the node ends instead, the store and the position are
as they were, and a part of one line may be left in the log. A line that is no request changes
nothing at all. And the node ends exactly if a command was submitted, nobody else held the log, and
the node had halted before or has halted now. -/
theorem store_changes_on_success {n n' : Node} (hn : n.Reachable)
    (hfile : n.replica.machine.log.medium.Possible) {held : Bool} {line : Bytes}
    {answer : Except ServiceError Reply} (h : n.handleWhile held line = (answer, n')) :
    (∀ code message, answer = .ok (.error code message) → n'.store = n.store ∧
      (code ≠ "HELIOS_TX_CONFLICT" → n'.replica.logContent = n.replica.logContent ∧
        n'.replica.commitIndex = n.replica.commitIndex) ∧
      (code = "HELIOS_TX_CONFLICT" → ∃ request c, Request.read line = .ok request ∧
        n.Submits request c ∧ n'.replica.logContent = n.replica.logContent ++
          (Log.Record.make (n.replica.commitIndex + 1) (.command c)).line ∧
        n'.replica.commitIndex = n.replica.commitIndex + 1)) ∧
    (∀ e, answer = .error e → n'.store = n.store ∧
      n'.replica.commitIndex = n.replica.commitIndex ∧ ∃ request c part,
        Request.read line = .ok request ∧ n.Submits request c ∧
        part <+: (Log.Record.make (n.replica.commitIndex + 1) (.command c)).line ∧
        n'.replica.logContent = n.replica.logContent ++ part) ∧
    ((∀ request, Request.read line ≠ .ok request) → n' = n) ∧
    ((∃ e, answer = .error e) ↔ ∃ request c, Request.read line = .ok request ∧
      n.Submits request c ∧ held = false ∧
      (n.replica.halted ≠ none ∨ n'.replica.halted ≠ none)) := by
  have hr := hn.replica
  cases hread : Request.read line with
  | error cause =>
    rw [handleWhile_of_unreadable hread] at h
    cases h
    refine ⟨?_, ?_, fun _ => rfl, ?_, ?_⟩
    · intro code message hreply
      cases hreply
      refine ⟨rfl, fun _ => ⟨rfl, rfl⟩, ?_⟩
      intro hcode
      simp at hcode
    · intro e hend
      cases hend
    · rintro ⟨e, hend⟩
      cases hend
    · rintro ⟨request, c, hrequest, -⟩
      cases hrequest
  | ok request =>
    rcases hexecute : n.executeWhile held request with ⟨given, after⟩
    have hexecution := n.execution held request
    rw [hexecute] at hexecution
    rw [handleWhile_of_read hread hexecute] at h
    cases h
    refine ⟨?_, ?_, ?_, ?_, ?_⟩
    · intro code message hreply
      obtain ⟨hstore, hkept, hconflict⟩ := hexecution.of_error_reply hr hfile hreply
      refine ⟨hstore, hkept, ?_⟩
      intro hcode
      obtain ⟨c, hsubmits, hcontent, hindex⟩ := hconflict hcode
      exact ⟨request, c, rfl, hsubmits, hcontent, hindex⟩
    · intro e hend
      obtain ⟨hstore, hindex, c, part, hsubmits, -, -, hpart, hcontent⟩ := hexecution.of_end hr hend
      exact ⟨hstore, hindex, request, c, part, rfl, hsubmits, hpart, hcontent⟩
    · intro hunreadable
      exact absurd rfl (hunreadable request)
    · rintro ⟨e, hend⟩
      obtain ⟨-, -, c, -, hsubmits, hfree, hhalted, -⟩ := hexecution.of_end hr hend
      exact ⟨request, c, rfl, hsubmits, hfree, Or.inr hhalted⟩
    · rintro ⟨_, c, hrequest, hsubmits, hfree, hhalted⟩
      cases hrequest
      exact hexecution.ends hr hfile hsubmits hfree hhalted

/-- A node that was given something else than a command has halted. A set ends it and changes
nothing, and the same set is only turned away while the log is held. -/
theorem store_kept_by_halted_node :
    let config : Config := { nodeId := "n", dataDir := "data" }
    let noise := Bytes.ofText "not a command"
    let line := Bytes.ofText "[\"set\",\"k\",\"v\"]"
    ∃ node d', boot {} config true Nat.repr = (.ok node, d') ∧
      ∃ n, n = node.withReplica (·.act (.submit noise 0 false)) ∧
        (∃ e n', n.handleWhile false line = (.error e, n') ∧ n'.store = ∅) ∧
        ∀ e, (n.handleWhile true line).1 ≠ .error e := by
  let config : Config := { nodeId := "n", dataDir := "data" }
  let noise := Bytes.ofText "not a command"
  let line := Bytes.ofText "[\"set\",\"k\",\"v\"]"
  have hfresh : ({} : Disk).HoldsNoLog config.dataDir := Disk.holdsNoLog_empty
  obtain ⟨machine, stats, hboot, hrestored⟩ := boot_of_holdsNoLog hfresh true Nat.repr
  let node := ofMachine config true Nat.repr machine stats
  let n := node.withReplica (·.act (.submit noise 0 false))
  have hbooted : boot {} config true Nat.repr = (.ok node, (boot {} config true Nat.repr).2) :=
    Prod.ext hboot rfl
  obtain ⟨why, hdecode⟩ : ∃ why, Entry.decode noise = .error why := ⟨_, rfl⟩
  have happly : machine.apply noise = (.error (.decode why), machine) := by
    simp only [Machine.apply, hdecode]
  have hreplica : n.replica =
      { node.replica with machine := machine, halted := some (ApplyError.decode why).message } :=
    congrArg Prod.snd (Replica.submit_of_apply_error (r := node.replica) rfl rfl happly 0)
  have hreachable : n.Reachable := .act _ (.boot hbooted)
  have hpossible : n.replica.machine.log.medium.Possible := by
    rw [hreplica]
    exact fun _ => hrestored.healthy.keeps
  have hread : Request.read line = .ok (.set "k" "v") := rfl
  have hsubmits : n.Submits (.set "k" "v") (.set "k" "v") := by
    refine .set (by decide) ?_
    rw [hreplica]
    rfl
  refine ⟨node, _, hbooted, n, rfl, ?_, ?_⟩
  · obtain ⟨-, hends, -, hiff⟩ := store_changes_on_success hreachable hpossible
      (show n.handleWhile false line = ((n.handleWhile false line).1, (n.handleWhile false line).2)
        from rfl)
    have hhalted : n.replica.halted ≠ none := by
      rw [hreplica]
      exact Option.some_ne_none _
    obtain ⟨e, he⟩ := hiff.2 ⟨_, _, hread, hsubmits, rfl, Or.inl hhalted⟩
    refine ⟨e, _, Prod.ext he rfl, (hends e he).1.trans ?_⟩
    show n.replica.store = ∅
    rw [hreplica]
    exact hrestored.store
  · intro e he
    obtain ⟨-, -, -, hiff⟩ := store_changes_on_success hreachable hpossible
      (show n.handleWhile true line = ((n.handleWhile true line).1, (n.handleWhile true line).2)
        from rfl)
    obtain ⟨_, _, -, -, hfree, -⟩ := hiff.1 ⟨e, he⟩
    cases hfree

end Node

end DurableKV
