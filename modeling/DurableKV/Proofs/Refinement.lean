import DurableKV.Proofs.Asking
import DurableKV.Proofs.Ideal
import DurableKV.Proofs.Runs
import DurableKV.Proofs.Service

/-!
# A node answers as the ideal machine does

`Node.Refines` ties a node to a state of the ideal machine: the replica is ready, and its store and
voters, the transactions of the service and the number of accepted entries are those of the machine.

* `refines_step`: one request is answered as the machine answers it, and the tie holds after it.
* `handle_refines`: so is every line of every run of a node that was booted where no log is. No line
  ends the node, and no reply has a code that tells of a failure inside it.
-/

namespace DurableKV

/-! ## Writing -/

namespace Ideal

/-- The version of a key in the machine is the version that the store reports. -/
theorem versionIn_eq (store : Store) (key : String) : versionIn store key = store.version key := by
  rw [versionIn, Store.version]
  cases Table.get? store key <;> rfl

/-- An assignment of the machine is a write of the store. -/
theorem assign_eq (store : Store) (key value : String) :
    assign store ⟨key, value⟩ = (store.set key value).1 := by
  rw [assign, versionIn_eq]
  rfl

/-- The assignments of the machine are the writes of the store, with their versions. -/
theorem writeAll_eq (as : List Assignment) : (store : Store) →
    store.writeAll as = (as.foldl assign store, versionsGiven store as) := by
  induction as with
  | nil =>
    intro store
    rfl
  | cons a as ih =>
    intro store
    rw [Store.writeAll_cons, ih, ← assign_eq, List.foldl_cons, versionsGiven, versionIn_eq]
    rfl

/-- The first stale observation of the machine is the conflict that the store finds. -/
theorem conflict?_eq (store : Store) (reads : List Observation) :
    store.conflict? reads =
      (stale? store reads).map fun o => ⟨o.key, o.version, versionIn store o.key⟩ := by
  induction reads with
  | nil => rfl
  | cons o reads ih =>
    rw [stale?, List.find?_cons, Store.conflict?, ← versionIn_eq]
    by_cases h : versionIn store o.key = o.version
    · rw [if_pos h, ih]
      simp [stale?, h]
    · rw [if_neg h]
      simp [h]

end Ideal

namespace Node

/-! ## The tie between a node and the machine -/

/-- A node that does what the ideal machine does. -/
structure Refines (config : Config) (ids : Nat → String) (n : Node) (m : Ideal) : Prop where
  /-- The node has this configuration. -/
  configured : n.config = config
  /-- The node draws its transaction ids from this supply. -/
  supply : n.ids = ids
  /-- The replica accepts whatever can be decoded. -/
  ready : n.replica.Ready
  /-- Its address is the configured one. -/
  address : n.replica.address = config.raftAddress
  /-- The keys of node and machine are the same, with their values and versions. -/
  store : n.store = m.store
  /-- The open transactions of node and machine are the same. -/
  transactions : n.service.transactions = m.transactions
  /-- The voters of node and machine are the same. -/
  voters : n.replica.voters = m.voters
  /-- The position of the last entry is the number of entries that the machine has accepted. -/
  commitIndex : n.replica.commitIndex = UInt64.ofNat m.accepted
  /-- Node and machine have begun the same number of transactions. -/
  issued : n.issued = m.begun

/-- A node with other open transactions. -/
def withTransactions (n : Node) (transactions : Transactions) : Node :=
  { n with service := { n.service with transactions } }

/-- A node whose replica has accepted a command. -/
def accepting (n : Node) (c : Command) : Node := n.withReplica fun r => r.accept (.command c)

section

variable {config : Config} {ids : Nat → String} {n : Node} {m : Ideal}

/-- Node and machine may change their open transactions alike. -/
theorem Refines.withTransactions (h : n.Refines config ids m) (transactions : Transactions) :
    (n.withTransactions transactions).Refines config ids { m with transactions } where
  configured := h.configured
  supply := h.supply
  ready := h.ready
  address := h.address
  store := h.store
  transactions := rfl
  voters := h.voters
  commitIndex := h.commitIndex
  issued := h.issued

/-- The node may accept a command that takes its store to that of the machine, which counts one
entry more. -/
theorem Refines.accepting (h : n.Refines config ids m) {c : Command} {store : Store}
    (hstore : (n.store.dispatch c).1 = store) :
    (n.accepting c).Refines config ids { m with store, accepted := m.accepted + 1 } where
  configured := h.configured
  supply := h.supply
  ready := h.ready.accept _
  address := h.address
  store := (n.replica.accept_store _).trans hstore
  transactions := h.transactions
  voters := h.voters
  commitIndex := by
    show n.replica.commitIndex + 1 = _
    rw [h.commitIndex, UInt64.ofNat_add]
    rfl
  issued := h.issued

end

/-! ## Answers and replies -/

/-- A request is answered with this reply, and the node is this one afterwards. -/
def Replies (n : Node) (r : Request) (reply : Reply) (n' : Node) : Prop :=
  n.execute r = (.ok reply, n') ∨
    ∃ e, n.execute r = (.error e, n') ∧ e.isFatal = false ∧ reply = .error e.code e.message

/-- A line that is read as a request is answered with the reply to the request. -/
theorem handle_of_replies {n n' : Node} {r : Request} {reply : Reply} {line : Bytes}
    (hread : Request.read line = .ok r) (h : n.Replies r reply n') :
    n.handle line = (.ok reply, n') := by
  rw [handle, hread]
  rcases h with h | ⟨e, h, hfatal, rfl⟩
  · dsimp only
    rw [h]
  · dsimp only
    rw [h]
    dsimp only
    rw [if_neg (fun hyes => Bool.false_ne_true (hfatal.symm.trans hyes))]

section

variable {α : Type} {n : Node} {r : Request} {a : Service.Answer Replica α} {f : α → Reply}

/-- The result of an operation is replied. -/
theorem replies_of_ok (hexecute : n.execute r = n.answer a f) {x : α} {s : Service Replica}
    (ha : a = (.ok x, s)) : n.Replies r (f x) { n with service := s } := by
  rw [ha] at hexecute
  exact Or.inl hexecute

/-- An error of an operation that does not end the node is replied with its code and its message. -/
theorem replies_of_error (hexecute : n.execute r = n.answer a f) {e : ServiceError}
    {s : Service Replica} (ha : a = (.error e, s)) (hfatal : e.isFatal = false) :
    n.Replies r (.error e.code e.message) { n with service := s } := by
  rw [ha] at hexecute
  exact Or.inr ⟨e, hexecute, hfatal, rfl⟩

/-- A request that lacks a text is answered so, and nothing changes. -/
theorem replies_of_missing {argument field : String} {act : Service.Answer Replica α}
    (hexecute : n.execute r = n.answer (n.service.requiring argument field act) f)
    (h : field = "") (config : Config) :
    n.Replies r ((Ideal.Answer.missing argument).reply config n.metrics) n :=
  replies_of_error hexecute (n.service.requiring_of_eq act h argument) rfl

end

/-! ## One request -/

section

variable {config : Config} {ids : Nat → String} {n : Node} {m : Ideal}

/-- A request is answered as the machine answers it, and the node refines the machine after it. -/
def StepRefines (config : Config) (ids : Nat → String) (n : Node) (m : Ideal) (r : Request) :
    Prop :=
  ∃ n', n.Replies r ((m.step ids r).1.reply config n.metrics) n' ∧
    n'.Refines config ids (m.step ids r).2

/-- A key is looked up in the same store. -/
theorem stepRefines_get (h : n.Refines config ids m) (key : String) :
    n.StepRefines config ids m (.get key) := by
  by_cases hkey : key = ""
  · rw [StepRefines, Ideal.step, if_pos hkey]
    exact ⟨n, replies_of_missing rfl hkey config, h⟩
  · rw [StepRefines, Ideal.step, if_neg hkey]
    have hget : n.service.get key = (.ok (n.store.get? key), n.service) :=
      n.service.requiring_of_ne _ hkey "key"
    have hreplies := replies_of_ok (n := n) (r := .get key) rfl hget
    rw [h.store] at hreplies
    cases hfound : m.store.get? key with
    | none =>
      rw [hfound] at hreplies
      exact ⟨n, hreplies, h⟩
    | some v =>
      rw [hfound] at hreplies
      exact ⟨n, hreplies, h⟩

/-- A key is set in both, and the version is the same. -/
theorem stepRefines_set (h : n.Refines config ids m) (key value : String) :
    n.StepRefines config ids m (.set key value) := by
  by_cases hkey : key = ""
  · rw [StepRefines, Ideal.step, if_pos hkey]
    exact ⟨n, replies_of_missing rfl hkey config, h⟩
  · rw [StepRefines, Ideal.step, if_neg hkey]
    refine ⟨n.accepting (.set key value), ?_, h.accepting ?_⟩
    · have hreplies := replies_of_ok (n := n) (r := .set key value) rfl
        (Service.set_of_ready h.ready hkey value)
      rw [Ideal.versionIn_eq, ← h.store]
      exact hreplies
    · rw [Ideal.assign_eq, ← h.store]
      rfl

/-- A key is deleted in both, and the answer says alike whether it was there. -/
theorem stepRefines_delete (h : n.Refines config ids m) (key : String) :
    n.StepRefines config ids m (.delete key) := by
  by_cases hkey : key = ""
  · rw [StepRefines, Ideal.step, if_pos hkey]
    exact ⟨n, replies_of_missing rfl hkey config, h⟩
  · rw [StepRefines, Ideal.step, if_neg hkey]
    refine ⟨n.accepting (.delete key), ?_, h.accepting ?_⟩
    · exact replies_of_ok (n := n) (r := .delete key) rfl (Service.delete_of_ready h.ready hkey)
    · rw [← h.store]
      rfl

/-- A transaction is begun with the same id. -/
theorem stepRefines_begin (h : n.Refines config ids m) :
    n.StepRefines config ids m .begin := by
  have hid : n.ids n.issued = ids m.begun := by rw [h.supply, h.issued]
  refine ⟨(n.execute .begin).2, Or.inl ?_, ?_⟩
  · rw [Ideal.step, ← hid]
    rfl
  · have hbegun := h.withTransactions (n.service.transactions.insert (n.ids n.issued) {})
    rw [Ideal.step, ← hid, ← h.transactions]
    exact ⟨hbegun.configured, hbegun.supply, hbegun.ready, hbegun.address, hbegun.store, rfl,
      hbegun.voters, hbegun.commitIndex, congrArg (· + 1) h.issued⟩

/-- A key is read in a transaction, and observed alike. -/
theorem stepRefines_txRead (h : n.Refines config ids m) (id key : String) :
    n.StepRefines config ids m (.txRead id key) := by
  by_cases hkey : key = ""
  · rw [StepRefines, Ideal.step, if_pos hkey]
    exact ⟨n, replies_of_missing rfl hkey config, h⟩
  rw [StepRefines, Ideal.step, if_neg hkey, ← h.transactions]
  have hread : n.service.read id key = _ := n.service.requiring_of_ne _ hkey "key"
  rw [show n.service.store = m.store from h.store] at hread
  cases hfound : n.service.transactions.get? id with
  | none =>
    rw [Transactions.stageRead, Transactions.stage, hfound] at hread
    exact ⟨n, replies_of_error (n := n) (r := .txRead id key) rfl hread rfl, h⟩
  | some t =>
    rw [Transactions.stageRead, Transactions.stage, hfound] at hread
    have hreplies := replies_of_ok (n := n) (r := .txRead id key) rfl hread
    rw [Ideal.versionIn_eq]
    cases hvalue : m.store.get? key with
    | none =>
      rw [hvalue] at hreplies
      exact ⟨_, hreplies, h.withTransactions _⟩
    | some v =>
      rw [hvalue] at hreplies
      exact ⟨_, hreplies, h.withTransactions _⟩

/-- A write is staged alike. -/
theorem stepRefines_txWrite (h : n.Refines config ids m) (id key value : String) :
    n.StepRefines config ids m (.txWrite id key value) := by
  by_cases hkey : key = ""
  · rw [StepRefines, Ideal.step, if_pos hkey]
    exact ⟨n, replies_of_missing rfl hkey config, h⟩
  rw [StepRefines, Ideal.step, if_neg hkey, ← h.transactions]
  have hwrite : n.service.stageWrite id key value = _ := n.service.requiring_of_ne _ hkey "key"
  cases hfound : n.service.transactions.get? id with
  | none =>
    rw [Transactions.stageWrite, Transactions.stage, hfound] at hwrite
    exact ⟨n, replies_of_error (n := n) (r := .txWrite id key value) rfl hwrite rfl, h⟩
  | some t =>
    rw [Transactions.stageWrite, Transactions.stage, hfound] at hwrite
    exact ⟨_, replies_of_ok (n := n) (r := .txWrite id key value) rfl hwrite,
      h.withTransactions _⟩

/-- A transaction is committed: the observations are stale in both or in neither, and the writes get
the same versions. -/
theorem stepRefines_txCommit (h : n.Refines config ids m) (id : String) :
    n.StepRefines config ids m (.txCommit id) := by
  rw [StepRefines, Ideal.step, ← h.transactions]
  cases hfound : n.service.transactions.get? id with
  | none =>
    exact ⟨n, replies_of_error (n := n) (r := .txCommit id) rfl
      (Service.commit_unknown_of_ready h.ready hfound) rfl, h⟩
  | some t =>
    have hcommit := Service.commit_of_ready h.ready hfound
    have hdispatch := Store.dispatch_commit n.store t.reads t.writes
    have hstale := Ideal.conflict?_eq m.store t.reads
    rw [show n.service.store = m.store from h.store] at hcommit
    rw [h.store] at hdispatch
    dsimp only
    cases hconflict : Ideal.stale? m.store t.reads with
    | none =>
      rw [hconflict, Option.map_none] at hstale
      rw [hstale, Ideal.writeAll_eq] at hcommit hdispatch
      have hstore : (n.store.dispatch t.toCommand).1 = t.writes.foldl Ideal.assign m.store := by
        rw [h.store]
        exact congrArg Prod.fst hdispatch
      exact ⟨_, replies_of_ok (n := n) (r := .txCommit id) rfl hcommit,
        (h.accepting hstore).withTransactions (n.service.transactions.erase id)⟩
    | some o =>
      rw [hconflict, Option.map_some] at hstale
      rw [hstale] at hcommit hdispatch
      have hstore : (n.store.dispatch t.toCommand).1 = m.store := by
        rw [h.store]
        exact congrArg Prod.fst hdispatch
      exact ⟨_, replies_of_error (n := n) (r := .txCommit id) rfl hcommit rfl,
        (h.accepting hstore).withTransactions (n.service.transactions.erase id)⟩

/-- A transaction is given up alike. -/
theorem stepRefines_txAbort (h : n.Refines config ids m) (id : String) :
    n.StepRefines config ids m (.txAbort id) := by
  rw [StepRefines, Ideal.step, ← h.transactions]
  exact ⟨_, Or.inl rfl, h.withTransactions (n.service.transactions.erase id)⟩

/-- A voter is added alike. -/
theorem stepRefines_join (h : n.Refines config ids m) (nodeId address : String) :
    n.StepRefines config ids m (.join nodeId address) := by
  by_cases hid : nodeId = ""
  · rw [StepRefines, Ideal.step, if_pos hid]
    exact ⟨n, replies_of_missing rfl hid config, h⟩
  rw [StepRefines, Ideal.step, if_neg hid]
  by_cases haddress : address = ""
  · have hmissing : n.service.join nodeId address = _ :=
      (n.service.requiring_of_ne _ hid "node_id").trans
        (n.service.requiring_of_eq _ haddress "addr")
    rw [if_pos haddress]
    exact ⟨n, replies_of_error (n := n) (r := .join nodeId address) rfl hmissing rfl, h⟩
  · rw [if_neg haddress, ← h.voters]
    refine ⟨_, replies_of_ok (n := n) (r := .join nodeId address) rfl
      (Service.join_of_ready h.ready hid haddress), ?_⟩
    exact ⟨h.configured, h.supply, ⟨h.ready.leads, h.ready.running, h.ready.healthy⟩, h.address,
      h.store, h.transactions, rfl, h.commitIndex, h.issued⟩

/-- The same status is reported. -/
theorem stepRefines_status (h : n.Refines config ids m) :
    n.StepRefines config ids m .status := by
  refine ⟨n, Or.inl ?_, h⟩
  have hleads : n.replica.isLeader = true := Service.isLeader_of_ready h.ready
  have haddress : n.replica.leaderAddress = some config.raftAddress := by
    rw [Replica.leaderAddress, h.ready.leads, ← h.address]
    rfl
  rw [execute, status, hleads, haddress, h.configured, h.commitIndex, h.voters, h.store]
  rfl

/-- **One request** is answered as the ideal machine answers it. -/
theorem refines_step (h : n.Refines config ids m) (r : Request) :
    n.StepRefines config ids m r := by
  cases r with
  | get key => exact stepRefines_get h key
  | set key value => exact stepRefines_set h key value
  | delete key => exact stepRefines_delete h key
  | begin => exact stepRefines_begin h
  | txRead id key => exact stepRefines_txRead h id key
  | txWrite id key value => exact stepRefines_txWrite h id key value
  | txCommit id => exact stepRefines_txCommit h id
  | txAbort id => exact stepRefines_txAbort h id
  | join nodeId address => exact stepRefines_join h nodeId address
  | status => exact stepRefines_status h

/-- **One line** is answered as the ideal machine answers it. -/
theorem refines_line (h : n.Refines config ids m) (line : Bytes) :
    (n.handle line).1 = .ok ((m.answer ids line).1.reply config n.metrics) ∧
      (n.handle line).2.Refines config ids (m.answer ids line).2 := by
  cases hread : Request.read line with
  | error cause =>
    rw [handle, Ideal.answer, hread]
    exact ⟨rfl, h⟩
  | ok r =>
    obtain ⟨n', hreplies, hrefines⟩ := refines_step h r
    rw [handle_of_replies hread hreplies, Ideal.answer, hread]
    exact ⟨rfl, hrefines⟩

/-- The node after some lines. -/
def handleAll (n : Node) (lines : List Bytes) : Node :=
  lines.foldl (fun n line => (n.handle line).2) n

/-- Lines, one after the other. -/
theorem refines_lines {lines : List Bytes} : {n : Node} → {m : Ideal} →
    n.Refines config ids m → (n.handleAll lines).Refines config ids (m.run ids lines) := by
  induction lines with
  | nil =>
    intro n m h
    exact h
  | cons line lines ih =>
    intro n m h
    exact ih (refines_line h line).2

end

/-! ## Whole runs -/

/-- A node that is booted where no log is starts as the machine does. -/
theorem refines_boot {d : Disk} {config : Config} (h : d.HoldsNoLog config.dataDir)
    (ids : Nat → String) :
    ∃ node d', boot d config true ids = (.ok node, d') ∧
      node.Refines config ids (Ideal.initial config) := by
  obtain ⟨machine, stats, hboot, hrestored⟩ := boot_of_holdsNoLog h true ids
  have hcommitIndex : machine.log.next - 1 = 0 := by
    rw [hrestored.next]
    rfl
  exact ⟨_, _, Prod.ext hboot rfl, rfl, rfl,
    Replica.ready_bootstrap hrestored.healthy _ _, rfl, hrestored.store, rfl, rfl, hcommitIndex,
    rfl⟩

/-- **A node answers as the ideal machine does.** A node is booted as a cluster of its own where no
log is, and is handed any lines. The next line is answered, and with the reply that the machine
gives. No reply has a code other than those of an invalid request, a missing key, an unknown
transaction and a conflict. And the node holds the keys, transactions and voters of the machine, and
its commit index is the number of entries that the machine has accepted.

Which request the machine is given by a line is no matter of the node either: a line is read as a
request exactly if it is the JSON text of a value that asks for it, and what a client writes for a
request asks for it. -/
theorem handle_refines {d : Disk} {config : Config} (h : d.HoldsNoLog config.dataDir)
    (ids : Nat → String) :
    (∃ node d', boot d config true ids = (.ok node, d') ∧ ∀ lines line,
      let n := node.handleAll lines
      let m := (Ideal.initial config).run ids lines
      let reply := (m.answer ids line).1.reply config n.metrics
      (n.handle line).1 = .ok reply ∧
        (∀ code message, reply = .error code message → code ∈ Ideal.codes) ∧
        n.store = m.store ∧ n.service.transactions = m.transactions ∧
        n.replica.voters = m.voters ∧ n.replica.commitIndex = UInt64.ofNat m.accepted) ∧
      (∀ line request, Request.read line = .ok request ↔
        ∃ v, Json.Value.read line = .ok v ∧ request.AskedBy v) ∧
      ∀ request : Request, Request.read request.toValue.bytes = .ok request := by
  obtain ⟨node, d', hboot, hstart⟩ := refines_boot h ids
  refine ⟨⟨node, d', hboot, ?_⟩, fun _ _ => Request.read_eq_ok_iff, Request.read_toValue⟩
  intro lines line
  have hrefines :
      (node.handleAll lines).Refines config ids ((Ideal.initial config).run ids lines) :=
    refines_lines hstart
  refine ⟨(refines_line hrefines line).1, ?_, hrefines.store, hrefines.transactions,
    hrefines.voters, hrefines.commitIndex⟩
  intro code message hreply
  exact Ideal.Answer.code_mem_codes hreply

/-- A node on an empty disk is asked to set a key, as an object says it, and then looks the key up,
as an array says it. -/
theorem handle_refines_set :
    let config : Config := { nodeId := "n", dataDir := "data" }
    let set := (Request.set "k" "v").toValue.bytes
    ∃ node d', boot {} config true Nat.repr = (.ok node, d') ∧
      (node.handle set).1 =
        .ok (.ok (.object [("key", .string "k"), ("version", .number (.int 1))])) ∧
      ((node.handle set).2.handle (Bytes.ofText "[\"get\",\"k\"]")).1 =
        .ok (.ok (.object [("key", .string "k"), ("value", .string "v"),
          ("version", .number (.int 1))])) ∧
      (node.handle set).2.store = Table.empty.insert "k" ⟨"v", 1⟩ ∧
      (node.handle set).2.replica.commitIndex = 1 := by
  intro config set
  have hfresh : ({} : Disk).HoldsNoLog config.dataDir := Disk.holdsNoLog_empty
  obtain ⟨⟨node, d', hboot, hrun⟩, -, hwritten⟩ := handle_refines hfresh Nat.repr
  have hset : Request.read set = .ok (.set "k" "v") := hwritten (.set "k" "v")
  have hget : Request.read (Bytes.ofText "[\"get\",\"k\"]") = .ok (.get "k") := rfl
  obtain ⟨hreply, -⟩ := hrun [] set
  obtain ⟨hreply', -, hstore, -, -, hcommitIndex⟩ :=
    hrun [set] (Bytes.ofText "[\"get\",\"k\"]")
  refine ⟨node, d', hboot, hreply.trans ?_, hreply'.trans ?_, hstore.trans ?_,
    hcommitIndex.trans ?_⟩
  all_goals simp only [Ideal.run, Ideal.answer, List.foldl_nil, List.foldl_cons, hset, hget]
  all_goals rfl

end Node

end DurableKV
