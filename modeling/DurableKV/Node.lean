import DurableKV.Config
import DurableKV.Consensus.Replica
import DurableKV.Reply
import DurableKV.Request
import DurableKV.Service

/-!
# A node

A node is booted from its configuration: it recovers from its log, starts a cluster of its own and
offers the service. `Node.handle` answers one request line.

Whatever a client gets wrong is answered; only a failure that ends the node is not. Transaction ids
are drawn from a supply that the node is given.
-/

namespace DurableKV

open Json

/-- Why a node could not boot or shut down. -/
inductive NodeError where
  /-- It could not recover. -/
  | recovery (cause : RecoveryError)
  /-- It could not release its log. -/
  | shutdown (cause : SubmitError)
  deriving DecidableEq, Repr

namespace NodeError

/-- The wording of a failure. -/
def message : NodeError → String
  | recovery cause => "recovery failed: " ++ cause.message
  | shutdown cause => "shutdown failed: " ++ cause.message

/-- The code of a failure. -/
def code : NodeError → String
  | recovery cause => cause.code
  | shutdown cause => cause.code

end NodeError

/-- A booted node. -/
structure Node where
  /-- What it was told before it booted. -/
  config : Config
  /-- What clients are served by. -/
  service : Service Replica
  /-- What replay came to when it booted. -/
  stats : ReplayStats
  /-- The supply of transaction ids. -/
  ids : Nat → String
  /-- How many of them have been used. -/
  issued : Nat := 0

namespace Node

/-- The replica behind the service. -/
def replica (n : Node) : Replica := n.service.consensus

/-- Change the replica behind the service. -/
def withReplica (n : Node) (f : Replica → Replica) : Node :=
  { n with service := { n.service with consensus := f n.service.consensus } }

/-- The store of a node. -/
def store (n : Node) : Store := n.replica.store

/-- What a node has counted. -/
def metrics (n : Node) : Metrics :=
  { n.replica.machine.tally with notLeader := n.service.notLeader }

/-- A node over a machine that has been brought up. It leads if it is to form a cluster, and
otherwise follows an unknown leader. -/
def ofMachine (config : Config) (leads : Bool) (ids : Nat → String) (machine : Machine)
    (stats : ReplayStats) : Node :=
  let replica := Replica.bootstrap config.nodeId config.raftAddress machine
  let consensus := if leads then replica else replica.stepDown none
  { config, service := { consensus, timeout := config.submitTimeout }, stats, ids }

/-- Boot a node. -/
def boot (d : Disk) (config : Config) (leads : Bool) (ids : Nat → String) :
    Except NodeError Node × Disk :=
  match Recovery.recover d config.dataDir with
  | (.error cause, d) => (.error (.recovery cause), d)
  | (.ok (machine, stats), d) => (.ok (ofMachine config leads ids machine stats), d)

/-- Release the log. -/
def shutdown (n : Node) : Except NodeError Unit := n.replica.shutdown.mapError .shutdown

/-! ## Requests -/

/-- The state of a node as clients see it. -/
def status (n : Node) : Value :=
  .object [("node_id", .string n.config.nodeId), ("leader", .bool n.replica.isLeader),
    ("leader_address", .ofText? n.replica.leaderAddress),
    ("commit_index", .ofWord n.replica.commitIndex),
    ("voters", .ofTable Value.string n.replica.voters),
    ("keys", .ofWord (UInt64.ofNat n.store.size)), ("metrics", n.metrics.toValue)]

/-- What clients get for a key that is absent. -/
def keyNotFound (key : String) : Reply :=
  .error "HELIOS_KEY_NOT_FOUND" ("key '" ++ key ++ "' not found")

/-- What clients get for a key that was set. -/
def keySet (key : String) (version : UInt64) : Reply :=
  .ok (.object [("key", .string key), ("version", .ofWord version)])

/-- What clients get for a key that was deleted. -/
def keyDeleted (key : String) : Reply :=
  .ok (.object [("key", .string key), ("deleted", .bool true)])

/-- What clients get for a transaction that was committed. -/
def committed (id : String) (versions : List KeyVersion) : Reply :=
  .ok (.object [("tx_id", .string id), ("committed", .bool true),
    ("versions", .array (versions.map KeyVersion.toValue))])

/-- The reply to an answer of the service, and the node after it. -/
def answer {α : Type} (n : Node) (a : Service.Answer Replica α) (reply : α → Reply) :
    Except ServiceError Reply × Node :=
  (a.1.map reply, { n with service := a.2 })

/-- Do what a request asks. -/
def execute (n : Node) : Request → Except ServiceError Reply × Node
  | .get key =>
    n.answer (n.service.get key) fun
      | some v =>
        .ok (.object [("key", .string key), ("value", .string v.value),
          ("version", .ofWord v.version)])
      | none => keyNotFound key
  | .set key value => n.answer (n.service.set key value) (keySet key)
  | .delete key => n.answer (n.service.delete key) fun () => keyDeleted key
  | .begin =>
    let id := n.ids n.issued
    (.ok (.ok (.object [("tx_id", .string id)])),
      { n with service := n.service.begin id, issued := n.issued + 1 })
  | .txRead id key =>
    n.answer (n.service.read id key) fun value =>
      .ok (.object [("tx_id", .string id), ("key", .string key), ("value", .ofText? value)])
  | .txWrite id key value =>
    n.answer (n.service.stageWrite id key value) fun () =>
      .ok (.object [("tx_id", .string id), ("staged", .bool true)])
  | .txCommit id => n.answer (n.service.commit id) (committed id)
  | .txAbort id =>
    (.ok (.ok (.object [("tx_id", .string id), ("aborted", .bool true)])),
      { n with service := n.service.abort id })
  | .join nodeId address =>
    n.answer (n.service.join nodeId address) fun () =>
      .ok (.object [("node_id", .string nodeId), ("addr", .string address),
        ("joined", .bool true)])
  | .status => (.ok (.ok n.status), n)

/-- Answer one request line. A failure that ends the node is not answered but handed on. -/
def handle (n : Node) (line : Bytes) : Except ServiceError Reply × Node :=
  match Request.read line with
  | .error cause => (.ok (.error "HELIOS_INVALID_REQUEST" cause.message), n)
  | .ok request =>
    match n.execute request with
    | (.ok reply, n) => (.ok reply, n)
    | (.error e, n) => if e.isFatal then (.error e, n) else (.ok (.error e.code e.message), n)

end Node

end DurableKV
