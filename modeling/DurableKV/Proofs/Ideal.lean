import DurableKV.Node

/-!
# The ideal machine

What a node is for its clients, without the JSON that commands are written in, without a log and
without consensus: the keys that are present with their values and versions, the open transactions,
the voters, and the number of entries that were accepted. `Ideal.step` answers one request, and
`Answer.reply` is how its answer reads as a reply.

Nothing here is said in terms of commands or of what a store does with them. That a node answers as
this machine does is another matter (`Node.handle_refines`).
-/

namespace DurableKV

/-- What the ideal machine answers. -/
inductive Ideal.Answer where
  /-- The line is not a request. -/
  | unreadable (cause : Json.ReadError)
  /-- An argument is empty. -/
  | missing (argument : String)
  /-- A key has this value and version. -/
  | found (key : String) (v : Versioned)
  /-- A key is absent. -/
  | absent (key : String)
  /-- A key was set and has this version. -/
  | written (key : String) (version : UInt64)
  /-- A key was deleted. -/
  | deleted (key : String)
  /-- A transaction was begun. -/
  | begun (id : String)
  /-- There is no such transaction. -/
  | unknown (id : String)
  /-- A transaction read a key. -/
  | read (id key : String) (value : Option String)
  /-- A transaction staged a write. -/
  | staged (id : String)
  /-- A transaction committed; its writes gave these versions, in order. -/
  | committed (id : String) (versions : List KeyVersion)
  /-- A transaction was refused. -/
  | conflict (key : String) (expected actual : UInt64)
  /-- A transaction was dropped. -/
  | aborted (id : String)
  /-- A voter was added. -/
  | joined (nodeId address : String)
  /-- The state of the machine: accepted entries, voters and the number of keys. -/
  | state (accepted : Nat) (voters : Table String) (keys : Nat)

/-- The ideal machine. -/
structure Ideal where
  /-- The keys that are present, with their values and versions. -/
  store : Table Versioned := ∅
  /-- The open transactions, with what they observed and what they will write. -/
  transactions : Table Transaction := ∅
  /-- The voters, with their addresses. -/
  voters : Table String
  /-- How many entries were accepted. -/
  accepted : Nat := 0
  /-- How many transactions were begun. -/
  begun : Nat := 0

namespace Ideal

open Json

/-- The address by which other nodes know a node with this configuration. -/
def addressOf (config : Config) : String :=
  config.host ++ ":" ++ Nat.repr config.raftPort.toNat

/-- The machine of a node that has just formed a cluster of its own. -/
def initial (config : Config) : Ideal :=
  { voters := Table.empty.insert config.nodeId (addressOf config) }

/-! ## Keys -/

/-- The version of a key, 0 if it is absent. -/
def versionIn (store : Table Versioned) (key : String) : UInt64 :=
  ((store.get? key).map Versioned.version).getD 0

/-- Write a key, which counts its version up. -/
def assign (store : Table Versioned) (a : Assignment) : Table Versioned :=
  store.insert a.key ⟨a.value, versionIn store a.key + 1⟩

/-- The versions that assignments give, one after the other. -/
def versionsGiven : Table Versioned → List Assignment → List KeyVersion
  | _, [] => []
  | store, a :: as => ⟨a.key, versionIn store a.key + 1⟩ :: versionsGiven (assign store a) as

/-- The first observation whose key has another version now. -/
def stale? (store : Table Versioned) (reads : List Observation) : Option Observation :=
  reads.find? fun o => versionIn store o.key ≠ o.version

/-! ## Requests -/

/-- Answer a request; `ids` are the ids of transactions in the order in which they are begun. -/
def step (ids : Nat → String) (m : Ideal) : Request → Answer × Ideal
  | .get key =>
    if key = "" then (.missing "key", m)
    else
      match m.store.get? key with
      | some v => (.found key v, m)
      | none => (.absent key, m)
  | .set key value =>
    if key = "" then (.missing "key", m)
    else
      (.written key (versionIn m.store key + 1),
        { m with store := assign m.store ⟨key, value⟩, accepted := m.accepted + 1 })
  | .delete key =>
    if key = "" then (.missing "key", m)
    else (.deleted key, { m with store := m.store.erase key, accepted := m.accepted + 1 })
  | .begin =>
    let id := ids m.begun
    (.begun id, { m with transactions := m.transactions.insert id {}, begun := m.begun + 1 })
  | .txRead id key =>
    if key = "" then (.missing "key", m)
    else
      match m.transactions.get? id with
      | none => (.unknown id, m)
      | some t =>
        let t := { t with reads := t.reads ++ [⟨key, versionIn m.store key⟩] }
        (.read id key ((m.store.get? key).map Versioned.value),
          { m with transactions := m.transactions.insert id t })
  | .txWrite id key value =>
    if key = "" then (.missing "key", m)
    else
      match m.transactions.get? id with
      | none => (.unknown id, m)
      | some t =>
        let t := { t with writes := t.writes ++ [⟨key, value⟩] }
        (.staged id, { m with transactions := m.transactions.insert id t })
  | .txCommit id =>
    match m.transactions.get? id with
    | none => (.unknown id, m)
    | some t =>
      let closed :=
        { m with transactions := m.transactions.erase id, accepted := m.accepted + 1 }
      match stale? m.store t.reads with
      | some o => (.conflict o.key o.version (versionIn m.store o.key), closed)
      | none =>
        (.committed id (versionsGiven m.store t.writes),
          { closed with store := t.writes.foldl assign m.store })
  | .txAbort id => (.aborted id, { m with transactions := m.transactions.erase id })
  | .join nodeId address =>
    if nodeId = "" then (.missing "node_id", m)
    else if address = "" then (.missing "addr", m)
    else (.joined nodeId address, { m with voters := m.voters.insert nodeId address })
  | .status => (.state m.accepted m.voters m.store.size, m)

/-- Answer a line. -/
def answer (ids : Nat → String) (m : Ideal) (line : Bytes) : Answer × Ideal :=
  match Request.read line with
  | .error cause => (.unreadable cause, m)
  | .ok request => m.step ids request

/-- The machine after some lines. -/
def run (ids : Nat → String) (m : Ideal) (lines : List Bytes) : Ideal :=
  lines.foldl (fun m line => (m.answer ids line).2) m

/-! ## Replies -/

/-- A number of 64 bits as JSON. -/
def word (n : UInt64) : Value := .number (.int n.toNat)

/-- How an answer reads as a reply of a leading node with this configuration that has counted
this. Every reply is written out, in JSON and in words. -/
def Answer.reply (config : Config) (metrics : Metrics) : Answer → Reply
  | unreadable cause => .error "HELIOS_INVALID_REQUEST" cause.message
  | missing argument =>
    .error "HELIOS_INVALID_REQUEST" ("invalid request: " ++ (argument ++ " is missing"))
  | found key v =>
    .ok (.object [("key", .string key), ("value", .string v.value), ("version", word v.version)])
  | absent key => .error "HELIOS_KEY_NOT_FOUND" ("key '" ++ key ++ "' not found")
  | written key version => .ok (.object [("key", .string key), ("version", word version)])
  | deleted key => .ok (.object [("key", .string key), ("deleted", .bool true)])
  | begun id => .ok (.object [("tx_id", .string id)])
  | unknown id => .error "HELIOS_TX_NOT_FOUND" ("Transaction not found: " ++ id)
  | read id key none =>
    .ok (.object [("tx_id", .string id), ("key", .string key), ("value", .null)])
  | read id key (some value) =>
    .ok (.object [("tx_id", .string id), ("key", .string key), ("value", .string value)])
  | staged id => .ok (.object [("tx_id", .string id), ("staged", .bool true)])
  | committed id versions =>
    .ok (.object [("tx_id", .string id), ("committed", .bool true),
      ("versions", .array (versions.map fun v =>
        .object [("key", .string v.key), ("version", word v.version)]))])
  | conflict key expected actual =>
    .error "HELIOS_TX_CONFLICT"
      ("transaction conflict: " ++ ("key '" ++ key ++
        "' changed since it was read: observed version " ++ Nat.repr expected.toNat ++
        ", current version " ++ Nat.repr actual.toNat))
  | aborted id => .ok (.object [("tx_id", .string id), ("aborted", .bool true)])
  | joined nodeId address =>
    .ok (.object [("node_id", .string nodeId), ("addr", .string address),
      ("joined", .bool true)])
  | state accepted voters keys =>
    .ok (.object [("node_id", .string config.nodeId), ("leader", .bool true),
      ("leader_address", .string (addressOf config)),
      ("commit_index", word (UInt64.ofNat accepted)),
      ("voters", .object (voters.entries.map fun p => (p.1, .string p.2))),
      ("keys", word (UInt64.ofNat keys)),
      ("metrics", .object [("wal_bytes", word metrics.walBytes),
        ("wal_records", word metrics.walRecords), ("sets", word metrics.sets),
        ("deletes", word metrics.deletes), ("commits", word metrics.commits),
        ("conflicts", word metrics.conflicts), ("ignored", word metrics.ignored),
        ("replayed", word metrics.replayed), ("not_leader", word metrics.notLeader)])])

/-- The codes of the replies that are failures. -/
def codes : List String :=
  ["HELIOS_INVALID_REQUEST", "HELIOS_KEY_NOT_FOUND", "HELIOS_TX_NOT_FOUND", "HELIOS_TX_CONFLICT"]

/-- A failure that the machine answers with has one of the four codes. -/
theorem Answer.code_mem_codes {config : Config} {metrics : Metrics} {answer : Answer}
    {code message : String} (h : answer.reply config metrics = .error code message) :
    code ∈ codes := by
  cases answer with
  | read id key value => cases value <;> cases h
  | _ => cases h <;> decide

end Ideal

end DurableKV
