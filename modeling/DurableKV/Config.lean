import DurableKV.Disk
import DurableKV.Json.Reading
import DurableKV.Log.Location
import DurableKV.Text.Blank
import DurableKV.Text.Duration

/-!
# Configuration

What a node is told before it boots. A configuration is read from a JSON file, in which only the
node's id and its data directory are required, and is checked before anything else happens.
-/

namespace DurableKV

open Json

/-- The configuration of a node. -/
structure Config where
  /-- The id of the node. -/
  nodeId : String
  /-- The directory that the node keeps its files in. -/
  dataDir : String
  /-- The host that the node is reached at. -/
  host : String := "127.0.0.1"
  /-- The port for clients. -/
  port : UInt16 := 8080
  /-- The port for other nodes. -/
  raftPort : UInt16 := 9080
  /-- The addresses of the other nodes. -/
  peers : List String := []
  /-- What is logged. -/
  logLevel : String := "info"
  /-- How long a write waits to be accepted, in milliseconds. -/
  submitTimeoutMs : UInt64 := 5000
  deriving DecidableEq, Repr

/-- What is wrong with a configuration. -/
inductive ConfigFault where
  /-- The id of the node is blank. -/
  | emptyNodeId
  /-- The data directory is empty. -/
  | emptyDataDir
  /-- The host is empty. -/
  | emptyHost
  /-- Both ports are the same. -/
  | samePorts (port : UInt16)
  /-- Writes would not wait at all. -/
  | zeroTimeout
  /-- The address of another node is blank. -/
  | blankPeer (peer : String)
  /-- Anything else, in these words. -/
  | described (text : String)
  deriving DecidableEq, Repr

/-- The wording of a fault. -/
def ConfigFault.message : ConfigFault → String
  | emptyNodeId => "node_id must not be empty"
  | emptyDataDir => "data_dir must not be empty"
  | emptyHost => "host must not be empty"
  | samePorts port => "port and raft_port must differ (both " ++ Nat.repr port.toNat ++ ")"
  | zeroTimeout => "submit_timeout_ms must be > 0"
  | blankPeer peer => "invalid peer address '" ++ peer ++ "'"
  | described text => text

/-- Why a configuration could not be loaded. -/
inductive ConfigError where
  /-- The file could not be read. -/
  | read (path : String) (cause : OsError)
  /-- The file is no configuration. -/
  | parse (cause : ReadError)
  /-- The configuration is not acceptable. -/
  | invalid (fault : ConfigFault)
  deriving DecidableEq, Repr

/-- The wording of a failure. -/
def ConfigError.message : ConfigError → String
  | read path cause => "failed to read config " ++ path ++ ": " ++ cause.message
  | parse cause => "invalid config JSON: " ++ cause.message
  | invalid fault => "invalid config: " ++ fault.message

namespace Config

/-- The defaults of all fields that have one. -/
private def defaults : Config := { nodeId := "", dataDir := "" }

/-- The fields in their declared order. -/
def fields : Fields [String, String, String, UInt16, UInt16, List String, String, UInt64] :=
  .cons "node_id" .text none <|
  .cons "data_dir" (.textNamed "path string") none <|
  .cons "host" .text (some defaults.host) <|
  .cons "port" .word16 (some defaults.port) <|
  .cons "raft_port" .word16 (some defaults.raftPort) <|
  .cons "peers" (.list .text) (some defaults.peers) <|
  .cons "log_level" .text (some defaults.logLevel) <|
  .cons "submit_timeout_ms" .word64 (some defaults.submitTimeoutMs) .nil

/-- How a configuration is read. -/
def reading : Reading Config :=
  fields.record "struct Config"
    |>.map fun (nodeId, dataDir, host, port, raftPort, peers, logLevel, submitTimeoutMs, ()) =>
      { nodeId, dataDir, host, port, raftPort, peers, logLevel, submitTimeoutMs }

/-- The JSON form of a configuration. -/
def toValue (c : Config) : Value :=
  .object [("node_id", .string c.nodeId), ("data_dir", .string c.dataDir),
    ("host", .string c.host), ("port", .ofNat c.port.toNat),
    ("raft_port", .ofNat c.raftPort.toNat), ("peers", .array (c.peers.map .string)),
    ("log_level", .string c.logLevel), ("submit_timeout_ms", .ofWord c.submitTimeoutMs)]

/-- What is wrong with a configuration; the first fault counts. -/
def fault? (c : Config) : Option ConfigFault :=
  if Text.isAllBlank c.nodeId then some .emptyNodeId
  else if c.dataDir = "" then some .emptyDataDir
  else if c.host = "" then some .emptyHost
  else if c.port = c.raftPort then some (.samePorts c.port)
  else if c.submitTimeoutMs = 0 then some .zeroTimeout
  else (c.peers.find? Text.isAllBlank).map .blankPeer

/-- The configuration, if nothing is wrong with it. -/
def validate (c : Config) : Except ConfigError Config :=
  match c.fault? with
  | some fault => .error (.invalid fault)
  | none => .ok c

/-- The configuration in a file. -/
def load (d : Disk) (path : String) : Except ConfigError Config :=
  match d.read path with
  | .error cause => .error (.read path cause)
  | .ok content =>
    match Bytes.toText? content with
    | none => .error (.read path .notUtf8)
    | some _ =>
      match reading.run content with
      | .error cause => .error (.parse cause)
      | .ok c => c.validate

/-- A host and a port as one address. -/
def address (c : Config) (port : UInt16) : String := c.host ++ ":" ++ Nat.repr port.toNat

/-- The address for clients. -/
def httpAddress (c : Config) : String := c.address c.port

/-- The address for other nodes. -/
def raftAddress (c : Config) : String := c.address c.raftPort

/-- The path of the log. -/
def logPath (c : Config) : String := Log.pathOf c.dataDir

/-- How long a write waits to be accepted, in nanoseconds. -/
def submitTimeout (c : Config) : Nat := c.submitTimeoutMs.toNat * 1000000

end Config

end DurableKV
