import DurableKV.Log.Location
import DurableKV.Log.Replay
import DurableKV.Machine

/-!
# Recovery

A node starts by replaying its log into an empty store and opening the log for appending. Replay
applies commands with the same `Store.dispatch` as the live machine, so it rebuilds the store that
the log describes. `Recovery.rebuild` is replay alone and `Recovery.restore` is recovery, both of a
log with a given content; `Recovery.inspect` and `Recovery.recover` find that log on a disk and name
what stands in the way.
-/

namespace DurableKV

open Json

/-- Why a node could not recover. -/
inductive RecoveryError where
  /-- The data directory could not be made. -/
  | dataDir (path : String) (cause : OsError)
  /-- The log could not be replayed or opened. -/
  | log (cause : Log.Failure)
  deriving DecidableEq, Repr

namespace RecoveryError

/-- The wording of a failure. -/
def message : RecoveryError → String
  | dataDir path cause => "failed to prepare data directory " ++ path ++ ": " ++ cause.message
  | log cause => "WAL recovery failed: " ++ cause.message

/-- The code of a failure. -/
def code : RecoveryError → String
  | dataDir .. => "HELIOS_RECOVERY_DATA_DIR"
  | log cause => cause.code

end RecoveryError

/-- What replay came to. -/
structure ReplayStats where
  /-- The records of the log. -/
  records : UInt64 := 0
  /-- The sets among them. -/
  sets : UInt64 := 0
  /-- The deletes among them. -/
  deletes : UInt64 := 0
  /-- The transactions among them that committed. -/
  commits : UInt64 := 0
  /-- The transactions among them that were refused. -/
  conflicts : UInt64 := 0
  /-- The foreign entries among them. -/
  ignored : UInt64 := 0
  /-- The sequence number of the last record. -/
  finalSequence : UInt64 := 0
  /-- Did the log end in a torn line? -/
  torn : Bool := false
  deriving DecidableEq, Repr

namespace ReplayStats

/-- One applied command in the statistics. -/
def count (s : ReplayStats) : Outcome → ReplayStats
  | .set .. => { s with sets := s.sets + 1 }
  | .deleted _ => { s with deletes := s.deletes + 1 }
  | .committed _ => { s with commits := s.commits + 1 }
  | .conflict _ => { s with conflicts := s.conflicts + 1 }
  | .ignored _ => { s with ignored := s.ignored + 1 }

/-- The statistics of a replay that ended at this position. -/
def endAt (s : ReplayStats) (p : Log.Position) : ReplayStats :=
  { s with
    records := p.records
    ignored := p.skipped
    finalSequence := p.last
    torn := p.torn }

/-- The JSON form of the statistics. -/
def toValue (s : ReplayStats) : Value :=
  .object [("records_replayed", .ofWord s.records), ("sets", .ofWord s.sets),
    ("deletes", .ofWord s.deletes), ("commits", .ofWord s.commits),
    ("conflicts", .ofWord s.conflicts), ("ignored", .ofWord s.ignored),
    ("final_sequence", .ofWord s.finalSequence), ("torn_tail", .bool s.torn)]

end ReplayStats

namespace Recovery

/-- Take one command of the log into the store and the statistics; none is refused. -/
def visit : Log.Visitor (Store × ReplayStats) RecoveryError := fun (store, stats) c =>
  let (store, outcome) := store.dispatch c
  ((store, stats.count outcome), none)

/-- Replay a log, which may be missing, into a store, which is there after a failure too. -/
def rebuild (scan : Option Log.Scan) (store : Store) : Except RecoveryError ReplayStats × Store :=
  let (result, store, stats) := Log.replay visit .log scan (store, {})
  (result.map stats.endAt, store)

/-- Bring up the machine of a log with this content, which may be missing: replay it into an empty
store and open it for appending. The content of the log afterwards comes with the machine. -/
def restore (path : String) (content : Option Bytes) :
    Except RecoveryError (Machine × ReplayStats) × Option Bytes :=
  match rebuild (content.map Log.Scan.ofContent) ∅ with
  | (.error e, _) => (.error e, content)
  | (.ok stats, store) =>
    match Log.Writer.attach path (.ofFile (.ofContent (content.getD []))) with
    | (.error cause, m) => (.error (.log cause), some m.content)
    | (.ok log, m) =>
      (.ok ({ log, store, tally := Tally.countReplayed {} stats.records }, stats), some m.content)

/-- Replay the log of a data directory into a store. The log is left as it is. -/
def inspect (d : Disk) (dataDir : String) (store : Store) :
    Except RecoveryError ReplayStats × Store :=
  match Log.Scan.find d (Log.pathOf dataDir) with
  | .ok scan => rebuild scan store
  | .error e => (.error (.log e), store)

/-- Bring up the machine of a data directory, which is made if it is missing. -/
def recover (d : Disk) (dataDir : String) : Except RecoveryError (Machine × ReplayStats) × Disk :=
  let path := Log.pathOf dataDir
  let restoring (d : Disk) (content : Option Bytes) :=
    match restore path content with
    | (result, some content) => (result, d.write path content)
    | (result, none) => (result, d)
  match d.createFolders dataDir with
  | (.error cause, d) => (.error (.dataDir dataDir cause), d)
  | (.ok (), d) =>
    match d.find path with
    | .ok (.file file) => restoring d (some file.content)
    | .error .notFound => restoring d none
    | .ok .folder => (.error (.log (.read 0 .isDirectory)), d)
    | .error cause => (.error (.log (.open path cause)), d)

end Recovery

end DurableKV
