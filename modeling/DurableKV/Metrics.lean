import DurableKV.Json.Value
import DurableKV.Outcome

/-!
# Metrics

What a node has counted since it was booted. A `Tally` is what the log and the store account for;
`Metrics` adds what the service counts. All counters have 64 bits and wrap.
-/

namespace DurableKV

open Json

/-- What the log and the store have counted. -/
structure Tally where
  /-- The bytes appended to the log. -/
  walBytes : UInt64 := 0
  /-- The records appended to the log. -/
  walRecords : UInt64 := 0
  /-- The sets that were applied. -/
  sets : UInt64 := 0
  /-- The deletes that were applied. -/
  deletes : UInt64 := 0
  /-- The transactions that committed. -/
  commits : UInt64 := 0
  /-- The transactions that were refused. -/
  conflicts : UInt64 := 0
  /-- The foreign entries that were passed over. -/
  ignored : UInt64 := 0
  /-- The records that were replayed at boot. -/
  replayed : UInt64 := 0
  deriving DecidableEq, Repr

namespace Tally

/-- A record of so many bytes was appended. -/
def countAppend (t : Tally) (bytes : UInt64) : Tally :=
  { t with walBytes := t.walBytes + bytes, walRecords := t.walRecords + 1 }

/-- An entry was applied. -/
def countOutcome (t : Tally) : Outcome → Tally
  | .set .. => { t with sets := t.sets + 1 }
  | .deleted _ => { t with deletes := t.deletes + 1 }
  | .committed _ => { t with commits := t.commits + 1 }
  | .conflict _ => { t with conflicts := t.conflicts + 1 }
  | .ignored _ => { t with ignored := t.ignored + 1 }

/-- So many records were replayed. -/
def countReplayed (t : Tally) (n : UInt64) : Tally := { t with replayed := t.replayed + n }

end Tally

/-- What a node has counted. -/
structure Metrics extends Tally where
  /-- The requests that were refused because the node did not lead. -/
  notLeader : UInt64 := 0
  deriving DecidableEq, Repr

namespace Metrics

/-- The JSON form of the counters. -/
def toValue (m : Metrics) : Value :=
  .object [("wal_bytes", .ofWord m.walBytes), ("wal_records", .ofWord m.walRecords),
    ("sets", .ofWord m.sets), ("deletes", .ofWord m.deletes), ("commits", .ofWord m.commits),
    ("conflicts", .ofWord m.conflicts), ("ignored", .ofWord m.ignored),
    ("replayed", .ofWord m.replayed), ("not_leader", .ofWord m.notLeader)]

end Metrics

end DurableKV
