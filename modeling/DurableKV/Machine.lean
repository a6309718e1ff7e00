import DurableKV.Log.Writer
import DurableKV.Metrics
import DurableKV.Store

/-!
# The state machine

A machine applies entries: an entry is decoded, appended to the log, and then applied to the store.
Foreign entries are logged too, so that the sequence numbers of the log are the positions of all
entries. Nothing but the log file changes when an entry cannot be decoded or logged; every such
failure is fatal, for an entry that has been agreed on cannot be refused.
-/

namespace DurableKV

/-- Why an entry could not be applied. -/
inductive ApplyError where
  /-- The entry could not be decoded. -/
  | decode (cause : EntryError)
  /-- The entry could not be logged. -/
  | log (cause : Log.Failure)
  deriving DecidableEq, Repr

namespace ApplyError

/-- The wording of a failure. -/
def message : ApplyError → String
  | decode cause => "committed log entry cannot be decoded: " ++ cause.message
  | log cause => "committed log entry could not be persisted: " ++ cause.message

/-- The code of a failure. -/
def code : ApplyError → String
  | decode _ => "HELIOS_FSM_DECODE_FAILED"
  | log cause => cause.code

end ApplyError

/-- A store with the log of what was applied to it. -/
structure Machine where
  /-- The log. -/
  log : Log.Writer
  /-- The store. -/
  store : Store := ∅
  /-- What has been counted. -/
  tally : Tally := {}
  deriving Repr

namespace Machine

/-- The sequence number of the last record of the log, 0 if there is none. -/
def lastSequence (m : Machine) : UInt64 := m.log.last

/-- Apply an entry that has been logged. -/
def perform (m : Machine) : Entry → Outcome × Machine
  | .foreign op _ => (.ignored op, { m with tally := m.tally.countOutcome (.ignored op) })
  | .command c =>
    let (store, outcome) := m.store.dispatch c
    (outcome, { m with store, tally := m.tally.countOutcome outcome })

/-- Apply the entry that bytes describe. -/
def apply (m : Machine) (input : Bytes) : Except ApplyError Outcome × Machine :=
  match Entry.decode input with
  | .error cause => (.error (.decode cause), m)
  | .ok entry =>
    match m.log.append entry with
    | (.error cause, log) => (.error (.log cause), { m with log })
    | (.ok _, log) =>
      let tally := m.tally.countAppend (log.written - m.log.written)
      let (outcome, m) := perform { m with log, tally } entry
      (.ok outcome, m)

/-- Release the log. -/
def close (m : Machine) : Except ApplyError Unit := m.log.close.mapError .log

end Machine

end DurableKV
