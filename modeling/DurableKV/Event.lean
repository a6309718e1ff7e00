/-!
# Events

What a node reports about itself: the name of each event and whether it ends the node.
-/

namespace DurableKV

/-- Something that a node reports. -/
inductive Event where
  /-- The node begins to boot. -/
  | bootStart
  /-- The node has booted. -/
  | bootComplete
  /-- The node begins to shut down. -/
  | shutdownStart
  /-- The node has shut down. -/
  | shutdownComplete
  /-- The configuration was loaded. -/
  | configLoaded
  /-- A record was appended to the log. -/
  | walAppend
  /-- A torn line was found at the end of the log. -/
  | walTornTail
  /-- The log is damaged. -/
  | walCorruption
  /-- Replay begins. -/
  | replayBegin
  /-- Replay has ended. -/
  | replayComplete
  /-- A command was applied. -/
  | fsmApply
  /-- A transaction was refused. -/
  | txConflict
  /-- An entry with an unknown operation was met. -/
  | unrecognizedOp
  /-- The node halted. -/
  | fsmHalt
  /-- A voter was added. -/
  | voterAdded
  /-- A request was refused because the node does not lead. -/
  | notLeader
  /-- The node serves requests. -/
  | serving
  deriving DecidableEq, Repr

namespace Event

/-- All events. -/
def all : List Event :=
  [bootStart, bootComplete, shutdownStart, shutdownComplete, configLoaded, walAppend, walTornTail,
    walCorruption, replayBegin, replayComplete, fsmApply, txConflict, unrecognizedOp, fsmHalt,
    voterAdded, notLeader, serving]

/-- The name under which an event is reported. -/
def text : Event → String
  | bootStart => "HELIOS_STARTUP_BEGIN"
  | bootComplete => "HELIOS_STARTUP_COMPLETE"
  | shutdownStart => "SHUTDOWN_START"
  | shutdownComplete => "SHUTDOWN_COMPLETE"
  | configLoaded => "CONFIG_LOADED"
  | walAppend => "WAL_APPEND"
  | walTornTail => "WAL_TORN_TAIL"
  | walCorruption => "WAL_CORRUPTION"
  | replayBegin => "WAL_REPLAY_BEGIN"
  | replayComplete => "WAL_REPLAY_COMPLETE"
  | fsmApply => "FSM_APPLY"
  | txConflict => "TX_CONFLICT"
  | unrecognizedOp => "FSM_UNRECOGNIZED_OP"
  | fsmHalt => "FSM_HALT"
  | voterAdded => "VOTER_ADDED"
  | notLeader => "NOT_LEADER"
  | serving => "HELIOS_SERVING"

/-- Does the event end the node? -/
def isFatal : Event → Bool
  | walCorruption | fsmHalt => true
  | _ => false

end Event

end DurableKV
