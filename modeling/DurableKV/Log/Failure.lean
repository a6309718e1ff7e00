import DurableKV.Entry
import DurableKV.OsError

/-!
# Failures of the log

A log fails because the system does, or because what stands in it is no log. `Failure.message`,
`Failure.code` and `Failure.isFatal` say how a failure is reported: every one but a failure to open
the file is fatal to the node.
-/

namespace DurableKV.Log

/-- What is wrong with a complete line of the log. -/
inductive Damage where
  /-- The line is empty. -/
  | empty
  /-- The line is no record. -/
  | unreadable (cause : Json.ReadError)
  /-- The checksum in the line is not that of its entry. -/
  | checksum (stored computed : UInt32)
  /-- The sequence number does not follow that of the line before. -/
  | gap (expected got : UInt64)
  /-- Anything else, in these words. -/
  | described (text : String)
  deriving DecidableEq, Repr

/-- Where a log is damaged. -/
inductive Place where
  /-- At the record with this sequence number. -/
  | sequence (n : UInt64)
  /-- At the line that begins at this byte. -/
  | offset (n : Nat)
  deriving DecidableEq, Repr

/-- When a file was to be made durable. -/
inductive Sync where
  /-- After the record with this sequence number was written. -/
  | append (n : UInt64)
  /-- After a torn record was cut off. -/
  | truncation
  /-- When the log was closed. -/
  | close
  /-- At another time, in these words. -/
  | described (text : String)
  deriving DecidableEq, Repr

/-- Why an operation on the log failed. -/
inductive Failure where
  /-- The file or its directory could not be opened or made. -/
  | open (path : String) (cause : OsError)
  /-- The file could not be read, at this byte. -/
  | read (offset : Nat) (cause : OsError)
  /-- The record with this sequence number could not be written. -/
  | append (sequence : UInt64) (cause : OsError)
  /-- The file could not be made durable. -/
  | sync (occasion : Sync) (cause : OsError)
  /-- A complete line of the log is no valid record. -/
  | corrupt (place : Place) (damage : Damage)
  /-- An entry has no written form. -/
  | encode (cause : EntryError)
  deriving DecidableEq, Repr

/-- A checksum as messages show it: eight hexadecimal digits. -/
def checksumText (n : UInt32) : String :=
  let ds := Nat.toDigits 16 n.toNat
  "0x" ++ String.ofList (List.replicate (8 - ds.length) '0' ++ ds)

/-- The wording of a damage. -/
def Damage.message : Damage → String
  | empty => "empty record"
  | unreadable cause => "unparseable record: " ++ cause.message
  | checksum stored computed =>
    "checksum mismatch: stored " ++ checksumText stored ++ ", computed " ++ checksumText computed
  | gap expected got =>
    "non-sequential sequence number: expected " ++ Nat.repr expected.toNat ++ ", got " ++
      Nat.repr got.toNat
  | described text => text

/-- The wording of a place. -/
def Place.message : Place → String
  | sequence n => "sequence_number: " ++ Nat.repr n.toNat
  | offset n => "byte_offset: " ++ Nat.repr n

/-- The wording of an occasion. -/
def Sync.message : Sync → String
  | append n => "after WAL append at sequence " ++ Nat.repr n.toNat
  | truncation => "fsync after torn record truncation"
  | close => "final WAL fsync on close"
  | described text => text

namespace Failure

/-- The wording of a failure. -/
def message : Failure → String
  | .open path cause => "failed to open WAL at " ++ path ++ ": " ++ cause.message
  | read offset cause =>
    "WAL read failed at byte offset " ++ Nat.repr offset ++ ": " ++ cause.message
  | append sequence cause =>
    "WAL append failed at sequence " ++ Nat.repr sequence.toNat ++ ": " ++ cause.message
  | sync occasion cause => "WAL fsync failed: " ++ occasion.message ++ ": " ++ cause.message
  | corrupt place damage => "WAL corruption: " ++ damage.message ++ " (" ++ place.message ++ ")"
  | encode cause => "WAL record encoding failed: " ++ cause.message

/-- The code of a failure. -/
def code : Failure → String
  | .open .. => "HELIOS_WAL_OPEN_FAILED"
  | read .. => "HELIOS_WAL_READ_FAILED"
  | append .. => "HELIOS_WAL_APPEND_FAILED"
  | sync .. => "HELIOS_WAL_FSYNC_FAILED"
  | corrupt .. => "HELIOS_WAL_CORRUPTION"
  | encode _ => "HELIOS_WAL_ENCODE_FAILED"

/-- Does the failure end the node? -/
def isFatal : Failure → Bool
  | .open .. => false
  | _ => true

end Failure

end DurableKV.Log
