import DurableKV.Log.Record

/-!
# Reading a log

A log is read from its first byte on, one complete line at a time. A line must be a record whose
sequence number follows that of the record before; the first must be 1. Bytes after the last newline
are the rest of a write that was cut short. They were never acknowledged and end the log without
being an error.

`Cursor.take` is the whole rule for one line. A `Scan` keeps what lies ahead, `Scan.next` takes the
next line, and `Scan.all` takes lines until the log ends or a line is refused. A refused line is
passed over, but the cursor stays.
-/

namespace DurableKV.Log

/-- How far a log has been read. -/
structure Cursor where
  /-- The byte after the last record. -/
  offset : Nat := 0
  /-- The sequence number of the last record, 0 before the first. -/
  last : UInt64 := 0
  deriving DecidableEq, Repr

/-- The record in the line at the cursor, and the cursor after it. -/
def Cursor.take (c : Cursor) (line : Bytes) : Except Failure (Record × Cursor) :=
  if line = [] then .error (.corrupt (.offset c.offset) .empty)
  else
    match Record.parse line c.offset with
    | .error e => .error e
    | .ok r =>
      if r.sequence = c.last + 1 then .ok (r, ⟨c.offset + line.length + 1, r.sequence⟩)
      else .error (.corrupt (.sequence r.sequence) (.gap (c.last + 1) r.sequence))

/-- A log that is being read. -/
structure Scan where
  /-- How far it has been read. -/
  cursor : Cursor := {}
  /-- The complete lines ahead. -/
  ahead : List Bytes
  /-- The bytes after the last newline. -/
  tail : Bytes
  /-- Have bytes without a newline been met? -/
  torn : Bool := false
  /-- Why the file cannot be read, if it cannot. -/
  unreadable : Option OsError := none
  deriving Repr

namespace Scan

/-- A log with the given content, from its start. -/
def ofContent (content : Bytes) : Scan :=
  { ahead := (Bytes.lines content).1, tail := (Bytes.lines content).2 }

/-- A file that opens but cannot be read. -/
def ofUnreadable (cause : OsError) : Scan := { ahead := [], tail := [], unreadable := some cause }

/-- The next record; none at the end of the log or at a torn line. -/
def next (s : Scan) : Except Failure (Option Record) × Scan :=
  match s.unreadable with
  | some cause => (.error (.read s.cursor.offset cause), s)
  | none =>
    match s.ahead with
    | [] => (.ok none, { s with torn := s.torn || !s.tail.isEmpty })
    | line :: ahead =>
      match s.cursor.take line with
      | .ok (r, cursor) => (.ok (some r), { s with cursor, ahead })
      | .error e => (.error e, { s with ahead })

/-- Up to `n` records, and the scan after them. -/
def collect : Nat → Scan → Except Failure (List Record) × Scan
  | 0, s => (.ok [], s)
  | n + 1, s =>
    match s.next with
    | (.ok none, s) => (.ok [], s)
    | (.error e, s) => (.error e, s)
    | (.ok (some r), s) =>
      let (rs, s) := collect n s
      (rs.map (r :: ·), s)

/-- All records, or the failure that stands before the end. -/
def all (s : Scan) : Except Failure (List Record) × Scan := collect (s.ahead.length + 1) s

end Scan

end DurableKV.Log
