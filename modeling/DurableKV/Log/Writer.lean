import DurableKV.File
import DurableKV.Log.Scan

/-!
# Writing a log

A `Medium` is the file of a log as its writer meets it: what it holds, and how writing to it and
making it durable turn out. A writer appends one record at a time, and a record counts only once the
file has been made durable after it. If writing fails, a first part of the line may be left in the
file; if making it durable fails, the whole line is.
-/

namespace DurableKV.Log

/-- How a write falls short. -/
structure WriteFault where
  /-- So many bytes are still written. -/
  kept : Nat
  /-- Why the others are not. -/
  cause : OsError
  deriving DecidableEq, Repr

/-- A file as the writer of a log meets it. -/
structure Medium extends File where
  /-- How the next write falls short, if it does. -/
  writeFault : Option WriteFault := none
  /-- Why the file cannot be made durable, if it cannot. -/
  syncFault : Option OsError := none
  deriving DecidableEq, Repr

namespace Medium

/-- A file without faults of its own. One that keeps nothing cannot be made durable. -/
def ofFile (file : File) : Medium :=
  { toFile := file, syncFault := if file.keeps then none else some .invalidArgument }

/-- The null device. -/
def null : Medium := ofFile .null

/-- Write at the end of the file. -/
def write (m : Medium) (bs : Bytes) : Medium × Option OsError :=
  match m.writeFault with
  | some f =>
    ({ m with toFile := m.toFile.append (bs.take f.kept) }, some f.cause)
  | none => ({ m with toFile := m.toFile.append bs }, none)

end Medium

/-- The writer of a log. -/
structure Writer where
  /-- The path of the file. -/
  path : String
  /-- The sequence number of the next record. -/
  next : UInt64
  /-- The bytes appended by this writer. -/
  written : UInt64 := 0
  /-- The file. -/
  medium : Medium
  deriving DecidableEq, Repr

namespace Writer

/-- The sequence number of the last record. -/
def last (w : Writer) : UInt64 := w.next - 1

/-- A writer for a file that is open already, and the file after that. The log in it is read to the
end, and a torn line is cut off; a log that is damaged is left as it is. -/
def attach (path : String) (m : Medium) : Except Failure Writer × Medium :=
  let (read, scan) := (Scan.ofContent m.content).all
  match read with
  | .error e => (.error e, m)
  | .ok _ =>
    let next := scan.cursor.last + 1
    if scan.torn then
      let m := { m with toFile := m.toFile.withContent (m.content.take scan.cursor.offset) }
      match m.syncFault with
      | some cause => (.error (.sync .truncation cause), m)
      | none => (.ok { path, next, medium := m }, m)
    else (.ok { path, next, medium := m }, m)

/-- Append an entry; its sequence number is the result. -/
def append (w : Writer) (e : Entry) : Except Failure UInt64 × Writer :=
  let line := (Record.make w.next e).line
  match w.medium.write line with
  | (m, some cause) => (.error (.append w.next cause), { w with medium := m })
  | (m, none) =>
    match m.syncFault with
    | some cause => (.error (.sync (.append w.next) cause), { w with medium := m })
    | none =>
      (.ok w.next,
        { w with
          next := w.next + 1
          written := w.written + UInt64.ofNat line.length
          medium := m })

/-- Close the log, making it durable once more. -/
def close (w : Writer) : Except Failure Unit :=
  match w.medium.syncFault with
  | some cause => .error (.sync .close cause)
  | none => .ok ()

end Writer

end DurableKV.Log
