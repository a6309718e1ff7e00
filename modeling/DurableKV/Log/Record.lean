import DurableKV.Checksum
import DurableKV.Log.Failure

/-!
# Log records

A record is one line of the log: a sequence number, the checksum of the number and the entry, and
the entry. `Record.line` is its written form with the newline, `Record.parse` reads a line without
it. A record is only read if its checksum is that of its number and its entry, so
`Record.parse_eq_make` holds: whatever is read is the record of its own number and entry.
-/

namespace DurableKV.Log

open Json

/-- One line of the log. -/
structure Record where
  /-- The position in the log, from 1 on. -/
  sequence : UInt64
  /-- The checksum of the position and the entry. -/
  checksum : UInt32
  /-- The entry. -/
  entry : Entry
  deriving Repr

namespace Record

/-- The checksum of an entry at a position: that of the eight bytes of the position, least
significant first, and the written form of the entry. -/
def checksumOf (sequence : UInt64) (entry : Entry) : UInt32 :=
  Checksum.crc32 (Bytes.littleEndian sequence ++ entry.bytes)

/-- The record of an entry at a position. -/
def make (sequence : UInt64) (entry : Entry) : Record :=
  ⟨sequence, checksumOf sequence entry, entry⟩

/-- The JSON form of a record. -/
def toValue (r : Record) : Value :=
  .object [("seq", .ofWord r.sequence), ("checksum", .ofNat r.checksum.toNat),
    ("command", r.entry.toValue)]

/-- The written form of a record without its newline. -/
def body (r : Record) : Bytes := r.toValue.bytes

/-- The written form of a record. -/
def line (r : Record) : Bytes := r.body ++ [Bytes.newline]

/-- How a record is read; its checksum is not looked at. -/
def reading : Reading Record :=
  (Fields.cons "seq" .word64 none <| .cons "checksum" .word32 none <|
      .cons "command" Entry.reading none .nil).record "struct WalRecord"
    |>.map fun (sequence, checksum, entry, ()) => ⟨sequence, checksum, entry⟩

/-- The record in a line, which begins at the given byte of the log. -/
def parse (line : Bytes) (offset : Nat) : Except Failure Record :=
  match reading.run line with
  | .error cause => .error (.corrupt (.offset offset) (.unreadable cause))
  | .ok r =>
    let computed := checksumOf r.sequence r.entry
    if r.checksum = computed then .ok r
    else .error (.corrupt (.sequence r.sequence) (.checksum r.checksum computed))

/-- A line is read as the record of its number and its entry: the checksum is no choice. -/
theorem parse_eq_make {line : Bytes} {offset : Nat} {r : Record} (h : parse line offset = .ok r) :
    r = make r.sequence r.entry := by
  unfold parse at h
  split at h
  · cases h
  · rename_i r' _
    dsimp only at h
    split at h
    · rename_i hc
      cases h
      cases r
      simp only [make]
      congr
    · cases h

end Record

end DurableKV.Log
