import DurableKV.Proofs.Checksum
import DurableKV.Proofs.Log.Record

/-!
# Tampered records

The checksum in a line is compared with that of the number and the entry in it. What it covers is
the eight bytes of the number and then the written form of the entry (`Record.covered`), not the
line as it stands there. `parse_of_burst` says that a line is refused if it carries the checksum of
another record and what it covers differs from what that one covers by a burst of at most four
bytes: a change in the number, in the entry, or over the seam between them.
-/

namespace DurableKV.Log.Record

/-- What the checksum of a record is taken of. -/
def covered (r : Record) : Bytes := Bytes.littleEndian r.sequence ++ r.entry.bytes

/-- **Short tampering is detected.** A line that can be read as a record holds the checksum of the
record of some number and entry, but not that number and entry: what the checksum covers is as long
and differs, in no more than four bytes in a row. Then the line is refused as corrupt, at the number
that it holds and with both checksums, wherever in the log it begins. -/
theorem parse_of_burst {n : UInt64} {e : Entry} {line : Bytes} {r : Record}
    (hread : reading.run line = .ok r) (hstored : r.checksum = (make n e).checksum)
    (hburst : Checksum.Burst 4 (make n e).covered r.covered) (offset : Nat) :
    parse line offset =
      .error (.corrupt (.sequence r.sequence)
        (.checksum r.checksum (checksumOf r.sequence r.entry))) := by
  have hne : r.checksum ≠ checksumOf r.sequence r.entry := by
    rw [hstored]
    exact Checksum.crc32_ne_of_burst hburst
  exact parse_eq_error_iff.2 (Or.inr ⟨r, hread, hne, rfl⟩)

/-- Two letters of a value are exchanged in the line of a record. -/
theorem parse_of_burst_value :
    let line := Bytes.ofText ("\x7b\"seq\":1,\"checksum\":3112297901," ++
      "\"command\":\x7b\"op\":\"SET\",\"key\":\"k\",\"value\":\"bleu\"\x7d\x7d")
    let r : Record := ⟨1, 3112297901, .command (.set "k" "bleu")⟩
    reading.run line = .ok r ∧ r.checksum = (make 1 (.command (.set "k" "blue"))).checksum ∧
      Checksum.Burst 4 (make 1 (.command (.set "k" "blue"))).covered r.covered ∧
      parse line 0 =
        .error (.corrupt (.sequence 1) (.checksum 3112297901 (checksumOf 1 r.entry))) := by
  intro line r
  have hread : reading.run line = .ok r := rfl
  have hstored : r.checksum = (make 1 (.command (.set "k" "blue"))).checksum := by decide +kernel
  let front := Bytes.littleEndian 1 ++
    Bytes.ofText "\x7b\"op\":\"SET\",\"key\":\"k\",\"value\":\"bl"
  have hburst : Checksum.Burst 4 (front ++ (Bytes.ofText "ue" ++ Bytes.ofText "\"\x7d"))
      (front ++ (Bytes.ofText "eu" ++ Bytes.ofText "\"\x7d")) :=
    Checksum.burst_of_split _ _ (by decide) (by decide) (by decide)
  exact ⟨hread, hstored, hburst, parse_of_burst hread hstored hburst 0⟩

end DurableKV.Log.Record
