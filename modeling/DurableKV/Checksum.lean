import DurableKV.Bytes

/-!
# CRC-32

The checksum of log records: the IEEE CRC-32, reflected, with initial and final complement.
`Checksum.feed_append` says that the register after two pieces is that of the second fed into the
register of the first, so the checksum can be taken piece by piece.
-/

namespace DurableKV.Checksum

/-- The generator polynomial, lowest power in the highest bit. -/
def polynomial : UInt32 := 0xEDB88320

/-- One bit through the register. -/
def shift (r : UInt32) : UInt32 :=
  if r &&& 1 = 1 then (r >>> 1) ^^^ polynomial else r >>> 1

/-- One byte through the register, lowest bit first. -/
def feedByte (r : UInt32) (b : UInt8) : UInt32 :=
  shift (shift (shift (shift (shift (shift (shift (shift (r ^^^ b.toUInt32))))))))

/-- Bytes through the register, first byte first. -/
def feed (r : UInt32) (bs : Bytes) : UInt32 := bs.foldl feedByte r

/-- Bytes may be fed in one after the other. -/
theorem feed_append (r : UInt32) (as bs : Bytes) : feed r (as ++ bs) = feed (feed r as) bs := by
  simp [feed]

/-- The checksum of a sequence of bytes. -/
def crc32 (bs : Bytes) : UInt32 := feed 0xFFFFFFFF bs ^^^ 0xFFFFFFFF

end DurableKV.Checksum
