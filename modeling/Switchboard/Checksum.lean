/-!
# Checksum of a frame body

CRC-32C, the cyclic redundancy check with the Castagnoli polynomial in reflected form. The register
starts with all bits set, takes the bytes in order, and is inverted at the end. A checksum can be
continued: `Checksum.extend (Checksum.ofBytes a) b` is the checksum of `a ++ b`.
-/

namespace Switchboard

namespace Checksum

/-- The Castagnoli polynomial, bit-reversed, without its leading term. -/
def polynomial : UInt32 := 0x82F63B78

/-- The register after one bit has left it at the low end. -/
def shift (register : UInt32) : UInt32 :=
  if register &&& 1 = 1 then (register >>> 1) ^^^ polynomial else register >>> 1

/-- The register after eight shifts. -/
def shiftByte (register : UInt32) : UInt32 :=
  shift (shift (shift (shift (shift (shift (shift (shift register)))))))

/-- The register after it has taken one byte. -/
def absorb (register : UInt32) (byte : UInt8) : UInt32 :=
  shiftByte (register ^^^ byte.toUInt32)

/-- The register after it has taken the bytes from position `start` on. -/
def absorbFrom (bytes : ByteArray) (start : Nat) (register : UInt32) : UInt32 :=
  if h : start < bytes.size then
    absorbFrom bytes (start + 1) (absorb register bytes[start])
  else
    register
termination_by bytes.size - start

/-- The checksum of a byte string whose beginning has the checksum `sum` and which goes on with
`bytes`. -/
def extend (sum : UInt32) (bytes : ByteArray) : UInt32 :=
  absorbFrom bytes 0 (sum ^^^ 0xFFFFFFFF) ^^^ 0xFFFFFFFF

/-- The checksum of `bytes`. -/
def ofBytes (bytes : ByteArray) : UInt32 := extend 0 bytes

end Checksum

end Switchboard
