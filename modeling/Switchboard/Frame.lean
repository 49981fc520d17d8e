import Switchboard.Bytes
import Switchboard.Checksum
import Switchboard.ProtocolError

/-!
# Frames

A frame on the wire is a preamble of eighteen bytes, the text of an envelope and a payload. The
preamble holds, all in network byte order,

    magic (4) | version (2) | flags (2) | header length (2) | payload length (4) | checksum (4)

and the checksum covers header and payload. `Frame.encode` writes a frame; `Frame.decode` takes the
first one off a buffer.
-/

namespace Switchboard

/-- The version of the protocol spoken here. -/
def protocolVersion : UInt16 := 1

/-- The most bytes a payload may have: 16 MiB. -/
def maxPayloadSize : Nat := 16 * 1024 * 1024

/-- The most bytes an envelope text may have, which is what the length field can hold. -/
def maxHeaderSize : Nat := 65535

/-- The port a relay listens on unless told otherwise. -/
def defaultPort : UInt16 := 55555

/-- The bit field of a frame. One bit has a meaning: the checksum is present. -/
structure FrameFlags where
  bits : UInt16
deriving DecidableEq, Repr

namespace FrameFlags

/-- No flag set. -/
def none : FrameFlags := ⟨0⟩

/-- The bit that says that the checksum is present. -/
def checksumBit : UInt16 := 1

/-- The same flags with the checksum marked as present. -/
def withChecksum (flags : FrameFlags) : FrameFlags := ⟨flags.bits ||| checksumBit⟩

/-- Whether the checksum is marked as present. -/
def hasChecksum (flags : FrameFlags) : Bool := flags.bits &&& checksumBit != 0

/-- The flags with the given bits, refused if a bit without a meaning is set. -/
def ofBits (bits : UInt16) : Except ProtocolError FrameFlags :=
  if bits &&& ~~~checksumBit = 0 then .ok ⟨bits⟩ else .error (.unknownFlags bits)

end FrameFlags

/-- A frame, taken apart. -/
structure Frame where
  version : UInt16
  flags : FrameFlags
  header : ByteArray
  payload : ByteArray
deriving DecidableEq

namespace Frame

/-- The four bytes every frame begins with. -/
def magic : ByteArray := ⟨#[0x49, 0x52, 0x53, 0x58]⟩

/-- The number of bytes before the header. -/
def preambleSize : Nat := 18

/-- A frame of this protocol version with its checksum present. -/
def new (header payload : ByteArray) : Frame :=
  ⟨protocolVersion, FrameFlags.none.withChecksum, header, payload⟩

/-- The checksum over header and payload. -/
def checksum (header payload : ByteArray) : UInt32 :=
  Checksum.extend (Checksum.ofBytes header) payload

/-- The two bytes of `n`, high byte first. -/
def bytes16 (n : UInt16) : ByteArray := ⟨#[(n >>> 8).toUInt8, n.toUInt8]⟩

/-- The four bytes of `n`, high byte first. -/
def bytes32 (n : UInt32) : ByteArray :=
  ⟨#[(n >>> 24).toUInt8, (n >>> 16).toUInt8, (n >>> 8).toUInt8, n.toUInt8]⟩

/-- The checksum field: the checksum of the body if the flags say that it is present, else zero. -/
def checksumField (frame : Frame) : UInt32 :=
  if frame.flags.hasChecksum then checksum frame.header frame.payload else 0

/-- The eighteen bytes before the header. -/
def preamble (frame : Frame) : ByteArray :=
  magic ++ bytes16 frame.version ++ bytes16 frame.flags.bits ++
    bytes16 frame.header.size.toUInt16 ++ bytes32 frame.payload.size.toUInt32 ++
    bytes32 frame.checksumField

/-- The bytes of a frame. A payload over the limit is reported before a header over the limit. -/
def encode (frame : Frame) : Except ProtocolError ByteArray :=
  if maxPayloadSize < frame.payload.size then
    .error (.payloadTooLong frame.payload.size maxPayloadSize)
  else if maxHeaderSize < frame.header.size then
    .error (.headerTooLong frame.header.size)
  else
    .ok (frame.preamble ++ frame.header ++ frame.payload)

/-- The byte at position `i`, zero behind the end. -/
def byteAt (bytes : ByteArray) (i : Nat) : UInt8 :=
  if h : i < bytes.size then bytes[i] else 0

/-- The number in the two bytes from position `i`, high byte first. -/
def read16 (bytes : ByteArray) (i : Nat) : UInt16 :=
  (byteAt bytes i).toUInt16 <<< 8 ||| (byteAt bytes (i + 1)).toUInt16

/-- The number in the four bytes from position `i`, high byte first. -/
def read32 (bytes : ByteArray) (i : Nat) : UInt32 :=
  (byteAt bytes i).toUInt32 <<< 24 ||| (byteAt bytes (i + 1)).toUInt32 <<< 16 |||
    (byteAt bytes (i + 2)).toUInt32 <<< 8 ||| (byteAt bytes (i + 3)).toUInt32

/-- What a preamble announces. -/
structure Announced where
  flags : FrameFlags
  headerSize : Nat
  payloadSize : Nat
  checksum : UInt32

namespace Announced

/-- The number of bytes of the whole frame. -/
def totalSize (announced : Announced) : Nat :=
  preambleSize + announced.headerSize + announced.payloadSize

end Announced

/-- Reads the preamble at the start of `buffer`, which has at least eighteen bytes. Magic, version,
flags and payload length are judged in this order. -/
def readPreamble (buffer : ByteArray) : Except ProtocolError Announced :=
  if buffer.extract 0 4 ≠ magic then
    .error (.badMagic (byteAt buffer 0) (byteAt buffer 1) (byteAt buffer 2) (byteAt buffer 3))
  else if read16 buffer 4 ≠ protocolVersion then
    .error (.unsupportedVersion (read16 buffer 4))
  else
    match FrameFlags.ofBits (read16 buffer 6) with
    | .error e => .error e
    | .ok flags =>
        let payloadSize := (read32 buffer 10).toNat
        if maxPayloadSize < payloadSize then
          .error (.payloadTooLong payloadSize maxPayloadSize)
        else
          .ok ⟨flags, (read16 buffer 8).toNat, payloadSize, read32 buffer 14⟩

/-- What an attempt to take something off a buffer came to. -/
inductive Taken (α : Type) where
  /-- More bytes are needed; the buffer stays as it is. -/
  | needMore
  /-- The stream is out of step; the buffer stays as it is. -/
  | refused (fault : ProtocolError)
  /-- One whole frame was taken off, with what it held or why it was bad; `rest` stays. -/
  | taken (result : Except ProtocolError α) (rest : ByteArray)

/-- Takes the first frame off `buffer`. A frame whose checksum is present and wrong is taken off
and reported; every other fault leaves the buffer alone. -/
def decode (buffer : ByteArray) : Taken Frame :=
  if buffer.size < preambleSize then .needMore
  else
    match readPreamble buffer with
    | .error fault => .refused fault
    | .ok announced =>
        if buffer.size < announced.totalSize then .needMore
        else
          let headerEnd := preambleSize + announced.headerSize
          let header := buffer.extract preambleSize headerEnd
          let payload := buffer.extract headerEnd announced.totalSize
          let rest := buffer.extract announced.totalSize buffer.size
          let computed := checksum header payload
          if announced.flags.hasChecksum && computed != announced.checksum then
            .taken (.error (.checksumMismatch announced.checksum computed)) rest
          else
            .taken (.ok ⟨protocolVersion, announced.flags, header, payload⟩) rest

/-- What stays behind a frame is shorter than the buffer. -/
theorem size_lt_of_decode_eq_taken {buffer rest : ByteArray} {result : Except ProtocolError Frame}
    (h : decode buffer = .taken result rest) : rest.size < buffer.size := by
  have key : ∀ announced : Announced, ¬ buffer.size < preambleSize →
      (buffer.extract announced.totalSize buffer.size).size < buffer.size := by
    intro announced hsize
    have htotal : 0 < announced.totalSize := by
      simp only [Announced.totalSize, preambleSize]; omega
    simp only [preambleSize] at hsize
    simp only [ByteArray.size_extract]
    omega
  unfold decode at h
  split at h
  · cases h
  · rename_i hsize
    split at h
    · cases h
    · split at h
      · cases h
      · simp only at h
        split at h <;> (cases h; exact key _ hsize)

end Frame

end Switchboard
