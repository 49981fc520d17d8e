/-!
# Faults of the wire protocol

The causes for which a frame cannot be written or read. A fault is recoverable when the frame that
caused it has been taken off the stream whole, so that reading may go on behind it.
-/

namespace Switchboard

/-- Why a frame was refused. -/
inductive ProtocolError where
  /-- The first four bytes are not the magic of the protocol. -/
  | badMagic (b0 b1 b2 b3 : UInt8)
  /-- The frame names a protocol version that is not spoken here. -/
  | unsupportedVersion (version : UInt16)
  /-- A flag bit without a meaning is set. -/
  | unknownFlags (bits : UInt16)
  /-- The payload is longer than a frame may carry. -/
  | payloadTooLong (size limit : Nat)
  /-- The envelope text is longer than a frame may carry. -/
  | headerTooLong (size : Nat)
  /-- The stored checksum is not the checksum of the body. -/
  | checksumMismatch (stored computed : UInt32)
  /-- The header is not the text of an envelope. -/
  | malformedEnvelope
  /-- The transport failed, with the text it gave. -/
  | transport (text : String)
deriving DecidableEq, Repr

namespace ProtocolError

/-- `0x` and the digits of `n` in lower-case hexadecimal. -/
def hexadecimal (n : Nat) : String := "0x" ++ String.ofList (Nat.toDigits 16 n)

/-- The text that reports the fault. -/
def message : ProtocolError → String
  | badMagic b0 b1 b2 b3 =>
      s!"invalid magic bytes: expected 'IRSX', got [{b0}, {b1}, {b2}, {b3}]"
  | unsupportedVersion version => s!"unsupported protocol version: {version}"
  | unknownFlags bits => "invalid frame flags: " ++ hexadecimal bits.toNat
  | payloadTooLong size limit => s!"frame too large: {size} bytes (max {limit})"
  | headerTooLong size => s!"envelope header too large: {size} bytes"
  | checksumMismatch stored computed =>
      "CRC mismatch: expected " ++ hexadecimal stored.toNat ++ ", got " ++
        hexadecimal computed.toNat
  | malformedEnvelope => "malformed envelope"
  | transport text => s!"I/O error: {text}"

/-- Whether the offending frame has been taken off the stream, so that the next byte in it begins
another frame. -/
def isRecoverable : ProtocolError → Bool
  | checksumMismatch .. => true
  | malformedEnvelope => true
  | _ => false

end ProtocolError

end Switchboard
