import Switchboard.Envelope
import Switchboard.Frame

/-!
# Messages

A message is an envelope and a payload. `Message.encode` writes it as one frame, and
`Message.decode` takes one off a buffer. `Decoder` is a buffer that is fed in pieces.
-/

namespace Switchboard

/-- An envelope together with its payload. -/
structure Message where
  envelope : Envelope
  payload : ByteArray
deriving DecidableEq

namespace Message

/-- A message without payload. -/
def control (envelope : Envelope) : Message := ⟨envelope, ByteArray.empty⟩

/-- The opening of a session in this version of the protocol. -/
def hello (cluster : String) (clientName : Option String) : Message :=
  control (.hello protocolVersion cluster clientName)

/-- The acceptance of a session. -/
def welcome (connectionId : String) : Message := control (.welcome connectionId)

/-- A request. -/
def request (id : RequestId) (cluster : String) (timeoutMs : UInt64) (payload : ByteArray) :
    Message :=
  ⟨.request id cluster timeoutMs, payload⟩

/-- A reply. -/
def reply (id : RequestId) (payload : ByteArray) : Message := ⟨.reply id, payload⟩

/-- A reply that reports an error. -/
def errorReply (id : RequestId) (code : ErrorCode) (message : String) : Message :=
  control (.errorReply id ⟨code, message⟩)

/-- The end of a session. -/
def close (reason : Option String) : Message := control (.close reason)

/-- The frame of a message. -/
def toFrame (message : Message) : Frame :=
  Frame.new message.envelope.text.toUTF8 message.payload

/-- The message in a frame. -/
def ofFrame (frame : Frame) : Except ProtocolError Message :=
  match Envelope.parse? frame.header with
  | some envelope => .ok ⟨envelope, frame.payload⟩
  | none => .error .malformedEnvelope

/-- The bytes of a message on the wire. -/
def encode (message : Message) : Except ProtocolError ByteArray := message.toFrame.encode

/-- Takes the first message off `buffer`. -/
def decode (buffer : ByteArray) : Frame.Taken Message :=
  match Frame.decode buffer with
  | .needMore => .needMore
  | .refused fault => .refused fault
  | .taken result rest => .taken (result.bind ofFrame) rest

/-- What stays behind a message is shorter than the buffer. -/
theorem size_lt_of_decode_eq_taken {buffer rest : ByteArray}
    {result : Except ProtocolError Message} (h : decode buffer = .taken result rest) :
    rest.size < buffer.size := by
  unfold decode at h
  split at h
  · cases h
  · cases h
  · rename_i hframe
    cases h
    exact Frame.size_lt_of_decode_eq_taken hframe

end Message

/-- The bytes of a stream that have arrived and have not been taken yet. -/
structure Decoder where
  buffer : ByteArray := ByteArray.empty

namespace Decoder

/-- A decoder that has seen nothing. -/
def new : Decoder := {}

/-- The number of bytes not taken yet. -/
def buffered (decoder : Decoder) : Nat := decoder.buffer.size

/-- Appends bytes that have arrived. -/
def extend (decoder : Decoder) (data : ByteArray) : Decoder := ⟨decoder.buffer ++ data⟩

/-- One result of a decoder. -/
inductive Outcome (α : Type) where
  /-- More bytes are needed. -/
  | needMore
  /-- Something was taken off whole. -/
  | item (a : α)
  /-- A frame was refused. -/
  | failed (fault : ProtocolError)

/-- The result of an attempt to take something off, and the decoder afterwards. -/
def settle {α : Type} (decoder : Decoder) : Frame.Taken α → Outcome α × Decoder
  | .needMore => (.needMore, decoder)
  | .refused fault => (.failed fault, decoder)
  | .taken (.ok a) rest => (.item a, ⟨rest⟩)
  | .taken (.error fault) rest => (.failed fault, ⟨rest⟩)

/-- Takes the next frame. -/
def nextFrame (decoder : Decoder) : Outcome Frame × Decoder :=
  decoder.settle (Frame.decode decoder.buffer)

/-- Takes the next message. A message that fails with a recoverable fault has been taken off, so
that the next call goes on behind it. -/
def nextMessage (decoder : Decoder) : Outcome Message × Decoder :=
  decoder.settle (Message.decode decoder.buffer)

/-- Takes messages until more bytes are needed or the stream is out of step. Returns all results,
that last one included. -/
def drain (decoder : Decoder) : List (Outcome Message) × Decoder :=
  match h : Message.decode decoder.buffer with
  | .needMore => ([.needMore], decoder)
  | .refused fault => ([.failed fault], decoder)
  | .taken result rest =>
      let outcome := match result with
        | .ok message => Outcome.item message
        | .error fault => .failed fault
      let (outcomes, last) := drain ⟨rest⟩
      (outcome :: outcomes, last)
termination_by decoder.buffer.size
decreasing_by exact Message.size_lt_of_decode_eq_taken h

end Decoder

end Switchboard
