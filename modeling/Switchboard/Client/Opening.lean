import Switchboard.Client.Error
import Switchboard.Message

/-!
# Opening a connection

A client sends its opening message and waits for the relay to accept or to refuse the session.
Nothing but an acceptance will do, and any frame that cannot be read ends the attempt. Bytes behind
the acceptance belong to the connection.
-/

namespace Switchboard

/-- An attempt to open a connection: the opening message, how much of it has been written, and what
has been received. -/
structure Opening where
  hello : ByteArray
  written : Nat := 0
  decoder : Decoder := .new

namespace Opening

/-- How an attempt stands. -/
inductive Progress where
  /-- The relay has not answered yet. -/
  | pending (opening : Opening)
  /-- The relay has accepted the session; the decoder holds what came behind. -/
  | accepted (connectionId : String) (decoder : Decoder)
  /-- The attempt has failed. -/
  | failed (error : ClientError)

/-- Begins an attempt to join `cluster`. The names have to fit into a frame. -/
def start (cluster : String) (clientName : Option String) : Except ClientError Opening :=
  match (Message.hello cluster clientName).encode with
  | .ok hello => .ok { hello }
  | .error fault => .error (.protocol fault)

/-- Whether the opening message has been written in full. Only then the answer is awaited. -/
def isWritten (opening : Opening) : Bool := opening.hello.size ≤ opening.written

/-- The next bytes of the opening message, at most `room`. -/
def write (opening : Opening) (room : Nat) : ByteArray × Opening :=
  let written := min opening.hello.size (opening.written + room)
  (opening.hello.extract opening.written written, { opening with written })

/-- The relay's answer, as its first message gives it. -/
def verdict (message : Message) : Except ClientError String :=
  match message.envelope with
  | .welcome connectionId => .ok connectionId
  | .errorReply _ error => .error (.handshakeRejected s!"{error.code.name}: {error.message}")
  | .close reason => .error (.handshakeRejected (reason.getD "closed by relay"))
  | other => .error (.handshakeRejected s!"unexpected {other.kind.name} message")

/-- Receives bytes from the relay. -/
def receive (opening : Opening) (data : ByteArray) : Progress :=
  match (opening.decoder.extend data).nextMessage with
  | (.needMore, decoder) => .pending { opening with decoder }
  | (.failed fault, _) => .failed (.protocol fault)
  | (.item message, decoder) =>
      match verdict message with
      | .ok connectionId => .accepted connectionId decoder
      | .error error => .failed error

end Opening

end Switchboard
