import Switchboard.Bytes
import Switchboard.Envelope
import Switchboard.ProtocolError
import Switchboard.TransportFault

/-!
# Errors of a client

Why a connection could not be opened, was lost, or a request on it failed.
-/

namespace Switchboard

/-- What a client reports to its caller. -/
inductive ClientError where
  /-- The transport could not be opened or read. -/
  | transport (fault : TransportFault)
  /-- The byte stream broke the protocol, or a message does not fit into a frame. -/
  | protocol (cause : ProtocolError)
  /-- The relay did not accept the session in time. -/
  | connectTimeout
  /-- The relay refused the session. -/
  | handshakeRejected (text : String)
  /-- The transport could not be written. -/
  | sendFailed (fault : TransportFault)
  /-- The connection is gone. -/
  | connectionClosed
  /-- No reply came in time. -/
  | requestTimeout
  /-- A request must be given some time. -/
  | zeroTimeout
  /-- A request of this number is still waiting. -/
  | duplicateRequest (id : RequestId)
  /-- The other side answered with an error. -/
  | remote (error : ReplyError)
deriving DecidableEq, Repr

namespace ClientError

/-- The text that reports the error. -/
def message : ClientError → String
  | transport fault => "I/O error: " ++ fault.message
  | protocol cause => "protocol error: " ++ cause.message
  | connectTimeout => "connect timeout"
  | handshakeRejected text => s!"handshake rejected: {text}"
  | sendFailed fault => "failed to send frame: " ++ fault.message
  | connectionClosed => "connection closed"
  | requestTimeout => "request timeout"
  | zeroTimeout => "timeout must be greater than zero"
  | duplicateRequest id => s!"request id {id} is already pending"
  | remote error => "remote error: " ++ error.code.name ++ " - " ++ error.message

/-- Whether the same attempt may succeed when it is made again. -/
def isRetryable : ClientError → Bool
  | transport _ | sendFailed _ | requestTimeout | connectTimeout | connectionClosed => true
  | remote error => error.code.isRetryable
  | _ => false

end ClientError

/-- How a request ended. -/
inductive Outcome where
  /-- The handler answered with this payload. -/
  | reply (payload : ByteArray)
  /-- The other side answered with an error. -/
  | rejected (error : ReplyError)
  /-- No answer came in time. -/
  | timedOut
  /-- The connection went away. -/
  | closed
deriving DecidableEq

namespace Outcome

/-- What the caller of a request is told. -/
def toResult : Outcome → Except ClientError ByteArray
  | reply payload => .ok payload
  | rejected error => .error (.remote error)
  | timedOut => .error .requestTimeout
  | closed => .error .connectionClosed

end Outcome

end Switchboard
