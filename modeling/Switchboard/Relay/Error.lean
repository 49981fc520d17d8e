import Switchboard.Envelope
import Switchboard.ProtocolError

/-!
# Errors of a relay

Why a relay ends a session or refuses a message, with the code that tells the client.
-/

namespace Switchboard

/-- Why a session failed. -/
inductive RelayError where
  /-- The transport failed, with the text it gave. -/
  | transport (text : String)
  /-- The byte stream broke the protocol. -/
  | protocol (cause : ProtocolError)
  /-- The first message was not an acceptable opening. -/
  | handshakeFailed (text : String)
  /-- The client speaks another version of the protocol. -/
  | unsupportedProtocol (version : UInt16)
  /-- The message makes no sense where it stands. -/
  | invalidRequest (text : String)
  /-- The relay is shutting down. -/
  | shuttingDown
deriving DecidableEq, Repr

namespace RelayError

/-- The code under which the client hears of the error. -/
def code : RelayError → ErrorCode
  | transport _ => .internalError
  | protocol _ => .badRequest
  | handshakeFailed _ => .badRequest
  | unsupportedProtocol _ => .unsupportedProtocol
  | invalidRequest _ => .badRequest
  | shuttingDown => .internalError

/-- The text under which the client hears of the error. -/
def message : RelayError → String
  | transport text => s!"I/O error: {text}"
  | protocol cause => "protocol error: " ++ cause.message
  | handshakeFailed text => s!"handshake failed: {text}"
  | unsupportedProtocol version => s!"unsupported protocol version: {version}"
  | invalidRequest text => s!"invalid request: {text}"
  | shuttingDown => "relay shutting down"

/-- The error as it is sent. -/
def toReply (error : RelayError) : ReplyError := ⟨error.code, error.message⟩

end RelayError

end Switchboard
