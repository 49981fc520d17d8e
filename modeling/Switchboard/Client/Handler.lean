import Switchboard.Message

/-!
# Handlers

What a client does with the requests that are passed to it. Whatever becomes of a request, there is
one message that answers it.
-/

namespace Switchboard

/-- What became of a request. -/
inductive HandlerResult where
  /-- The handler answered. -/
  | answered (payload : ByteArray)
  /-- The handler reported a failure. -/
  | failed (text : String)
  /-- The handler broke off. The text says why, if it left one. -/
  | brokeOff (text : Option String)
deriving DecidableEq

/-- Serves requests by their payloads. -/
abbrev Handler := ByteArray → HandlerResult

/-- The message that answers the request of the given number. -/
def HandlerResult.toMessage (id : RequestId) : HandlerResult → Message
  | answered payload => .reply id payload
  | failed text => .errorReply id .handlerFailed text
  | brokeOff text => .errorReply id .handlerPanicked (text.getD "handler panicked")

end Switchboard
