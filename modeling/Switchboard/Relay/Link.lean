import Switchboard.Duration
import Switchboard.Message
import Switchboard.Relay.Session

/-!
# Links

A link is a relay's end of one byte stream: the session on it, what has been received and not dealt
with, and what has been written.
-/

namespace Switchboard

/-- Names a link among all that a relay has accepted. -/
abbrev LinkId := Nat

/-- What the task of a link is doing. -/
inductive LinkPhase where
  /-- It waits for something to happen. -/
  | waiting
  /-- It deals with what it has received. -/
  | reading
  /-- It has ended. -/
  | ended
deriving DecidableEq, Repr

/-- A relay's end of one byte stream. -/
structure Link where
  id : LinkId
  /-- The name under which the session is welcomed. -/
  name : String
  session : Session
  phase : LinkPhase := .waiting
  decoder : Decoder := .new
  /-- All that has been written to the client. -/
  sent : List Message := []
  /-- Whether the client's side still takes what is written to it. -/
  isWritable : Bool := true
  /-- Whether the relay has announced its end, and the link has not taken notice. -/
  isNotified : Bool := false
  /-- When something last came or went. -/
  lastActive : Instant

namespace Link

/-- A link that has just been accepted. -/
def new (id : LinkId) (name : String) (remote : SocketAddress) (now : Instant) : Link :=
  { id, name, session := .new remote, lastActive := now }

/-- Something came or went. -/
def touch (link : Link) (now : Instant) : Link := { link with lastActive := now }

/-- Writes a message. That fails for a message that does not fit into a frame, and for a client that
is gone. -/
def write (link : Link) (message : Message) : Option Link :=
  match message.encode with
  | .error _ => none
  | .ok _ => if link.isWritable then some { link with sent := link.sent ++ [message] } else none

/-- Writes a message if that can be done. -/
def tryWrite (link : Link) (message : Message) : Link := (link.write message).getD link

end Link

end Switchboard
