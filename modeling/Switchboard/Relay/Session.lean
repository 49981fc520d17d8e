import Switchboard.Net.Address

/-!
# Sessions

What a relay remembers of one connection: how far its handshake has come, the cluster it joined and
under which number, and how many messages it has sent.
-/

namespace Switchboard

/-- The number under which a relay knows a member of a cluster. -/
abbrev MemberId := UInt64

/-- How far a session has come. -/
inductive SessionState where
  /-- Connected; the opening is still to come. -/
  | connected
  /-- Opened; the session has joined a cluster. -/
  | ready
  /-- About to end. -/
  | closing
deriving DecidableEq, Repr

/-- One connection as a relay sees it. -/
structure Session where
  remote : SocketAddress
  state : SessionState := .connected
  cluster : Option String := none
  clientName : Option String := none
  member : Option MemberId := none
  requestsSent : Nat := 0
  repliesSent : Nat := 0
deriving DecidableEq, Repr

namespace Session

/-- A session that has just been accepted. -/
def new (remote : SocketAddress) : Session := { remote }

/-- Records the opening: the cluster, the client's name, and the number it got. -/
def completeHandshake (session : Session) (cluster : String) (clientName : Option String)
    (member : MemberId) : Session :=
  { session with
    state := .ready, cluster := some cluster, clientName := clientName, member := some member }

/-- Counts a request. -/
def recordRequest (session : Session) : Session :=
  { session with requestsSent := session.requestsSent + 1 }

/-- Counts a reply. -/
def recordReply (session : Session) : Session :=
  { session with repliesSent := session.repliesSent + 1 }

end Session

end Switchboard
