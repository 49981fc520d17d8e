import Switchboard.Net.Address
import Switchboard.TransportFault

/-!
# Hosts

What becomes of attempts to listen at an address, or to reach one.
-/

namespace Switchboard

/-- A host: the addresses at which its programs may listen, and whether they can reach any
address. -/
structure Host where
  owns : SocketAddress → Bool
  isConnected : Bool

namespace Host

/-- Whether an address is one that every host has: a loopback address, or the one that stands for
all addresses of the host. -/
def isOwn : SocketAddress → Bool
  | .v4 ip _ => ip.a = 127 || ip = ⟨0, 0, 0, 0⟩
  | .v6 ip _ _ => ip = ⟨0, 0, 0, 0, 0, 0, 0, 0⟩ || ip = ⟨0, 0, 0, 0, 0, 0, 0, 1⟩

/-- A host by itself: its programs may listen, but its network leads nowhere, not even back to the
host. -/
def isolated : Host := ⟨isOwn, false⟩

/-- A host whose programs reach each other. -/
def loopback : Host := ⟨isOwn, true⟩

/-- A program begins to listen at an address. -/
def listen (host : Host) (address : SocketAddress) : Except HostFault Unit :=
  if host.owns address then .ok () else .error .addressNotAvailable

/-- A program tries to reach an address at which somebody listens or nobody does. -/
def reach (host : Host) (isListening : Bool) : Except HostFault Unit :=
  if !host.isConnected then .error .networkUnreachable
  else if isListening then .ok ()
  else .error .connectionRefused

end Host

end Switchboard
