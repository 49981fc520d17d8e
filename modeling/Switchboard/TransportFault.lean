/-!
# Faults of a transport

Why a byte stream could not be opened, read or written.
-/

namespace Switchboard

/-- A fault reported by the host. -/
inductive HostFault where
  /-- The peer does not read any more. -/
  | brokenPipe
  /-- Nobody listens at the address. -/
  | connectionRefused
  /-- The host has no way to the address. -/
  | networkUnreachable
  /-- The address does not belong to the host. -/
  | addressNotAvailable
  /-- The peer has cut the stream off. -/
  | connectionReset
deriving DecidableEq, Repr

/-- Why a transport failed: a fault of the host, or one that is only described. -/
inductive TransportFault where
  | host (fault : HostFault)
  | described (text : String)
deriving DecidableEq, Repr

namespace HostFault

/-- The text that reports the fault. -/
def message : HostFault → String
  | brokenPipe => "broken pipe"
  | connectionRefused => "connection refused"
  | networkUnreachable => "network unreachable"
  | addressNotAvailable => "address not available"
  | connectionReset => "connection reset"

end HostFault

namespace TransportFault

/-- The text that reports the fault. -/
def message : TransportFault → String
  | host fault => fault.message
  | described text => text

end TransportFault

end Switchboard
