import Switchboard.Duration
import Switchboard.Relay.Config

/-!
# Options of a relay

The quantities a relay runs with.
-/

namespace Switchboard

/-- The options of a relay. -/
structure RelayOptions where
  /-- Where the relay listens. -/
  bindAddress : SocketAddress := .v4 .loopback defaultPort
  /-- After how long without traffic a session ends; zero means never. -/
  idleTimeout : Duration := .zero
  /-- How many sessions there may be at a time. -/
  maxConnections : Nat := 1000
  /-- How much time lies between two searches for expired routes. -/
  sweepInterval : Duration := .ofSecs 1
  /-- How many messages may wait for one session. -/
  outboundQueue : Nat := 1024
deriving DecidableEq, Repr

namespace RelayOptions

/-- The options of a relay at `address`. -/
def new (address : SocketAddress) : RelayOptions := { bindAddress := address }

/-- The options that a configuration asks for. -/
def ofConfig (config : Config) : RelayOptions where
  bindAddress := config.bindAddress
  idleTimeout := .ofSecs config.idleTimeoutSecs.toNat
  maxConnections := config.maxConnections.toNat
  sweepInterval := .ofMillis config.sweepIntervalMs.toNat
  outboundQueue := config.outboundQueue.toNat

end RelayOptions

end Switchboard
