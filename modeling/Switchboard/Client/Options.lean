import Switchboard.Duration
import Switchboard.Net.Address

/-!
# Options of a connection

Where a client connects to, how long it waits for the relay to accept it, and the sizes of its
buffers. The setters keep the sizes within their limits.
-/

namespace Switchboard

/-- The options of a connection. -/
structure ConnectionOptions where
  /-- Where the relay listens. -/
  address : SocketAddress
  /-- How long opening the connection may take, the handshake included. -/
  connectTimeout : Duration
  /-- The name the client gives itself. -/
  clientName : Option String
  /-- How many bytes are read at once. -/
  readBufferSize : Nat
  /-- How many frames may wait for the writer. -/
  writeQueueCapacity : Nat
deriving DecidableEq, Repr

namespace ConnectionOptions

/-- How many bytes are read at once unless told otherwise. -/
def defaultReadBufferSize : Nat := 8 * 1024

/-- The smallest read buffer. -/
def minReadBufferSize : Nat := 1024

/-- The largest read buffer. -/
def maxReadBufferSize : Nat := 1024 * 1024

/-- How many frames may wait for the writer unless told otherwise. -/
def defaultWriteQueueCapacity : Nat := 1024

/-- The options for a relay at `address`. -/
def new (address : SocketAddress) : ConnectionOptions :=
  { address
    connectTimeout := .ofSecs 10
    clientName := none
    readBufferSize := defaultReadBufferSize
    writeQueueCapacity := defaultWriteQueueCapacity }

/-- Sets the name the client gives itself. -/
def withClientName (options : ConnectionOptions) (name : String) : ConnectionOptions :=
  { options with clientName := some name }

/-- Sets how long opening the connection may take. -/
def withConnectTimeout (options : ConnectionOptions) (timeout : Duration) : ConnectionOptions :=
  { options with connectTimeout := timeout }

/-- Sets how many bytes are read at once, within the limits. -/
def withReadBufferSize (options : ConnectionOptions) (size : Nat) : ConnectionOptions :=
  { options with readBufferSize := max minReadBufferSize (min size maxReadBufferSize) }

/-- Sets how many frames may wait for the writer, at least one. -/
def withWriteQueueCapacity (options : ConnectionOptions) (capacity : Nat) : ConnectionOptions :=
  { options with writeQueueCapacity := max 1 capacity }

end ConnectionOptions

end Switchboard
