import Switchboard.Client.Connection
import Switchboard.Client.Opening
import Switchboard.Relay.Basic

/-!
# Networks

Clients and a relay with reliable byte streams between them, one stream in each direction for every
client. Every definition under "Steps" is one step of somebody in the network. A run is any sequence
of them, so that bytes may stay on their way for as long as one likes, and arrive in any portions,
but never out of order.
-/

namespace Switchboard

/-- How far a client has come. -/
inductive PeerPhase where
  | opening (attempt : Opening)
  | joined (conn : Connection)
  | failed (error : ClientError)

/-- A client in a network, and the two streams between it and its link. -/
structure Peer where
  name : String
  cluster : String
  options : ConnectionOptions
  phase : PeerPhase
  link : LinkId
  /-- Bytes on their way to the relay. -/
  toRelay : ByteArray := ByteArray.empty
  /-- Bytes on their way to the client. -/
  toClient : ByteArray := ByteArray.empty
  /-- How many of the link's messages have gone on their way. -/
  shipped : Nat := 0
  /-- Whether the streams have broken off. -/
  isBroken : Bool := false

namespace Peer

/-- The connection, once there is one. -/
def connection? (peer : Peer) : Option Connection :=
  match peer.phase with
  | .joined conn => some conn
  | _ => none

/-- Applies a step to the connection, if there is one. -/
def onConnection (peer : Peer) (step : Connection → Connection) : Peer :=
  match peer.phase with
  | .joined conn => { peer with phase := .joined (step conn) }
  | _ => peer

/-- Whether the client has ended its sending direction. -/
def hasEnded (peer : Peer) : Bool :=
  match peer.phase with
  | .opening _ => false
  | .joined conn => conn.writer = .ended
  | .failed _ => true

/-- The client gives at most `room` bytes to its stream. -/
def write (peer : Peer) (room : Nat) : Peer :=
  match peer.phase with
  | .opening attempt =>
      let (bytes, attempt) := attempt.write room
      { peer with phase := .opening attempt, toRelay := peer.toRelay ++ bytes }
  | .joined conn =>
      let (bytes, conn) := conn.write room
      { peer with phase := .joined conn, toRelay := peer.toRelay ++ bytes }
  | .failed _ => peer

/-- The client takes at most `limit` of the bytes that are on their way to it. -/
def read (peer : Peer) (limit : Nat) : Peer :=
  let data := peer.toClient.extract 0 limit
  let taken := { peer with toClient := peer.toClient.extract limit peer.toClient.size }
  match peer.phase with
  | .opening attempt =>
      if attempt.isWritten then
        match attempt.receive data with
        | .pending attempt => { taken with phase := .opening attempt }
        | .failed error => { taken with phase := .failed error }
        | .accepted connectionId decoder =>
            let conn := Connection.new peer.options peer.cluster connectionId decoder
            { taken with phase := .joined (conn.receive ByteArray.empty) }
      else peer
  | .joined conn => { taken with phase := .joined (conn.receive data) }
  | .failed _ => taken

/-- The client finds the end of the stream to it. -/
def readEnd (peer : Peer) : Peer :=
  match peer.phase with
  | .opening _ => { peer with phase := .failed .connectionClosed }
  | .joined conn => { peer with phase := .joined conn.receiveEnd }
  | .failed _ => peer

/-- The streams of the client break off: what is on its way is lost, and the client finds out. -/
def breakOff (peer : Peer) (fault : HostFault) : Peer :=
  let broken := { peer with
    toRelay := ByteArray.empty, toClient := ByteArray.empty, isBroken := true }
  match peer.phase with
  | .opening _ => { broken with phase := .failed (.transport (.host fault)) }
  | .joined conn => { broken with phase := .joined (conn.receiveFault (.host fault)) }
  | .failed _ => broken

end Peer

/-- Clients, a relay, and a clock. -/
structure Network where
  host : Host
  relay : Relay
  peers : List Peer := []
  clock : Instant := 0

namespace Network

/-- A network of a relay that runs and no clients. -/
def start (host : Host) (options : RelayOptions) : Network :=
  { host, relay := (Relay.new options).start }

/-- The client of the given name. -/
def peer? (net : Network) (name : String) : Option Peer :=
  net.peers.find? fun peer => peer.name = name

/-- Applies a change to the client of the given name. -/
def change (net : Network) (name : String) (f : Peer → Peer) : Network :=
  { net with peers := net.peers.map fun peer => if peer.name = name then f peer else peer }

/-- Applies a step to the relay. -/
def onRelay (net : Network) (step : Relay → Relay) : Network :=
  { net with relay := step net.relay }

/-! ## Steps -/

/-- Where every client connects from. -/
def remote : SocketAddress := .v4 .loopback 0

/-- A client connects and begins to open a session. The relay gives the link `connectionId` as its
name. -/
def connect (net : Network) (name cluster connectionId : String) (options : ConnectionOptions) :
    Except ClientError Network :=
  match net.host.reach net.relay.isRunning with
  | .error fault => .error (.transport (.host fault))
  | .ok () =>
      match Opening.start cluster options.clientName with
      | .error error => .error error
      | .ok attempt =>
          let (link, relay) := net.relay.accept connectionId remote net.clock
          let peer : Peer := { name, cluster, options, phase := .opening attempt, link }
          .ok { net with relay, peers := net.peers ++ [peer] }

/-- The first `count` of the bytes on their way from a client arrive at its link. Nothing arrives
any more on a stream that has broken off. -/
def deliver (net : Network) (name : String) (count : Nat) : Network :=
  match net.peer? name with
  | none => net
  | some peer =>
      match net.relay.link? peer.link with
      | some link =>
          if link.phase = .waiting && !peer.isBroken then
            let data := peer.toRelay.extract 0 count
            let rest := peer.toRelay.extract count peer.toRelay.size
            (net.onRelay (·.receive peer.link data net.clock)).change name
              fun peer => { peer with toRelay := rest }
          else net
      | none => net

/-- The link of a client finds the end of the stream, once all bytes have arrived, or finds it
broken. -/
def deliverEnd (net : Network) (name : String) : Network :=
  match net.peer? name with
  | some peer =>
      if peer.isBroken then net.onRelay (·.receiveEnd peer.link true)
      else if peer.hasEnded && peer.toRelay.size = 0 then net.onRelay (·.receiveEnd peer.link false)
      else net
  | none => net

/-- The next message that the link of a client has written goes on its way. -/
def ship (net : Network) (name : String) : Network :=
  match net.peer? name with
  | none => net
  | some peer =>
      match (net.relay.link? peer.link).bind fun link => link.sent[peer.shipped]? with
      | none => net
      | some message =>
        if peer.isBroken then net
        else
          let bytes := message.encode.toOption.getD ByteArray.empty
          net.change name fun peer =>
            { peer with toClient := peer.toClient ++ bytes, shipped := peer.shipped + 1 }

/-- Whether nothing more will come to a client. -/
def isDry (net : Network) (peer : Peer) : Bool :=
  peer.toClient.size = 0 && (net.relay.link? peer.link).all fun link =>
    link.phase = .ended && link.sent.length ≤ peer.shipped

/-- The streams of a client break off. Its link finds out when it waits or writes. -/
def breakOff (net : Network) (name : String) (fault : HostFault) : Network :=
  match net.peer? name with
  | none => net
  | some peer =>
      (net.onRelay (·.blockWrites peer.link)).change name fun peer => peer.breakOff fault

/-- A caller begins a call. -/
def request (net : Network) (name cluster : String) (payload : ByteArray) (timeout : Duration) :
    Option Connection.CallStart × Network :=
  match (net.peer? name).bind Peer.connection? with
  | none => (none, net)
  | some conn =>
      let (start, conn) := conn.request cluster payload timeout net.clock
      (some start, net.change name fun peer => { peer with phase := .joined conn })

/-- A caller looks after its call. Returns its result, if it has ended. -/
def poll (net : Network) (name : String) (key : CallKey) :
    Option (Except ClientError ByteArray) × Network :=
  match (net.peer? name).bind Peer.connection? with
  | none => (none, net)
  | some conn =>
      match conn.call? key with
      | none => (none, net)
      | some call =>
          let (result, conn) := conn.poll call net.clock
          (result, net.change name fun peer => { peer with phase := .joined conn })

/-- Time passes, and the relay forgets the routes whose deadline has passed. -/
def passTime (net : Network) (d : Duration) : Network :=
  let clock := net.clock.after d
  { net with clock, relay := net.relay.sweep clock }

/-- The relay ends, and its links take notice. -/
def shutDown (net : Network) : Network :=
  let relay := net.relay.announceEnd.stop
  { net with relay := relay.links.foldl (fun relay link => relay.heedEnd link.id) relay }

/-- The owner drops a connection. -/
def dropPeer (net : Network) (name : String) : Network :=
  net.change name fun peer => peer.onConnection Connection.drop

end Network

end Switchboard
