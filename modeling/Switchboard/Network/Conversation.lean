import Switchboard.Network.Basic

/-!
# Conversations in a network

Whole conversations, in which after each move everybody goes on until nothing is at hand: to join,
to make one call or several at a time, to close. Time passes only for those who wait in vain.
-/

namespace Switchboard

namespace Network

/-- How the clients of a network serve requests, by their names. -/
abbrev Handlers := String → Handler

/-! ## Going on -/

/-- A client reads all that has come, serves the requests in it, and writes one item. -/
def advanceClient (handlers : Handlers) (net : Network) (peer : Peer) : Peer :=
  let peer := peer.read peer.toClient.size
  let peer := if net.isDry peer then peer.readEnd else peer
  let peer := peer.onConnection fun conn => (conn.completeAll (handlers peer.name)).takeItem
  match peer.phase with
  | .opening attempt => peer.write attempt.hello.size
  | .joined { writer := .writing frame _, .. } | .joined { writer := .parting frame _, .. } =>
      peer.write frame.size
  | _ => peer

/-- What a client has written arrives at the relay, and the relay deals with it. -/
def deliverAll (net : Network) (name : String) : Network :=
  let size := ((net.peer? name).map fun peer => peer.toRelay.size).getD 0
  let arrived := (net.deliver name size).onRelay (·.settle net.clock)
  (arrived.deliverEnd name).onRelay (·.settle net.clock)

/-- What the link of a client has written goes on its way. -/
def shipAll (net : Network) (peer : Peer) : Network :=
  let written := ((net.relay.link? peer.link).map fun link => link.sent.length).getD 0
  (List.range (written - peer.shipped)).foldl (fun net _ => net.ship peer.name) net

/-- Everybody goes on for one round. -/
def advance (handlers : Handlers) (net : Network) : Network :=
  let net := net.peers.foldl
    (fun net peer => (net.change peer.name (advanceClient handlers net)).deliverAll peer.name) net
  net.peers.foldl shipAll net

/-- Whether a client or its link has something at hand. -/
def isBusy (net : Network) (peer : Peer) : Bool :=
  let link := net.relay.link? peer.link
  peer.toClient.size ≠ 0 || peer.toRelay.size ≠ 0 ||
    (link.any fun link => peer.shipped < link.sent.length) ||
    (peer.hasEnded && link.any fun link => link.phase ≠ .ended) ||
    match peer.phase with
    | .opening attempt => !attempt.isWritten || net.isDry peer
    | .joined conn =>
        !conn.services.isEmpty || (conn.writer = .idle && !conn.queue.items.isEmpty) ||
          (conn.reader.isSome && net.isDry peer)
    | .failed _ => false

/-- Everybody goes on while somebody has something at hand, for at most `count` rounds. -/
def settleTimes (handlers : Handlers) : Nat → Network → Network
  | 0, net => net
  | count + 1, net =>
      if net.peers.any net.isBusy then settleTimes handlers count (net.advance handlers) else net

/-- How many messages are at a client, on their way to it, or waiting for it. -/
def load (net : Network) (peer : Peer) : Nat :=
  let atClient := (peer.connection?.map fun conn =>
    conn.queue.items.length + conn.queue.line.length + conn.services.length).getD 0
  let atRelay := ((net.relay.link? peer.link).map fun link =>
    link.sent.length - peer.shipped + net.relay.outboxSize link).getD 0
  atClient + atRelay + (peer.toRelay.size + peer.toClient.size) / Frame.preambleSize

/-- How many messages there are in the whole network. -/
def totalLoad (net : Network) : Nat :=
  net.peers.foldl (fun total peer => total + net.load peer) 0

/-- Everybody goes on until nothing is at hand. A client writes one message in a round, and each
message that it writes leads to at most one that somebody else writes, and that to one that comes
back. -/
def settle (handlers : Handlers) (net : Network) : Network :=
  net.settleTimes handlers (4 * net.totalLoad + 16)

/-! ## Conversations -/

/-- Forgets a client. -/
def forget (net : Network) (name : String) : Network :=
  { net with peers := net.peers.filter fun peer => peer.name ≠ name }

/-- A client joins a cluster. One that is not answered waits in vain. -/
def join (handlers : Handlers) (net : Network) (name cluster connectionId : String)
    (options : ConnectionOptions) : Except ClientError Connection × Network :=
  match net.connect name cluster connectionId options with
  | .error error => (.error error, net)
  | .ok net =>
      let net := net.settle handlers
      match (net.peer? name).map Peer.phase with
      | some (.joined conn) => (.ok conn, net)
      | some (.failed error) => (.error error, net.forget name)
      | _ => (.error .connectTimeout, net.forget name)

/-- A call that has begun: under a name, or with a result already. -/
abbrev Begun := Except (Except ClientError ByteArray) CallKey

/-- Begins a call. None if the client has no connection. -/
def begin? (net : Network) (name cluster : String) (payload : ByteArray) (timeout : Duration) :
    Option Begun × Network :=
  match net.request name cluster payload timeout with
  | (some (.started key), net) => (some (.ok key), net)
  | (some (.refused error), net) => (some (.error (.error error)), net)
  | (_, net) => (none, net)

/-- The result of a call that has begun. If there is none, time passes until the call gives up. -/
def await (net : Network) (name : String) (timeout : Duration) :
    Begun → Except ClientError ByteArray × Network
  | .error result => (result, net)
  | .ok key =>
      match net.poll name key with
      | (some result, net) => (result, net)
      | (none, net) =>
          match (net.passTime timeout).poll name key with
          | (some result, net) => (result, net)
          | (none, net) => (.error .requestTimeout, net)

/-- Makes several calls at a time. Returns the results in the same order. None if the client has no
connection. -/
def callAll (handlers : Handlers) (net : Network) (name cluster : String)
    (payloads : List ByteArray) (timeout : Duration) :
    Option (List (Except ClientError ByteArray)) × Network :=
  let (begun, net) := payloads.foldl
    (fun (begun, net) payload =>
      let (start, net) := net.begin? name cluster payload timeout
      (begun ++ [start], net))
    (([] : List (Option Begun)), net)
  let (results, net) := (begun.filterMap id).foldl
    (fun (results, net) start =>
      let (result, net) := net.await name timeout start
      (results ++ [result], net))
    (([] : List (Except ClientError ByteArray)), net.settle handlers)
  (if begun.all Option.isSome then some results else none, net)

/-- The owner closes a connection, and everybody goes on. -/
def close (handlers : Handlers) (net : Network) (name : String) : Network :=
  (net.change name (·.onConnection fun conn => conn.close.2)).settle handlers

/-- The owner drops a connection, and everybody goes on. -/
def drop (handlers : Handlers) (net : Network) (name : String) : Network :=
  ((net.dropPeer name).settle handlers).forget name

/-- The relay ends, and everybody goes on. -/
def finish (handlers : Handlers) (net : Network) : Network := net.shutDown.settle handlers

/-- The reasons for which the handlers of the connections were told that they are lost. -/
def losses (net : Network) : List (String × ClientError) :=
  net.peers.flatMap fun peer =>
    (peer.connection?.map Connection.losses).getD [] |>.map fun loss => (peer.name, loss)

end Network

end Switchboard
