import Switchboard.Net.Host
import Switchboard.Relay.Error
import Switchboard.Relay.Link
import Switchboard.Relay.Options
import Switchboard.Relay.Router
import Switchboard.Text.Blank

/-!
# Relays

A relay accepts links up to a limit. The first message on a link must open a session that joins a
cluster; from then on requests and answers pass through the router, and what is routed to the
session waits in its outbox. However a link ends, its session leaves the cluster.

Every definition here is one step of the relay or of the task of a link. A link that waits may deal
with several things: a message in its outbox, bytes from the client, the end of its idle time, the
end of the relay. Which of them comes first is up to whoever takes the steps.
-/

namespace Switchboard

/-- Counts of what a relay has done. -/
structure RelayStats where
  /-- Links accepted. -/
  connectionsTotal : Nat := 0
  /-- Links accepted that have not ended. -/
  connectionsActive : Nat := 0
  /-- Links refused for being too many. -/
  connectionsRejected : Nat := 0
  /-- Messages received. -/
  messagesReceived : Nat := 0
  /-- Frames that could not be read, and links that ended with an error. -/
  errorsTotal : Nat := 0
deriving DecidableEq, Repr

/-- A relay. -/
structure Relay where
  options : RelayOptions
  router : Router := .new
  stats : RelayStats := {}
  links : List Link := []
  nextLink : LinkId := 0
  /-- Whether it accepts links. -/
  isRunning : Bool := false
  /-- Whether its end has been announced, and it still accepts links. -/
  isNotified : Bool := false

namespace Relay

/-- A relay that does not run yet. -/
def new (options : RelayOptions) : Relay := { options }

/-- The link of the given name. -/
def link? (relay : Relay) (id : LinkId) : Option Link :=
  relay.links.find? fun link => link.id = id

/-- Puts another link in the place of the one of its name. -/
def setLink (relay : Relay) (link : Link) : Relay :=
  { relay with links := relay.links.map fun old => if old.id = link.id then link else old }

/-- Applies `change` to the counts. -/
def count (relay : Relay) (change : RelayStats → RelayStats) : Relay :=
  { relay with stats := change relay.stats }

/-- Counts a frame that could not be read, or a link that ended with an error. -/
def countError (relay : Relay) : Relay :=
  relay.count fun stats => { stats with errorsTotal := stats.errorsTotal + 1 }

/-! ## Starting and stopping -/

/-- The relay begins to accept links. -/
def start (relay : Relay) : Relay := { relay with isRunning := true, isNotified := false }

/-- The relay begins to listen where its options say. -/
def listen (relay : Relay) (host : Host) : Except HostFault Relay :=
  (host.listen relay.options.bindAddress).map fun _ => relay.start

/-- The end of the relay is announced to everybody who is there: to the relay while it accepts
links, and to the links that have not ended. -/
def announceEnd (relay : Relay) : Relay :=
  { relay with
    isNotified := relay.isRunning
    links := relay.links.map fun link =>
      if link.phase = .ended then link else { link with isNotified := true } }

/-- The relay takes notice of its end, and accepts no more links. -/
def stop (relay : Relay) : Relay :=
  if relay.isRunning && relay.isNotified then
    { relay with isRunning := false, isNotified := false }
  else relay

/-- What a client hears for which there is no room. -/
def limitReached : Message := .close (some "connection limit reached")

/-- The relay accepts a link, or refuses it if there are too many. Returns its name. -/
def accept (relay : Relay) (name : String) (remote : SocketAddress) (now : Instant) :
    LinkId × Relay :=
  let id := relay.nextLink
  let link := Link.new id name remote now
  let relay := { relay with nextLink := id + 1 }
  if relay.options.maxConnections ≤ relay.stats.connectionsActive then
    (id,
      { relay with
        links := relay.links ++ [{ link.tryWrite limitReached with phase := .ended }] }.count
        fun stats => { stats with connectionsRejected := stats.connectionsRejected + 1 })
  else
    (id,
      { relay with links := relay.links ++ [link] }.count fun stats =>
        { stats with
          connectionsTotal := stats.connectionsTotal + 1
          connectionsActive := stats.connectionsActive + 1 })

/-! ## The end of a link -/

/-- A link ends. Its session leaves its cluster. -/
def endLink (relay : Relay) (link : Link) (withError : Bool) : Relay :=
  let router := match link.session.member with
    | some member => (relay.router.leave member).2
    | none => relay.router
  let relay := { relay with router }.setLink { link with phase := .ended }
  let relay := if withError then relay.countError else relay
  relay.count fun stats => { stats with connectionsActive := stats.connectionsActive - 1 }

/-- Writes a message on a link, or ends the link if that fails. -/
def writeOrEnd (relay : Relay) (link : Link) (message : Message) : Relay :=
  match link.write message with
  | some link => relay.setLink link
  | none => relay.endLink link true

/-- The client ends the session with a message. -/
def closeLink (relay : Relay) (link : Link) : Relay :=
  relay.endLink { link with session := { link.session with state := .closing } } false

/-- The opening of a session is refused: the client hears why, if it still listens, and the link
ends. -/
def refuse (relay : Relay) (link : Link) (error : RelayError) : Relay :=
  let reply := error.toReply
  relay.endLink (link.tryWrite (.errorReply .none reply.code reply.message)) true

/-! ## Messages -/

/-- Why a message does not open a session. None if it does. -/
def openingFault? (message : Message) : Option RelayError :=
  match message.envelope with
  | .hello version cluster _ =>
      if version ≠ protocolVersion then some (.unsupportedProtocol version)
      else if Text.isBlank cluster then some (.handshakeFailed "cluster must not be empty")
      else none
  | other => some (.handshakeFailed s!"expected hello, got {other.kind.name}")

/-- A session joins its cluster, and the client is welcomed. -/
def letIn (relay : Relay) (link : Link) (cluster : String) (clientName : Option String) : Relay :=
  let (member, router) := relay.router.join cluster relay.options.outboundQueue
  let session := link.session.completeHandshake cluster clientName member
  { relay with router }.writeOrEnd { link with session } (.welcome link.name)

/-- Deals with the first message on a link. -/
def openSession (relay : Relay) (link : Link) (message : Message) : Relay :=
  match message.envelope, openingFault? message with
  | .close _, _ => relay.closeLink link
  | .hello _ cluster clientName, none => relay.letIn link cluster clientName
  | _, some error => relay.refuse link error
  | _, none => relay

/-- How long a request is given that asks for so many milliseconds: at least one. -/
def timeoutOfWire (milliseconds : UInt64) : Duration := .ofMillis (max milliseconds.toNat 1)

/-- Deals with a message of a session that has joined its cluster as `member`. -/
def routeMessage (relay : Relay) (link : Link) (member : MemberId) (message : Message)
    (now : Instant) : Relay :=
  match message.envelope with
  | .request id cluster timeoutMs =>
      let relay := relay.setLink { link with session := link.session.recordRequest }
      { relay with
        router := relay.router.routeRequest member id cluster (timeoutOfWire timeoutMs)
          message.payload now }
  | .reply _ | .errorReply _ _ =>
      let relay := relay.setLink { link with session := link.session.recordReply }
      { relay with router := relay.router.routeReply member message }
  | .close _ => relay.closeLink link
  | other =>
      relay.writeOrEnd link
        (.errorReply .none .badRequest s!"unexpected {other.kind.name} after handshake")

/-- Deals with a message. -/
def handle (relay : Relay) (link : Link) (message : Message) (now : Instant) : Relay :=
  match link.session.member with
  | none => relay.openSession link message
  | some member => relay.routeMessage link member message now

/-! ## Steps of a link -/

/-- Bytes arrive on a link that waits. -/
def receive (relay : Relay) (id : LinkId) (data : ByteArray) (now : Instant) : Relay :=
  match relay.link? id with
  | some link =>
      if link.phase = .waiting then
        relay.setLink
          { link.touch now with phase := .reading, decoder := link.decoder.extend data }
      else relay
  | none => relay

/-- A link that deals with what it has received takes the next message, or waits again. A frame that
cannot be read is passed over, unless the stream is out of step with it. -/
def readNext (relay : Relay) (id : LinkId) (now : Instant) : Relay :=
  match relay.link? id with
  | some link =>
      if link.phase = .reading then
        match link.decoder.nextMessage with
        | (.needMore, decoder) => relay.setLink { link with phase := .waiting, decoder }
        | (.failed fault, decoder) =>
            let link := { link with decoder }
            if fault.isRecoverable then (relay.setLink link).countError else relay.endLink link true
        | (.item message, decoder) =>
            let counted := relay.count fun stats =>
              { stats with messagesReceived := stats.messagesReceived + 1 }
            counted.handle { link with decoder } message now
      else relay
  | none => relay

/-- A link that waits finds the end of the stream, or finds it broken. -/
def receiveEnd (relay : Relay) (id : LinkId) (broken : Bool) : Relay :=
  match relay.link? id with
  | some link => if link.phase = .waiting then relay.endLink link broken else relay
  | none => relay

/-- A link that waits writes the first message of its outbox. -/
def forward (relay : Relay) (id : LinkId) (now : Instant) : Relay :=
  match relay.link? id with
  | some link =>
      match link.phase, link.session.member with
      | .waiting, some member =>
          match relay.router.drain member (some 1) with
          | (some [message], router) => { relay with router }.writeOrEnd (link.touch now) message
          | _ => relay
      | _, _ => relay
  | none => relay

/-- What a client hears whose session has been idle for too long. -/
def idleTimeout : Message := .close (some "idle timeout")

/-- A link that waits ends if nothing came or went for too long. -/
def endIdle (relay : Relay) (id : LinkId) (now : Instant) : Relay :=
  match relay.link? id with
  | some link =>
      if link.phase = .waiting && relay.options.idleTimeout ≠ .zero &&
          link.lastActive.after relay.options.idleTimeout ≤ now then
        relay.endLink (link.tryWrite idleTimeout) false
      else relay
  | none => relay

/-- What clients hear at the end of a relay. -/
def shuttingDown : Message := .close (some "relay shutting down")

/-- A link that waits takes notice of the end of the relay. -/
def heedEnd (relay : Relay) (id : LinkId) : Relay :=
  match relay.link? id with
  | some link =>
      if link.phase = .waiting && link.isNotified then
        relay.endLink { link.tryWrite shuttingDown with isNotified := false } true
      else relay
  | none => relay

/-- The client of a link stops taking what is written to it. -/
def blockWrites (relay : Relay) (id : LinkId) : Relay :=
  match relay.link? id with
  | some link => relay.setLink { link with isWritable := false }
  | none => relay

/-- While it runs, the relay forgets the routes whose deadline has passed. -/
def sweep (relay : Relay) (now : Instant) : Relay :=
  if relay.isRunning then { relay with router := (relay.router.sweep now).2 } else relay

/-! ## Going on -/

/-- How many messages wait in the outbox of a link. -/
def outboxSize (relay : Relay) (link : Link) : Nat :=
  match link.session.member.bind relay.router.outbox? with
  | some outbox => outbox.queued.length
  | none => 0

/-- What a link does next when it has something at hand: it deals with what it has received, and
then writes what is in its outbox. -/
def advanceLink? (relay : Relay) (now : Instant) (link : Link) : Option Relay :=
  match link.phase with
  | .reading => some (relay.readNext link.id now)
  | .waiting => if relay.outboxSize link = 0 then none else some (relay.forward link.id now)
  | .ended => none

/-- The links go on while any of them has something at hand, at most `count` times. -/
def advanceTimes (now : Instant) : Nat → Relay → Relay
  | 0, relay => relay
  | count + 1, relay =>
      match relay.links.findSome? (relay.advanceLink? now) with
      | none => relay
      | some relay => advanceTimes now count relay

/-- How much there is to do at most: each frame that was received is taken, may open a route, and
may put a message into an outbox; each route may be reported as lost. -/
def workLeft (relay : Relay) : Nat :=
  let withLink (total : Nat) (link : Link) :=
    total + 3 * (link.decoder.buffered + 1) + relay.outboxSize link
  relay.links.foldl withLink (2 * relay.router.routeCount)

/-- The links go on until none of them has anything at hand. -/
def settle (relay : Relay) (now : Instant) : Relay := relay.advanceTimes now (relay.workLeft + 1)

end Relay

end Switchboard
