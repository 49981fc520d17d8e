import Switchboard.Client.Connection
import Switchboard.Client.Opening

/-!
# Rehearsals

A connection played against a partner that does what it is told, over a stream that holds a limited
number of bytes on its way to the partner, and on a clock that moves only when it is told to. After
each cue everybody goes on until nobody can: first the reader takes all that has arrived, then
callers look after their calls, handlers answer, the writer writes, and the partner, unless it is
stalled, reads.
-/

namespace Switchboard

/-- The other end of the stream. -/
structure Partner where
  decoder : Decoder := .new
  /-- It does not read for the time being. -/
  stalled : Bool := false
  /-- It has ended its sending direction. -/
  silent : Bool := false
  /-- It is gone, and both directions with it. -/
  gone : Bool := false
  /-- It has read to the end of the stream. -/
  sawEnd : Bool := false

/-- How far a client has come. -/
inductive ClientPhase where
  | opening (attempt : Opening)
  | joined (conn : Connection)
  | failed (error : ClientError)

/-- What is told to the partner, the callers, the clock or the owner. -/
inductive Cue where
  /-- The partner sends these pieces, one after the other. -/
  | send (pieces : List ByteArray)
  /-- The partner ends its sending direction. -/
  | fallSilent
  /-- The partner goes away. -/
  | leave
  /-- The partner stops reading. -/
  | stall
  /-- The partner goes on reading. -/
  | resume
  /-- A caller begins a call under a name. -/
  | request (name cluster : String) (payload : ByteArray) (timeout : Duration)
  /-- The caller gives that call up. -/
  | abandon (name : String)
  /-- Time passes. -/
  | advance (d : Duration)
  /-- The owner closes the connection. -/
  | close

/-- A call that has ended: its name and its result. -/
structure NamedResult where
  name : String
  result : Except ClientError ByteArray

/-- A client, its partner, and the stream between them. -/
structure Rehearsal where
  options : ConnectionOptions
  cluster : String
  handler : Handler
  /-- How many bytes fit into the stream on their way to the partner. -/
  capacity : Nat
  clock : Instant := 0
  client : ClientPhase
  partner : Partner := {}
  /-- Bytes on their way to the partner. -/
  outbound : ByteArray := ByteArray.empty
  /-- Bytes on their way to the client. -/
  inbound : ByteArray := ByteArray.empty
  names : List (String × CallKey) := []
  /-- What the partner has read since the last look. -/
  got : List Message := []
  /-- Whether it came to the end of the stream since then. -/
  ended : Bool := false
  /-- The calls that have ended since then. -/
  finished : List NamedResult := []
  /-- How many losses of the connection had been seen by then. -/
  seenLosses : Nat := 0

namespace Rehearsal

/-- The connection, once there is one. -/
def connection? (r : Rehearsal) : Option Connection :=
  match r.client with
  | .joined conn => some conn
  | _ => none

/-- Puts the connection into another state. -/
def setConnection (r : Rehearsal) (conn : Connection) : Rehearsal :=
  { r with client := .joined conn }

/-- Applies a step to the connection, if there is one. -/
def onConnection (r : Rehearsal) (step : Connection → Connection) : Rehearsal :=
  match r.client with
  | .joined conn => r.setConnection (step conn)
  | _ => r

/-- Whether the client has ended its sending direction. -/
def outboundEnded (r : Rehearsal) : Bool :=
  match r.client with
  | .opening _ => false
  | .joined conn => conn.writer = .ended
  | .failed _ => true

/-! ## The stream -/

/-- The partner reads what is on its way to it. -/
def partnerReads (r : Rehearsal) : Rehearsal :=
  if r.partner.stalled || r.partner.gone then r
  else
    let (outcomes, decoder) := (r.partner.decoder.extend r.outbound).drain
    let messages := outcomes.filterMap fun
      | .item message => some message
      | _ => none
    let atEnd := r.outboundEnded && !r.partner.sawEnd
    { r with
      outbound := ByteArray.empty
      partner := { r.partner with decoder, sawEnd := r.partner.sawEnd || atEnd }
      got := r.got ++ messages
      ended := r.ended || atEnd }

/-- Bytes go on their way to the partner. -/
def transmit (r : Rehearsal) (bytes : ByteArray) : Rehearsal :=
  { r with outbound := r.outbound ++ bytes }.partnerReads

/-- What a client finds that writes to a partner that is gone. -/
def unread : TransportFault := .host .brokenPipe

/-- The client writes, if it can: the opening message, or whatever the writer has at hand. -/
def writeOnce (r : Rehearsal) : Option Rehearsal :=
  let room := r.capacity - r.outbound.size
  match r.client with
  | .opening attempt =>
      if attempt.isWritten then none
      else if r.partner.gone then some { r with client := .failed (.transport unread) }
      else if room = 0 then none
      else
        let (bytes, attempt) := attempt.write room
        some ({ r with client := .opening attempt }.transmit bytes)
  | .joined conn =>
      match conn.writer with
      | .idle => if conn.queue.items.isEmpty then none else some (r.setConnection conn.takeItem)
      | .ended => none
      | _ =>
          if r.partner.gone then some (r.setConnection (conn.writeFault unread))
          else if room = 0 then none
          else
            let (bytes, conn) := conn.write room
            some ((r.setConnection conn).transmit bytes)
  | .failed _ => none

/-- The client writes until it cannot, at most `count` times. -/
def writeTimes : Nat → Rehearsal → Rehearsal
  | 0, r => r
  | count + 1, r =>
      match r.writeOnce with
      | none => r
      | some r => writeTimes count r

/-- How many bytes a writer and its queue hold, with one more for each item. -/
def workLeft (conn : Connection) : Nat :=
  let current := match conn.writer with
    | .writing frame _ | .parting frame _ => frame.size + 1
    | _ => 0
  let withItem (total : Nat) : WriteItem → Nat
    | .frame bytes | .shutdown (some bytes) => total + bytes.size + 1
    | .shutdown none => total + 1
  let withWaiter (total : Nat) (waiter : Waiter) := total + waiter.frame.size + 1
  conn.queue.line.foldl withWaiter (conn.queue.items.foldl withItem current)

/-- The client writes until it cannot. Each time it writes a byte or takes an item. -/
def write (r : Rehearsal) : Rehearsal :=
  match r.client with
  | .opening attempt => r.writeTimes (attempt.hello.size + 1)
  | .joined conn => r.writeTimes (workLeft conn + 1)
  | .failed _ => r

/-- The reader takes what has arrived, and then the end of the stream, if it has come. -/
def read (r : Rehearsal) : Rehearsal :=
  let atEnd := r.partner.silent || r.partner.gone
  let taken := { r with inbound := ByteArray.empty }
  let receive (conn : Connection) (data : ByteArray) : Connection :=
    let conn := conn.receive data
    if atEnd then conn.receiveEnd else conn
  match r.client with
  | .opening attempt =>
      if attempt.isWritten then
        match attempt.receive r.inbound with
        | .accepted connectionId decoder =>
            let conn := Connection.new r.options r.cluster connectionId decoder
            taken.setConnection (receive conn ByteArray.empty)
        | .failed error => { taken with client := .failed error }
        | .pending attempt =>
            if atEnd then { taken with client := .failed .connectionClosed }
            else { taken with client := .opening attempt }
      else r
  | .joined conn => taken.setConnection (receive conn r.inbound)
  | .failed _ => r

/-! ## Going on -/

/-- The callers look after their calls. -/
def pollCalls (r : Rehearsal) : Rehearsal :=
  match r.client with
  | .joined conn =>
      let (ended, conn) := conn.pollAll r.clock
      let keys := ended.map Connection.Finished.key
      let results := ended.filterMap fun call =>
        (r.names.find? fun entry => entry.2 = call.key).map fun entry =>
          NamedResult.mk entry.1 call.result
      { r.setConnection conn with
        names := r.names.filter fun entry => !keys.contains entry.2
        finished := r.finished ++ results }
  | _ => r

/-- Everybody goes on until nobody can. -/
def settle (r : Rehearsal) : Rehearsal :=
  let r := match r.client with
    | .opening _ => r.write
    | _ => r
  let r := r.read.pollCalls.onConnection fun conn => conn.completeAll r.handler
  r.write.partnerReads.pollCalls

/-- What passes by unnoticed while everybody goes on. A wait that lasts no longer is over by
then. -/
def moment : Duration := .ofMillis 1

/-- Time passes. Calls whose time is over end. -/
def passTime (r : Rehearsal) (d : Duration) : Rehearsal :=
  { r with clock := r.clock.after d }.pollCalls

/-- The caller of the given name gives its call up. -/
def abandonCall (r : Rehearsal) (name : String) : Rehearsal :=
  match r.names.lookup name with
  | none => r
  | some key =>
      { r.onConnection (·.abandon key) with names := r.names.filter fun entry => entry.1 ≠ name }

/-- A caller begins a call, in place of one of the same name. -/
def beginCall (r : Rehearsal) (name cluster : String) (payload : ByteArray) (timeout : Duration) :
    Rehearsal :=
  let r := r.abandonCall name
  match r.client with
  | .joined conn =>
      match conn.request cluster payload timeout r.clock with
      | (.refused error, conn) =>
          { r.setConnection conn with finished := r.finished ++ [⟨name, .error error⟩] }
      | (.started key, conn) => { r.setConnection conn with names := (name, key) :: r.names }
      | (.exhausted, conn) => r.setConnection conn
  | _ => r

/-- A call that waits no longer than a moment ends as soon as nobody can go on. -/
def endMomentary (r : Rehearsal) (timeout : Duration) : Rehearsal :=
  if timeout.nanos ≤ moment.nanos then
    let later := { r with clock := r.clock.after timeout }.pollCalls
    { later with clock := r.clock }
  else r

/-- The owner closes the connection, and gives up on a writer that does not end in time. -/
def closeConnection (r : Rehearsal) : Rehearsal :=
  match r.client with
  | .joined conn =>
      let (waits, conn) := conn.close
      let r := (r.setConnection conn).settle
      if waits && !r.outboundEnded then
        ((r.passTime Connection.closeLinger).onConnection Connection.endWriter).settle
      else r
  | _ => r

/-- Follows a cue, and lets everybody go on. -/
def perform (r : Rehearsal) : Cue → Rehearsal
  | .send pieces =>
      if r.partner.silent || r.partner.gone then r.settle
      else
        (pieces.foldl (fun r piece => { r with inbound := r.inbound ++ piece }.read) r).settle
  | .fallSilent => { r with partner := { r.partner with silent := true } }.settle
  | .leave => { r with partner := { r.partner with gone := true } }.settle
  | .stall => { r with partner := { r.partner with stalled := true } }.settle
  | .resume => { r with partner := { r.partner with stalled := false } }.partnerReads.settle
  | .request name cluster payload timeout =>
      ((r.beginCall name cluster payload timeout).settle).endMomentary timeout
  | .abandon name => (r.abandonCall name).settle
  | .advance d => (r.passTime d).settle
  | .close => r.closeConnection

/-- Before the client starts. A client that cannot write its opening message has failed already. -/
def prepare (options : ConnectionOptions) (cluster : String) (handler : Handler) (capacity : Nat) :
    Rehearsal :=
  { options, cluster, handler, capacity
    client := match Opening.start cluster options.clientName with
      | .ok attempt => .opening attempt
      | .error error => .failed error }

/-- The client gives up waiting to be accepted. -/
def giveUpOpening (r : Rehearsal) : Rehearsal :=
  match r.client with
  | .opening _ => { r with client := .failed .connectTimeout }.settle
  | _ => r

/-- Opens the connection while the partner follows `cues`. A partner that leaves first is gone
before the client starts. A client that has no answer behind the last cue waits in vain. -/
def openWith (r : Rehearsal) (cues : List Cue) : Rehearsal :=
  let (r, cues) := match cues with
    | .leave :: cues => ({ r with partner := { r.partner with gone := true } }, cues)
    | cues => (r, cues)
  let r := r.settle
  let r := if r.options.connectTimeout.nanos ≤ moment.nanos then r.giveUpOpening else r
  (cues.foldl perform r).giveUpOpening

/-- All callers give up, and the owner drops the connection. -/
def finish (r : Rehearsal) : Rehearsal :=
  let r := r.names.foldl (fun r entry => r.abandonCall entry.1) r
  (r.onConnection Connection.drop).settle

/-- What can be seen at a look. -/
structure Observation where
  got : List Message
  ended : Bool
  finished : List NamedResult
  pending : Nat
  connected : Bool
  losses : List ClientError

/-- Looks at what has happened since the last look. -/
def look (r : Rehearsal) : Observation × Rehearsal :=
  let losses := (r.connection?.map Connection.losses).getD []
  ({ got := r.got
     ended := r.ended
     finished := r.finished
     pending := (r.connection?.map Connection.pendingCount).getD 0
     connected := (r.connection?.map Connection.connected).getD false
     losses := losses.drop r.seenLosses },
    { r with got := [], ended := false, finished := [], seenLosses := losses.length })

end Rehearsal

end Switchboard
