import Mathlib.Data.List.Pairwise
import Switchboard.Network.Basic
import Switchboard.Proofs.Connection.Run
import Switchboard.Proofs.Relay.Standing

/-!
# Runs of a network

A run is any sequence of steps of clients, of the relay, and of the streams between them: calls
begin, are looked after and given up, bytes go on their way and arrive in any portions, handlers
come to their ends in any order, clients and streams break off at any point, and time passes. What
happens to calls on the way is recorded as a list of events (`Network.trace`).
-/

namespace Switchboard

/-! ## What happens to calls -/

/-- What happens to calls in a network. Clients are named by their links. -/
inductive Event where
  /-- A call begins, and its request is given a number. -/
  | called (caller : LinkId) (key : CallKey) (id : RequestId) (cluster : String)
      (payload : ByteArray)
  /-- The relay passes a request on under the number of a route. The crew are the clients that are
  members of the cluster then. -/
  | routed (caller : LinkId) (id : RequestId) (cluster : String) (payload : ByteArray)
      (route : RequestId) (target : LinkId) (crew : List LinkId)
  /-- A handler is invoked. -/
  | invoked (target : LinkId) (service : Service)
  /-- A handler is done. -/
  | completed (target : LinkId) (service : Service) (result : HandlerResult)
  /-- A call ends. -/
  | returned (caller : LinkId) (key : CallKey) (result : Except ClientError ByteArray)
deriving DecidableEq

/-- What is named by an event, and by no other. -/
inductive Mark where
  | call (caller : LinkId) (key : CallKey)
  | number (caller : LinkId) (id : RequestId)
  /-- The routing of the request of a number. -/
  | request (caller : LinkId) (id : RequestId)
  | route (id : RequestId)
  | service (target : LinkId) (key : Nat)
  /-- The invocation for the request of a number. -/
  | passed (target : LinkId) (id : RequestId)
  | completion (target : LinkId) (key : Nat)
  | result (caller : LinkId) (key : CallKey)
deriving DecidableEq

/-- What an event names. -/
def Event.marks : Event → List Mark
  | called caller key id _ _ => [.call caller key, .number caller id]
  | routed caller id _ _ route _ _ => [.request caller id, .route route]
  | invoked target service => [.service target service.key, .passed target service.id]
  | completed target service _ => [.completion target service.key]
  | returned caller key _ => [.result caller key]

/-- All that is named in a log. -/
def marks (log : List Event) : List Mark := log.flatMap Event.marks

theorem marks_append (log new : List Event) : marks (log ++ new) = marks log ++ marks new :=
  List.flatMap_append

theorem mem_marks_append {log new : List Event} {mark : Mark} :
    mark ∈ marks (log ++ new) ↔ mark ∈ marks log ∨ mark ∈ marks new := by
  rw [marks_append, List.mem_append]

theorem mem_marks {log : List Event} {event : Event} {mark : Mark} (h : event ∈ log)
    (hmark : mark ∈ event.marks) : mark ∈ marks log := List.mem_flatMap.2 ⟨event, h, hmark⟩

/-- Where nothing is named twice, two events that name the same are the same. -/
theorem eq_of_mark {log : List Event} (hlog : (marks log).Nodup) (mark : Mark) {a b : Event}
    (ha : a ∈ log) (hb : b ∈ log) (hmark : mark ∈ a.marks) (hmark' : mark ∈ b.marks) : a = b := by
  by_contra hne
  have hpairs := (List.nodup_flatMap.1 hlog).2
  have hsymm : Std.Symm (Function.onFun List.Disjoint Event.marks) :=
    ⟨fun _ _ h _ ha hb => h hb ha⟩
  exact hpairs.forall ha hb hne hmark hmark'

/-! ## Steps -/

namespace Relay

/-- What a relay and the tasks of its links do in their own time. -/
inductive Move where
  | start
  | announceEnd
  | stop
  | readNext (id : LinkId)
  | forward (id : LinkId)
  | endIdle (id : LinkId)
  | heedEnd (id : LinkId)
  | blockWrites (id : LinkId)
  | hangUp (member : MemberId)
  | sweep

/-- The step that a move is at an instant. -/
def Move.toStep (now : Instant) : Move → Step
  | start => .start
  | announceEnd => .announceEnd
  | stop => .stop
  | readNext id => .readNext id now
  | forward id => .forward id now
  | endIdle id => .endIdle id now
  | heedEnd id => .heedEnd id
  | blockWrites id => .blockWrites id
  | hangUp member => .hangUp member
  | sweep => .sweep now

/-- The clients that are members of a cluster, by their links. -/
def crew (relay : Relay) (cluster : String) : List LinkId :=
  (relay.links.filter fun link =>
    link.session.cluster = some cluster ∧
      ∃ roster ∈ relay.router.rosters, roster.cluster = cluster ∧
        ∃ id ∈ roster.ids, link.session.member = some id).map Link.id

/-- The link whose session is a member. -/
def host? (relay : Relay) (member : MemberId) : Option LinkId :=
  (relay.links.find? fun link => link.session.member = some member).map Link.id

/-- The message that a link takes off next, if one has arrived. -/
def upcoming? (relay : Relay) (id : LinkId) : Option Message :=
  match relay.link? id with
  | none => none
  | some link =>
      match link.decoder.nextMessage.1 with
      | .item message => some message
      | _ => none

/-- The request that has been passed on when a link took a message off: it is passed on under a
route that was not there before. -/
def routings (relay after : Relay) (id : LinkId) : List Event :=
  match relay.upcoming? id with
  | none => []
  | some message =>
      match message.envelope with
      | .request number cluster _ =>
          (after.router.routes.filter (· ∉ relay.router.routes)).filterMap fun route =>
            (relay.host? route.target).map fun target =>
              .routed id number cluster message.payload route.id target (relay.crew cluster)
      | _ => []

/-- What a step of a relay does to calls. -/
def events (relay : Relay) : Step → List Event
  | .readNext id now => relay.routings (relay.readNext id now) id
  | _ => []

end Relay

namespace Peer

/-- What a client does. -/
inductive Step where
  | write (room : Nat)
  | read (limit : Nat)
  | readEnd
  | request (cluster : String) (payload : ByteArray) (timeout : Duration)
  | poll (key : CallKey)
  | act (act : Connection.Act)

/-- The client behind a step. -/
def perform (peer : Peer) (now : Instant) : Step → Peer
  | .write room => peer.write room
  | .read limit => peer.read limit
  | .readEnd => peer.readEnd
  | .request cluster payload timeout =>
      peer.onConnection fun conn => (conn.request cluster payload timeout now).2
  | .poll key => peer.onConnection fun conn => (conn.pollBy key now).2
  | .act act => peer.onConnection fun conn => conn.act act

/-- The services that begin when a client reads. -/
def arrivals (peer : Peer) (limit : Nat) : List Service :=
  let data := peer.toClient.extract 0 limit
  match peer.phase with
  | .opening attempt =>
      if attempt.isWritten then
        match attempt.receive data with
        | .accepted connectionId decoder =>
            (Connection.new peer.options peer.cluster connectionId decoder).arrivals ByteArray.empty
        | _ => []
      else []
  | .joined conn => conn.arrivals data
  | .failed _ => []

/-- The beginning of a call whose request has been given a number. A call that fails at once has not
begun. -/
def begun (caller : LinkId) (id : RequestId) (cluster : String) (payload : ByteArray) :
    Connection.CallStart → List Event
  | .started key => [.called caller key id cluster payload]
  | .refused _ => []
  | .exhausted => []

/-- What a step of a client does to calls. -/
def events (peer : Peer) (now : Instant) : Step → List Event
  | .read limit => (peer.arrivals limit).map (.invoked peer.link)
  | .request cluster payload timeout =>
      match peer.phase with
      | .joined conn =>
          begun peer.link ⟨conn.ids.next⟩ cluster payload
            (conn.request cluster payload timeout now).1
      | _ => []
  | .poll key =>
      match peer.phase with
      | .joined conn => (conn.pollBy key now).1.toList.map (.returned peer.link key)
      | _ => []
  | .act (.complete key result) =>
      match peer.phase with
      | .joined conn =>
          (conn.service? key).toList.map fun service => .completed peer.link service result
      | _ => []
  | _ => []

/-- The number that the next request is given. -/
def nextNumber (peer : Peer) : UInt64 := (peer.connection?.map fun conn => conn.ids.next).getD 1

end Peer

namespace Network

/-- One step of somebody in a network. -/
inductive Step where
  | connect (name cluster connectionId : String) (options : ConnectionOptions)
  | client (name : String) (step : Peer.Step)
  | deliver (name : String) (count : Nat)
  | deliverEnd (name : String)
  | ship (name : String)
  | breakOff (name : String) (fault : HostFault)
  | relay (move : Relay.Move)
  /-- Time passes. -/
  | elapse (d : Duration)

/-- The network behind a step. A client connects under a name that nobody has. -/
def perform (net : Network) : Step → Network
  | .connect name cluster connectionId options =>
      if (net.peer? name).isSome then net
      else (net.connect name cluster connectionId options).toOption.getD net
  | .client name step => net.change name fun peer => peer.perform net.clock step
  | .deliver name count => net.deliver name count
  | .deliverEnd name => net.deliverEnd name
  | .ship name => net.ship name
  | .breakOff name fault => net.breakOff name fault
  | .relay move => net.onRelay fun relay => relay.perform (move.toStep net.clock)
  | .elapse d => { net with clock := net.clock.after d }

/-- The network behind a run. -/
def run (net : Network) (steps : List Step) : Network := steps.foldl perform net

/-- What a step does to calls. -/
def events (net : Network) : Step → List Event
  | .client name step => ((net.peer? name).map fun peer => peer.events net.clock step).getD []
  | .relay move => net.relay.events (move.toStep net.clock)
  | _ => []

/-- All that happens to calls in a run, in order. -/
def trace (net : Network) : List Step → List Event
  | [] => []
  | step :: steps => net.events step ++ trace (net.perform step) steps

/-! ## Counters -/

/-- The 64-bit counters of a network. -/
inductive Counter where
  /-- The numbers of members. -/
  | member
  /-- The numbers of routes. -/
  | route
  /-- The numbers that a client gives to its requests. -/
  | request (name : String)

/-- Where a counter stands. -/
def counter (net : Network) : Counter → UInt64
  | .member => net.relay.router.nextMember
  | .route => net.relay.router.nextRoute
  | .request name => ((net.peer? name).map Peer.nextNumber).getD 1

/-- How often a counter moves on along a run. It hands out a number each time, but for the one
number that is never given to a request. -/
def draws (counter : Counter) (net : Network) : List Step → Nat
  | [] => 0
  | step :: steps =>
      moves (net.counter counter) ((net.perform step).counter counter) +
        draws counter (net.perform step) steps

theorem draws_le (counter : Counter) (net : Network) (steps : List Step) :
    draws counter net steps ≤ steps.length := by
  induction steps generalizing net with
  | nil => exact Nat.le_refl 0
  | cons step steps ih =>
      have hmoved : moves (net.counter counter) ((net.perform step).counter counter) ≤ 1 := by
        unfold moves
        split <;> omega
      have hrest := ih (net.perform step)
      rw [draws, List.length_cons]
      omega

end Network

end Switchboard
