import Switchboard.Relay.Basic

/-!
# Rehearsals of a relay

A relay played against clients that are told what to send, on a clock that moves only as far as a
step needs. After each step the relay goes on until nothing is at hand.
-/

namespace Switchboard

/-- A client as the rehearsal knows it. -/
structure Caller where
  name : String
  link : LinkId
  /-- How many of the relay's messages it had read at the last look. -/
  seen : Nat := 0
  /-- Whether it still reads. -/
  isReading : Bool := true
  /-- Whether it still sends. -/
  isSending : Bool := true
  /-- Whether it has read to the end of its stream. -/
  sawEnd : Bool := false

/-- What a client is told to do, or the relay. -/
inductive RelayCue where
  /-- A client connects under a name. -/
  | connect (name : String)
  /-- A client sends pieces. If a number is given, time passes until that many routes have been
  forgotten in all. -/
  | send (name : String) (pieces : List ByteArray) (expired : Option Nat)
  /-- A client goes away. -/
  | hangUp (name : String)
  /-- A client ends its sending direction. -/
  | fallSilent (name : String)
  /-- A client breaks its stream. -/
  | reset (name : String)
  /-- Time passes until a client has been idle for too long. -/
  | waitIdle (name : String)
  /-- The relay ends. -/
  | shutdown
deriving Inhabited

/-- A relay, its clients, and the clock. -/
structure RelayRehearsal where
  host : Host
  relay : Relay
  callers : List Caller := []
  clock : Instant := 0

namespace RelayRehearsal

/-- A relay that runs and has no clients. -/
def start (host : Host) (options : RelayOptions) : RelayRehearsal :=
  { host, relay := (Relay.new options).start }

/-- The client of the given name. -/
def caller? (r : RelayRehearsal) (name : String) : Option Caller :=
  r.callers.find? fun caller => caller.name = name

/-- Applies a change to the client of the given name. -/
def change (r : RelayRehearsal) (name : String) (f : Caller → Caller) : RelayRehearsal :=
  { r with callers := r.callers.map fun caller => if caller.name = name then f caller else caller }

/-- Applies a step to the relay, and lets it go on. -/
def onRelay (r : RelayRehearsal) (step : Relay → Relay) : RelayRehearsal :=
  { r with relay := (step r.relay).settle r.clock }

/-- The name under which every session is welcomed. -/
def sessionName : String := "<uuid>"

/-- Where every client connects from. -/
def remote : SocketAddress := .v4 .loopback 0

/-- Time passes until `count` routes have been forgotten in all, in at most as many steps as there
are routes. -/
def expire (count : Nat) : Nat → RelayRehearsal → RelayRehearsal
  | 0, r => r
  | steps + 1, r =>
      match (r.relay.router.routes.map Route.deadline).min? with
      | none => r
      | some due =>
          if count ≤ r.relay.router.stats.routesExpired then r
          else
            let r := { r with clock := max r.clock due }
            expire count steps (r.onRelay (·.sweep r.clock))

/-- The links whose idle time is over end. -/
def endIdle (r : RelayRehearsal) : RelayRehearsal :=
  r.relay.links.foldl (fun r link => r.onRelay (·.endIdle link.id r.clock)) r

/-- The links take notice of the end of the relay. -/
def heedEnd (r : RelayRehearsal) : RelayRehearsal :=
  r.relay.links.foldl (fun r link => r.onRelay (·.heedEnd link.id)) r

/-- A client that still sends does so. -/
def ifSending (r : RelayRehearsal) (name : String) (f : Caller → RelayRehearsal) :
    RelayRehearsal :=
  match r.caller? name with
  | some caller => if caller.isSending then f caller else r
  | none => r

/-- Follows a cue. It fails where a client cannot connect. -/
def perform (r : RelayRehearsal) : RelayCue → Except HostFault RelayRehearsal
  | .connect name => do
      r.host.reach r.relay.isRunning
      let (link, relay) := r.relay.accept sessionName remote r.clock
      return { r with relay, callers := r.callers ++ [{ name, link }] }
  | .send name pieces expired =>
      let sent := r.ifSending name fun caller =>
        pieces.foldl (fun r piece => r.onRelay (·.receive caller.link piece r.clock)) r
      .ok <| match expired with
        | some count => sent.expire count sent.relay.router.routeCount
        | none => sent
  | .hangUp name =>
      .ok <| (r.ifSending name fun caller => r.onRelay (·.receiveEnd caller.link false)).change name
        fun caller => { caller with isSending := false, isReading := false }
  | .fallSilent name =>
      .ok <| (r.ifSending name fun caller => r.onRelay (·.receiveEnd caller.link false)).change name
        fun caller => { caller with isSending := false }
  | .reset name =>
      .ok <| (r.ifSending name fun caller => r.onRelay (·.receiveEnd caller.link true)).change name
        fun caller => { caller with isSending := false, isReading := false }
  | .waitIdle name =>
      .ok <| match (r.caller? name).bind fun caller => r.relay.link? caller.link with
        | some link =>
            let due := link.lastActive.after r.relay.options.idleTimeout
            { r with clock := max r.clock due }.endIdle
        | none => r
  | .shutdown => .ok { r with relay := r.relay.announceEnd.stop }.heedEnd

/-- What the clients have read since the last look, and the names of those that have come to the end
of their streams since then. -/
structure Observation where
  received : List (String × List Message)
  ended : List String

/-- Looks at what the clients have read. -/
def look (r : RelayRehearsal) : Observation × RelayRehearsal :=
  let sees (caller : Caller) := if caller.isReading then r.relay.link? caller.link else none
  let fresh (caller : Caller) := (sees caller).elim [] fun link => link.sent.drop caller.seen
  let atEnd (caller : Caller) :=
    !caller.sawEnd && (sees caller).any fun link => link.phase = .ended
  ({ received := (r.callers.map fun caller => (caller.name, fresh caller)).filter (·.2 ≠ [])
     ended := (r.callers.filter atEnd).map Caller.name },
    { r with
      callers := r.callers.map fun caller =>
        { caller with
          seen := caller.seen + (fresh caller).length
          sawEnd := caller.sawEnd || atEnd caller } })

end RelayRehearsal

end Switchboard
