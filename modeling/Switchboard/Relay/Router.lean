import Switchboard.Duration
import Switchboard.Relay.Outbox

/-!
# Routing

A router knows the members of each cluster and passes requests to them in turn. A request travels
under the number of its route, so that numbers chosen by different members never meet; the answer
finds its way back through the route, which remembers who asked and under which number. Each route
is answered at most once, and only by the member that was asked.
-/

namespace Switchboard

/-- Counts of what a router has done. -/
structure RouterStats where
  /-- Requests passed to a member. -/
  requestsRouted : Nat := 0
  /-- Answers passed back to whoever asked. -/
  repliesRouted : Nat := 0
  /-- Requests answered with an error by the router itself. -/
  requestsRejected : Nat := 0
  /-- Answers that reached nobody. -/
  repliesDropped : Nat := 0
  /-- Routes given up after their deadline. -/
  routesExpired : Nat := 0
deriving DecidableEq, Repr

/-- A registered member. -/
structure Member where
  id : MemberId
  cluster : String
deriving DecidableEq, Repr

/-- The members of one cluster in the order in which they joined, and how many have been picked. -/
structure Roster where
  cluster : String
  ids : List MemberId
  picks : UInt64 := 0
deriving DecidableEq, Repr

namespace Roster

/-- The member whose turn it is. -/
def current? (roster : Roster) : Option MemberId :=
  roster.ids[roster.picks.toNat % roster.ids.length]?

/-- The turn passes to the next member. -/
def advance (roster : Roster) : Roster := { roster with picks := roster.picks + 1 }

/-- Adds a member at the end. -/
def add (roster : Roster) (member : MemberId) : Roster :=
  { roster with ids := roster.ids ++ [member] }

/-- Removes a member. The count of picks stays. -/
def remove (roster : Roster) (member : MemberId) : Roster :=
  { roster with ids := roster.ids.filter (· ≠ member) }

end Roster

/-- A request that is being served: who asked, under which number, who was asked, and until when the
router remembers it. -/
structure Route where
  id : RequestId
  origin : MemberId
  originId : RequestId
  target : MemberId
  deadline : Instant
deriving DecidableEq, Repr

/-- Whether a route begins or ends at a member. -/
def Route.touches (route : Route) (id : MemberId) : Bool :=
  route.origin == id || route.target == id

/-- The members, their clusters and outboxes, and the requests that are being served. An outbox
outlives the membership of its reader. -/
structure Router where
  members : List Member := []
  rosters : List Roster := []
  outboxes : List Outbox := []
  routes : List Route := []
  nextMember : MemberId := 1
  nextRoute : UInt64 := 1
  stats : RouterStats := {}
deriving DecidableEq

namespace Router

/-- How long a route is remembered at most. -/
def maxRouteLifetime : Duration := .ofSecs (24 * 60 * 60)

/-- A router without members. -/
def new : Router := {}

/-! ## Looking up -/

/-- The registered member of the given number. -/
def member? (router : Router) (id : MemberId) : Option Member :=
  router.members.find? fun member => member.id = id

/-- The members of a cluster that has any. -/
def roster? (router : Router) (cluster : String) : Option Roster :=
  router.rosters.find? fun roster => roster.cluster = cluster

/-- The outbox of a member, also of one that has left. -/
def outbox? (router : Router) (id : MemberId) : Option Outbox :=
  router.outboxes.find? fun outbox => outbox.member = id

/-- The route of the given number. -/
def route? (router : Router) (id : RequestId) : Option Route :=
  router.routes.find? fun route => route.id = id

/-- How many members a cluster has. -/
def memberCount (router : Router) (cluster : String) : Nat :=
  ((router.roster? cluster).map fun roster => roster.ids.length).getD 0

/-- How many requests are being served. -/
def routeCount (router : Router) : Nat := router.routes.length

/-! ## Changing one part -/

/-- Applies `change` to the counts. -/
def count (router : Router) (change : RouterStats → RouterStats) : Router :=
  { router with stats := change router.stats }

/-- Counts an answer that reached nobody. -/
def countDropped (router : Router) : Router :=
  router.count fun stats => { stats with repliesDropped := stats.repliesDropped + 1 }

/-- Puts another outbox in the place of the one with its member. -/
def setOutbox (router : Router) (outbox : Outbox) : Router :=
  { router with
    outboxes := router.outboxes.map fun old =>
      if old.member = outbox.member then outbox else old }

/-- Puts another roster in the place of the one with its cluster. -/
def setRoster (router : Router) (roster : Roster) : Router :=
  { router with
    rosters := router.rosters.map fun old =>
      if old.cluster = roster.cluster then roster else old }

/-- Forgets the route of the given number. -/
def eraseRoute (router : Router) (id : RequestId) : Router :=
  { router with routes := router.routes.filter fun route => route.id ≠ id }

/-! ## Outboxes -/

/-- Puts a message into the outbox of a registered member. -/
def push (router : Router) (id : MemberId) (message : Message) : Except Undelivered Router :=
  match router.member? id, router.outbox? id with
  | some _, some outbox => (outbox.push message).map router.setOutbox
  | _, _ => .error (.gone id)

/-- Puts an answer into the outbox of a member, and counts it as dropped where that fails. Returns
whether it was put there. -/
def deliver (router : Router) (id : MemberId) (message : Message) : Bool × Router :=
  match router.push id message with
  | .ok router => (true, router)
  | .error _ => (false, router.countDropped)

/-- Takes at most `limit` messages out of the outbox of a member, or all that are there. None if the
member never had one or nobody reads it. -/
def drain (router : Router) (id : MemberId) (limit : Option Nat) : Option (List Message) × Router :=
  match router.outbox? id with
  | none => (none, router)
  | some outbox =>
      if outbox.isRead then
        let count := limit.getD outbox.queued.length
        (some (outbox.queued.take count), router.setOutbox (outbox.drop count))
      else (none, router)

/-- The reader of a member's outbox goes away. The member stays registered. -/
def hangUp (router : Router) (id : MemberId) : Router :=
  match router.outbox? id with
  | none => router
  | some outbox => router.setOutbox outbox.hangUp

/-! ## Membership -/

/-- Registers a member of `cluster` whose outbox holds at most `capacity` messages. -/
def join (router : Router) (cluster : String) (capacity : Nat) : MemberId × Router :=
  let id := router.nextMember
  let rosters := match router.roster? cluster with
    | some roster => (router.setRoster (roster.add id)).rosters
    | none => router.rosters ++ [{ cluster, ids := [id] }]
  (id,
    { router with
      members := router.members ++ [⟨id, cluster⟩]
      outboxes := router.outboxes ++ [{ member := id, capacity }]
      rosters
      nextMember := id + 1 })

/-- Takes a member off the registry and off its cluster. A cluster without members is forgotten,
together with its count of picks. -/
def unregister (router : Router) (member : Member) : Router :=
  { router with
    members := router.members.filter fun other => other.id ≠ member.id
    rosters := (router.rosters.map fun roster =>
      if roster.cluster = member.cluster then roster.remove member.id else roster).filter
        fun roster => roster.cluster ≠ member.cluster ∨ roster.ids ≠ [] }

/-- What the origin of a route hears when the member it was passed to leaves. -/
def memberLost (route : Route) : Message :=
  .errorReply route.originId .memberLost "serving member disconnected"

/-- Tells the origins of the routes that the member they were passed to has left. -/
def reportLost (router : Router) (routes : List Route) : Router :=
  routes.foldl (fun router route => (router.deliver route.origin (memberLost route)).2) router

/-- Removes a member. The requests it was serving fail at their origins, the requests it made itself
are forgotten. Returns the number of routes that are gone. -/
def leave (router : Router) (id : MemberId) : Nat × Router :=
  match router.member? id with
  | none => (0, router)
  | some member =>
      let (gone, kept) := router.routes.partition (Route.touches · id)
      let orphaned := gone.filter fun route => route.target = id ∧ route.origin ≠ id
      (gone.length, { router.unregister member with routes := kept }.reportLost orphaned)

/-! ## Requests and answers -/

/-- Answers a request with an error of the router's own. -/
def reject (router : Router) (origin : MemberId) (id : RequestId) (code : ErrorCode)
    (text : String) : Router :=
  let counted := router.count fun stats =>
    { stats with requestsRejected := stats.requestsRejected + 1 }
  (counted.deliver origin (.errorReply id code text)).2

/-- The member whose turn it is in a cluster. The turn passes on. -/
def pick (router : Router) (cluster : String) : Option MemberId × Router :=
  match router.roster? cluster with
  | none => (none, router)
  | some roster => (roster.current?, router.setRoster roster.advance)

/-- Opens a route to a member. The router remembers it until the timeout has passed, or for the
longest lifetime of a route. -/
def openRoute (router : Router) (origin : MemberId) (originId : RequestId) (target : MemberId)
    (deadline : Instant) : Route × Router :=
  let route : Route := { id := ⟨router.nextRoute⟩, origin, originId, target, deadline }
  (route, { router with routes := router.routes ++ [route], nextRoute := router.nextRoute + 1 })

/-- Passes a request to the member of `cluster` whose turn it is. Where that fails, the member that
asked is answered with an error instead. -/
def routeRequest (router : Router) (origin : MemberId) (id : RequestId) (cluster : String)
    (timeout : Duration) (payload : ByteArray) (now : Instant) : Router :=
  match router.pick cluster with
  | (none, router) => router.reject origin id .noMembers s!"no members in cluster {cluster}"
  | (some target, router) =>
      let deadline := now.after (timeout.atMost maxRouteLifetime)
      let (route, router) := router.openRoute origin id target deadline
      match router.push target (.request route.id cluster timeout.wireMillis payload) with
      | .ok router =>
          router.count fun stats => { stats with requestsRouted := stats.requestsRouted + 1 }
      | .error fault =>
          (router.eraseRoute route.id).reject origin id .internalError fault.text

/-- The answer that a message brings to the request numbered `id`, if it brings one. -/
def answerTo (id : RequestId) (message : Message) : Option Message :=
  match message.envelope with
  | .reply _ => some (.reply id message.payload)
  | .errorReply _ error => some (.errorReply id error.code error.message)
  | _ => none

/-- Answers the origin of a route, if the message brings an answer. -/
def answer (router : Router) (route : Route) (message : Message) : Router :=
  match answerTo route.originId message with
  | none => router
  | some reply =>
      match router.deliver route.origin reply with
      | (true, router) =>
          router.count fun stats => { stats with repliesRouted := stats.repliesRouted + 1 }
      | (false, router) => router

/-- Passes an answer from the member `sender` back to whoever asked, and closes the route. A message
that quotes no route, or one that was not passed to the sender, reaches nobody. -/
def routeReply (router : Router) (sender : MemberId) (message : Message) : Router :=
  match message.envelope.requestId? with
  | none => router
  | some id =>
      match router.route? id with
      | none => router.countDropped
      | some route =>
          if route.target = sender then (router.eraseRoute id).answer route message
          else router.countDropped

/-- Forgets the routes whose deadline has passed. Returns their number. -/
def sweep (router : Router) (now : Instant) : Nat × Router :=
  let (kept, expired) := router.routes.partition fun route => now < route.deadline
  (expired.length,
    { router with routes := kept }.count fun stats =>
      { stats with routesExpired := stats.routesExpired + expired.length })

end Router

end Switchboard
