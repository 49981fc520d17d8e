import Switchboard.Proofs.Router.Outboxes

/-!
# What each operation of a router does

For each operation, what becomes of the routes and of the outboxes. A request has one of three
effects (`RequestEffect`): it is refused for want of members, it is refused because the member whose
turn it is takes no message, or it is passed on under a new route. A message in reply has one of two
(`ReplyEffect`): it reaches nobody, or it closes the route it quotes.
-/

namespace Switchboard

/-- Whether a message answers a request. -/
def Message.isAnswer (message : Message) : Bool :=
  match message.envelope with
  | .reply _ => true
  | .errorReply .. => true
  | _ => false

namespace Router

/-! ## Joining -/

@[simp] theorem routes_join (router : Router) (cluster : String) (capacity : Nat) :
    (router.join cluster capacity).2.routes = router.routes := rfl

@[simp] theorem nextRoute_join (router : Router) (cluster : String) (capacity : Nat) :
    (router.join cluster capacity).2.nextRoute = router.nextRoute := rfl

/-- A new member has nothing in its outbox, and the outboxes of others stay as they are. -/
theorem queued_join (router : Router) (cluster : String) (capacity : Nat) (id : MemberId) :
    (router.join cluster capacity).2.queued id = router.queued id := by
  have houtbox : (router.join cluster capacity).2.outbox? id = (router.outbox? id).or
      (if router.nextMember = id then some { member := router.nextMember, capacity }
        else none) := by
    show (router.outboxes ++ [_]).find? _ = _
    rw [List.find?_append]
    by_cases h : router.nextMember = id
    · simp [outbox?, h]
    · simp [outbox?, h]
  unfold queued
  rw [houtbox]
  cases router.outbox? id with
  | some outbox => rfl
  | none =>
      by_cases h : router.nextMember = id
      · simp [h]
      · simp [h]

/-! ## Leaving -/

/-- The routes whose origins hear that a member has left. -/
def lostWith (router : Router) (id : MemberId) : List Route :=
  router.routes.filter fun route => route.target = id ∧ route.origin ≠ id

theorem leave_of_not_member {router : Router} {id : MemberId} (h : router.member? id = none) :
    router.leave id = (0, router) := by
  unfold leave
  rw [h]

/-- A router that a member has just left, before the origins of its routes are told. -/
def withoutMember (router : Router) (member : Member) : Router :=
  { router.unregister member with
    routes := router.routes.filter fun route => !route.touches member.id }

theorem member?_withoutMember (router : Router) {member : Member} {other : MemberId}
    (h : other ≠ member.id) :
    (router.withoutMember member).member? other = router.member? other := by
  unfold member? withoutMember unregister
  rw [List.find?_filter]
  apply congrArg (fun p => List.find? p router.members)
  funext m
  by_cases hm : m.id = other
  · simp [hm, h]
  · simp [hm]

theorem room_withoutMember (router : Router) {member : Member} {other : MemberId}
    (h : other ≠ member.id) : (router.withoutMember member).room other = router.room other := by
  unfold room
  rw [member?_withoutMember router h]
  rfl

/-- What leaving does to a registered member: it is taken off the registry, its routes are closed,
and the origins of those that it was serving are told. -/
theorem leave_of_member {router : Router} {id : MemberId} {member : Member}
    (h : router.member? id = some member) :
    (router.leave id).2 = (router.withoutMember member).reportLost (router.lostWith id) := by
  have hid : member.id = id := Lookup.key_of_find? h
  subst hid
  unfold leave
  rw [h]
  simp only [List.partition_eq_filter_filter]
  have hlost : (router.routes.filter (Route.touches · member.id)).filter
      (fun route => route.target = member.id ∧ route.origin ≠ member.id) =
        router.lostWith member.id := by
    rw [List.filter_filter]
    apply List.filter_congr
    intro route _
    by_cases htarget : route.target = member.id
    · simp [Route.touches, htarget]
    · simp [htarget]
  rw [hlost]
  rfl

theorem routes_leave {router : Router} {id : MemberId} {member : Member}
    (h : router.member? id = some member) :
    (router.leave id).2.routes = router.routes.filter fun route => !route.touches id := by
  have hid : member.id = id := Lookup.key_of_find? h
  rw [leave_of_member h, (sameRegistry_reportLost _ _).routes, ← hid]
  rfl

theorem nextRoute_leave (router : Router) (id : MemberId) :
    (router.leave id).2.nextRoute = router.nextRoute := by
  cases h : router.member? id with
  | none => rw [leave_of_not_member h]
  | some member =>
      rw [leave_of_member h, (sameRegistry_reportLost _ _).nextRoute]
      rfl

/-- Each origin of a route that is lost with a member hears of it, as long as there is room. -/
theorem queued_leave {router : Router} {id : MemberId} {member : Member}
    (h : router.member? id = some member) (other : MemberId) :
    (router.leave id).2.queued other = router.queued other ++
      (((router.lostWith id).filter fun route => route.origin = other).map memberLost).take
        (router.room other) := by
  have hid : member.id = id := Lookup.key_of_find? h
  rw [leave_of_member h, queued_reportLost]
  have hqueued : (router.withoutMember member).queued other = router.queued other := rfl
  rw [hqueued]
  by_cases hother : other = member.id
  · have hnone : (router.lostWith id).filter (fun route => route.origin = other) = [] := by
      apply List.filter_eq_nil_iff.2
      intro route hroute
      have hlost := List.of_mem_filter hroute
      simp only [ne_eq, Bool.decide_and, Bool.and_eq_true, decide_eq_true_eq] at hlost
      simpa [hother, hid] using hlost.2
    rw [hnone]
    simp
  · rw [room_withoutMember router hother]

/-! ## Requests -/

/-- The member whose turn it is in a cluster, if it has members. -/
def turn? (router : Router) (cluster : String) : Option MemberId :=
  (router.roster? cluster).bind Roster.current?

/-- Passing the turn on changes the rosters alone. -/
theorem pick_eq (router : Router) (cluster : String) :
    ∃ rosters, router.pick cluster = (router.turn? cluster, { router with rosters }) := by
  unfold pick turn?
  cases router.roster? cluster with
  | none => exact ⟨router.rosters, rfl⟩
  | some roster => exact ⟨(router.setRoster roster.advance).rosters, rfl⟩

/-- The route under which a request is passed on. -/
def routeFor (router : Router) (origin : MemberId) (id : RequestId) (target : MemberId)
    (timeout : Duration) (now : Instant) : Route :=
  { id := ⟨router.nextRoute⟩, origin, originId := id, target
    deadline := now.after (timeout.atMost maxRouteLifetime) }

/-- A router that has passed the turn on and opened a route. -/
def opened (router : Router) (rosters : List Roster) (route : Route) : Router :=
  { router with rosters, routes := router.routes ++ [route], nextRoute := router.nextRoute + 1 }

@[simp] theorem member?_opened (router : Router) (rosters : List Roster) (route : Route)
    (id : MemberId) : (router.opened rosters route).member? id = router.member? id := rfl

@[simp] theorem outbox?_opened (router : Router) (rosters : List Roster) (route : Route)
    (id : MemberId) : (router.opened rosters route).outbox? id = router.outbox? id := rfl

/-- A request step by step: the turn passes on, a route is opened to the member whose turn it was,
and the route is given up if that member takes no message. -/
theorem routeRequest_eq (router : Router) (origin : MemberId) (id : RequestId) (cluster : String)
    (timeout : Duration) (payload : ByteArray) (now : Instant) :
    ∃ rosters, (router.pick cluster).2 = { router with rosters } ∧
      router.routeRequest origin id cluster timeout payload now =
        match router.turn? cluster with
        | none => ({ router with rosters } : Router).reject origin id .noMembers
            s!"no members in cluster {cluster}"
        | some target =>
            match (router.opened rosters (router.routeFor origin id target timeout now)).push target
                (.request ⟨router.nextRoute⟩ cluster timeout.wireMillis payload) with
            | .ok next => next.count fun stats =>
                { stats with requestsRouted := stats.requestsRouted + 1 }
            | .error fault => ((router.opened rosters (router.routeFor origin id target timeout
                now)).eraseRoute ⟨router.nextRoute⟩).reject origin id .internalError
                  fault.text := by
  obtain ⟨rosters, hpick⟩ := router.pick_eq cluster
  refine ⟨rosters, by rw [hpick], ?_⟩
  unfold routeRequest
  rw [hpick]
  cases router.turn? cluster <;> rfl

/-- What the member that asked hears from the router itself: one error, if there is room. -/
def Refusal (before after : Router) (origin : MemberId) (message : Message) : Prop :=
  ∀ other, after.queued other =
    before.queued other ++ (if other = origin then [message] else []).take (before.room other)

/-- What a request may do. -/
inductive RequestEffect (before after : Router) (origin : MemberId) (id : RequestId)
    (cluster : String) (timeout : Duration) (payload : ByteArray) (now : Instant) : Prop where
  /-- The cluster has no members. -/
  | noMembers (hturn : before.turn? cluster = none)
      (hrefusal : Refusal before after origin
        (.errorReply id .noMembers s!"no members in cluster {cluster}"))
      (hroutes : after.routes = before.routes) (hnext : after.nextRoute = before.nextRoute)
  /-- The member whose turn it is takes no message. -/
  | undelivered (target : MemberId) (fault : Undelivered)
      (hturn : before.turn? cluster = some target) (hroom : before.room target = 0)
      (hrefusal : Refusal before after origin (.errorReply id .internalError fault.text))
      (hroutes : (∀ route ∈ before.routes, route.id ≠ ⟨before.nextRoute⟩) →
        after.routes = before.routes)
      (hnext : after.nextRoute = before.nextRoute + 1)
  /-- The request is passed on. -/
  | forwarded (target : MemberId)
      (hturn : before.turn? cluster = some target) (hroom : 0 < before.room target)
      (hroutes : after.routes = before.routes ++ [before.routeFor origin id target timeout now])
      (hqueued : ∀ other, after.queued other = before.queued other ++
        if other = target then [.request ⟨before.nextRoute⟩ cluster timeout.wireMillis payload]
        else [])
      (hnext : after.nextRoute = before.nextRoute + 1)

theorem refusal_reject (router : Router) (origin : MemberId) (id : RequestId) (code : ErrorCode)
    (text : String) :
    Refusal router (router.reject origin id code text) origin (.errorReply id code text) :=
  fun other => queued_deliver _ _ _ other

theorem sameRegistry_reject (router : Router) (origin : MemberId) (id : RequestId)
    (code : ErrorCode) (text : String) :
    SameRegistry router (router.reject origin id code text) :=
  (sameRegistry_count router _).trans (sameRegistry_deliver _ _ _)

theorem routes_reject (router : Router) (origin : MemberId) (id : RequestId) (code : ErrorCode)
    (text : String) : (router.reject origin id code text).routes = router.routes :=
  (router.sameRegistry_reject origin id code text).routes

theorem nextRoute_reject (router : Router) (origin : MemberId) (id : RequestId) (code : ErrorCode)
    (text : String) : (router.reject origin id code text).nextRoute = router.nextRoute :=
  (router.sameRegistry_reject origin id code text).nextRoute

/-- A route that has just been opened is the only one of its number, and can be given up. -/
theorem routes_eraseRoute_opened {router : Router} (rosters : List Roster) {route : Route}
    (hroute : route.id = ⟨router.nextRoute⟩)
    (hfresh : ∀ other ∈ router.routes, other.id ≠ ⟨router.nextRoute⟩) :
    ((router.opened rosters route).eraseRoute ⟨router.nextRoute⟩).routes = router.routes := by
  show (router.routes ++ [route]).filter (fun other => other.id ≠ ⟨router.nextRoute⟩) =
      router.routes
  rw [List.filter_append, List.filter_eq_self.2]
  · simp [hroute]
  · intro other hother
    simpa using hfresh other hother

/-- A request has one of the three effects. -/
theorem routeRequest_effect (router : Router) (origin : MemberId) (id : RequestId)
    (cluster : String) (timeout : Duration) (payload : ByteArray) (now : Instant) :
    RequestEffect router (router.routeRequest origin id cluster timeout payload now) origin id
      cluster timeout payload now := by
  obtain ⟨rosters, -, hrequest⟩ :=
    router.routeRequest_eq origin id cluster timeout payload now
  rw [hrequest]
  cases hturn : router.turn? cluster with
  | none =>
      have hrefusal := refusal_reject { router with rosters } origin id .noMembers
        s!"no members in cluster {cluster}"
      exact .noMembers hturn hrefusal (routes_reject _ _ _ _ _) (nextRoute_reject _ _ _ _ _)
  | some target =>
      simp only
      generalize hroute : router.routeFor origin id target timeout now = route
      split
      · rename_i next hpush
        have hsame := sameRegistry_of_push hpush
        have hroom : 0 < (router.opened rosters route).room target := room_pos_of_push_eq_ok hpush
        refine .forwarded target hturn hroom ?_ ?_ hsame.nextRoute
        · rw [hroute]
          exact hsame.routes
        · intro other
          rw [queued_count, queued_of_push hpush]
          rfl
      · rename_i fault hpush
        have hrefusal := refusal_reject ((router.opened rosters route).eraseRoute
          ⟨router.nextRoute⟩) origin id .internalError fault.text
        have hroom : (router.opened rosters route).room target = 0 :=
          room_eq_zero_of_push_eq_error hpush
        refine .undelivered target fault hturn hroom hrefusal ?_ (nextRoute_reject _ _ _ _ _)
        intro hfresh
        have hid : route.id = ⟨router.nextRoute⟩ := by rw [← hroute]; rfl
        rw [routes_reject, routes_eraseRoute_opened rosters hid hfresh]

/-! ## Answers -/

/-- What a message in reply may do. -/
inductive ReplyEffect (before after : Router) (sender : MemberId) (message : Message) : Prop where
  /-- It reaches nobody. -/
  | ignored (hroutes : after.routes = before.routes)
      (hqueued : ∀ other, after.queued other = before.queued other)
  /-- It closes the route it quotes. The origin hears what answer it brings, if there is room. -/
  | closed (route : Route) (hquoted : message.envelope.requestId? = some route.id)
      (hroute : before.route? route.id = some route) (htarget : route.target = sender)
      (hroutes : after.routes = before.routes.filter fun other => other.id ≠ route.id)
      (hqueued : ∀ other, after.queued other = before.queued other ++
        (if other = route.origin then (answerTo route.originId message).toList else []).take
          (before.room other))

theorem sameRegistry_answer (router : Router) (route : Route) (message : Message) :
    SameRegistry router (router.answer route message) := by
  unfold answer
  split
  · exact .refl router
  · rename_i reply hreply
    have hdeliver := sameRegistry_deliver router route.origin reply
    split
    · rename_i next hnext
      rw [hnext] at hdeliver
      exact hdeliver.trans (sameRegistry_count next _)
    · rename_i next hnext
      rw [hnext] at hdeliver
      exact hdeliver

theorem queued_answer (router : Router) (route : Route) (message : Message) (other : MemberId) :
    (router.answer route message).queued other = router.queued other ++
      (if other = route.origin then (answerTo route.originId message).toList else []).take
        (router.room other) := by
  unfold answer
  split
  · rename_i hnone
    rw [hnone]
    simp
  · rename_i reply hreply
    have hdeliver := queued_deliver router route.origin reply other
    rw [hreply, Option.toList_some, ← hdeliver]
    split
    · rename_i next hnext
      rw [hnext, queued_count]
    · rename_i next hnext
      rw [hnext]

/-- What becomes of a message that quotes a route. -/
theorem routeReply_of_route? {router : Router} {sender : MemberId} {message : Message}
    {id : RequestId} {route : Route} (hid : message.envelope.requestId? = some id)
    (hroute : router.route? id = some route) :
    router.routeReply sender message =
      if route.target = sender then (router.eraseRoute id).answer route message
      else router.countDropped := by
  unfold routeReply
  rw [hid]
  simp only [hroute]

theorem routeReply_effect (router : Router) (sender : MemberId) (message : Message) :
    ReplyEffect router (router.routeReply sender message) sender message := by
  cases hid : message.envelope.requestId? with
  | none =>
      have h : router.routeReply sender message = router := by
        unfold routeReply
        rw [hid]
      rw [h]
      exact .ignored rfl fun _ => rfl
  | some id =>
      cases hroute : router.route? id with
      | none =>
          have h : router.routeReply sender message = router.countDropped := by
            unfold routeReply
            rw [hid]
            simp only [hroute]
          rw [h]
          exact .ignored rfl fun _ => rfl
      | some route =>
          have hkey : route.id = id := Lookup.key_of_find? hroute
          subst hkey
          rw [routeReply_of_route? hid hroute]
          by_cases htarget : route.target = sender
          · rw [if_pos htarget]
            refine .closed route hid hroute htarget ?_ ?_
            · exact (sameRegistry_answer _ route message).routes
            · exact queued_answer _ route message
          · rw [if_neg htarget]
            exact .ignored rfl fun _ => rfl

theorem nextRoute_routeReply (router : Router) (sender : MemberId) (message : Message) :
    (router.routeReply sender message).nextRoute = router.nextRoute := by
  unfold routeReply
  split
  · rfl
  · split
    · rfl
    · split
      · exact (sameRegistry_answer _ _ message).nextRoute
      · rfl

/-! ## Sweeping, reading and hanging up -/

theorem routes_sweep (router : Router) (now : Instant) :
    (router.sweep now).2.routes = router.routes.filter fun route => now < route.deadline := by
  unfold sweep
  rw [List.partition_eq_filter_filter]
  rfl

@[simp] theorem nextRoute_sweep (router : Router) (now : Instant) :
    (router.sweep now).2.nextRoute = router.nextRoute := rfl

@[simp] theorem queued_sweep (router : Router) (now : Instant) (id : MemberId) :
    (router.sweep now).2.queued id = router.queued id := rfl

theorem sameRegistry_hangUp (router : Router) (id : MemberId) :
    SameRegistry router (router.hangUp id) := by
  unfold hangUp
  split
  · exact .refl router
  · exact sameRegistry_setOutbox router _

theorem queued_hangUp (router : Router) (id other : MemberId) :
    (router.hangUp id).queued other = if other = id then [] else router.queued other := by
  unfold hangUp
  split
  · rename_i hnone
    by_cases h : other = id
    · subst h
      simp [queued, hnone]
    · rw [if_neg h]
  · rename_i outbox houtbox
    have hkey : outbox.member = id := member_of_outbox? houtbox
    exact queued_setOutbox outbox.hangUp hkey houtbox other

theorem sameRegistry_drain (router : Router) (id : MemberId) (limit : Option Nat) :
    SameRegistry router (router.drain id limit).2 := by
  unfold drain
  split
  · exact .refl router
  · split
    · exact sameRegistry_setOutbox router _
    · exact .refl router

/-- Reading takes messages from the front of one outbox. -/
theorem queued_drain (router : Router) (id : MemberId) (limit : Option Nat) (other : MemberId) :
    ∃ count, (router.drain id limit).2.queued other = (router.queued other).drop count := by
  unfold drain
  split
  · exact ⟨0, rfl⟩
  · rename_i outbox houtbox
    split
    · have hkey : outbox.member = id := member_of_outbox? houtbox
      have hset := queued_setOutbox (outbox.drop (limit.getD outbox.queued.length)) hkey
        houtbox other
      by_cases h : other = id
      · refine ⟨limit.getD outbox.queued.length, ?_⟩
        rw [if_pos h] at hset
        rw [h] at hset ⊢
        unfold queued at hset ⊢
        rw [houtbox]
        exact hset
      · refine ⟨0, ?_⟩
        rw [if_neg h] at hset
        exact hset
    · exact ⟨0, rfl⟩

end Router

end Switchboard
