import Switchboard.Proofs.Connection.Steps
import Switchboard.Proofs.Relay.Fitting
import Switchboard.Proofs.Relay.Interleaving
import Switchboard.Proofs.Router.Registry

/-!
# How long a route lives

A caller gives its call up when its timeout has passed, and a relay forgets the route of a request
when the time is over that the request was given. The two times begin at different moments, and the
wire carries whole milliseconds only, so that the time given at the relay may be shorter than the
timeout (`le_given_add_iff`).

A route ends early when a session answers it or leaves (`Concluded`); otherwise a sweep behind its
deadline forgets it (`swept_or_concluded`), in one step and along a run (`exists_end_of_not_mem`).
The main result `lifetime_of_passedOn` puts the wait of a caller beside the life of its route. It
says when the route lives as long as the caller waits, and that it falls short by less than a
millisecond if it does not.
-/

namespace Switchboard

/-! ## What closes a route of a router -/

namespace Router

variable {router : Router} {route : Route}

/-- Only routes that touch a member are closed when it leaves. -/
theorem touches_of_not_mem_leave {id : MemberId} (hroute : route ∈ router.routes)
    (hgone : route ∉ (router.leave id).2.routes) : route.touches id = true := by
  cases hmember : router.member? id with
  | none =>
      rw [leave_of_not_member hmember] at hgone
      exact absurd hroute hgone
  | some member =>
      rw [routes_leave hmember, List.mem_filter] at hgone
      by_contra htouches
      exact hgone ⟨hroute, by simp [htouches]⟩

/-- An answer closes only routes of the number that it quotes, and one of them leads to its
sender. -/
theorem exists_answered_of_not_mem {sender : MemberId} {message : Message}
    (hroute : route ∈ router.routes) (hgone : route ∉ (router.routeReply sender message).routes) :
    message.envelope.requestId? = some route.id ∧
      ∃ other ∈ router.routes, other.id = route.id ∧ other.target = sender := by
  cases routeReply_effect router sender message with
  | ignored hroutes hqueued =>
      rw [hroutes] at hgone
      exact absurd hroute hgone
  | closed other hquoted hother htarget hroutes hqueued =>
      have hid : other.id = route.id := by
        by_contra hid
        rw [hroutes, List.mem_filter] at hgone
        exact hgone ⟨hroute, by simpa using Ne.symm hid⟩
      rw [hid] at hquoted
      exact ⟨hquoted, other, List.mem_of_find?_eq_some hother, hid, htarget⟩

/-- A request closes no route, unless the number that it would have is in use. -/
theorem exists_reused_of_not_mem {origin : MemberId} {id : RequestId} {cluster : String}
    {timeout : Duration} {payload : ByteArray} {now : Instant} (hroute : route ∈ router.routes)
    (hgone : route ∉ (router.routeRequest origin id cluster timeout payload now).routes) :
    ∃ other ∈ router.routes, other.id = ⟨router.nextRoute⟩ := by
  by_contra hfresh
  simp only [not_exists, not_and] at hfresh
  apply hgone
  cases routeRequest_effect router origin id cluster timeout payload now with
  | noMembers hturn hrefusal hroutes hnext => rwa [hroutes]
  | undelivered target fault hturn hroom hrefusal hroutes hnext => rwa [hroutes hfresh]
  | forwarded target hturn hroom hroutes hqueued hnext =>
      rw [hroutes]
      exact List.mem_append_left _ hroute

/-- A sweep forgets exactly the routes whose deadline has passed. -/
theorem not_mem_sweep_iff {now : Instant} (hroute : route ∈ router.routes) :
    route ∉ (router.sweep now).2.routes ↔ route.deadline ≤ now := by
  rw [routes_sweep, List.mem_filter]
  simp [hroute]

end Router

namespace Relay

/-! ## What closes a route of a relay -/

/-- How a turn of a link ends a route before its time. -/
inductive Concluded (router : Router) (link : Link) (message? : Option Message) (link' : Link)
    (route : Route) : Prop where
  /-- The session has answered a route of this number. -/
  | answered (message : Message) (other : Route) (hmessage : message? = some message)
      (hquoted : message.envelope.requestId? = some route.id) (hother : other ∈ router.routes)
      (hid : other.id = route.id) (htarget : link.session.member = some other.target)
  /-- The session has left, and the route began or ended at it. -/
  | left (member : MemberId) (hphase : link'.phase = .ended)
      (hmember : link'.session.member = some member) (htouches : route.touches member = true)
  /-- The session has made a request whose number is in use: all numbers have been given. -/
  | reused (other : Route) (hother : other ∈ router.routes) (hid : other.id = ⟨router.nextRoute⟩)

/-- A link that ends takes the routes of its session along. -/
theorem concluded_of_leave {router : Router} {link link' : Link} {message? : Option Message}
    {route : Route} (hroute : route ∈ router.routes)
    (hgone : route ∉ (routerWithout router link'.session.member).routes)
    (hphase : link'.phase = .ended) : Concluded router link message? link' route := by
  cases hmember : link'.session.member with
  | none =>
      rw [hmember] at hgone
      exact absurd hroute hgone
  | some member =>
      rw [hmember] at hgone
      exact .left member hphase hmember (Router.touches_of_not_mem_leave hroute hgone)

/-- A message that closes a route answers it or ends its session. -/
theorem Handled.concluded {options : RelayOptions} {router router' : Router} {link link' : Link}
    {message : Message} {now : Instant} {route : Route}
    (h : Handled options router link message now router' link') (hroute : route ∈ router.routes)
    (hgone : route ∉ router'.routes) : Concluded router link (some message) link' route := by
  cases h with
  | closed reason hmessage => exact concluded_of_leave hroute hgone rfl
  | welcomed version cluster clientName _ hmember hmessage hopening hwrite =>
      exact absurd hroute hgone
  | unwelcomed version cluster clientName session hmember hmessage hopening hsession hwrite =>
      -- The session has joined before it leaves.
      have hjoined : route ∈ (router.join cluster options.outboundQueue).2.routes := hroute
      refine .left router.nextMember rfl ?_ (Router.touches_of_not_mem_leave hjoined hgone)
      show session.member = some router.nextMember
      rw [hsession]
      rfl
  | refused error hmember hopening hmessage => exact absurd hroute hgone
  | request member id cluster timeoutMs hmember hmessage =>
      obtain ⟨other, hother, hid⟩ := Router.exists_reused_of_not_mem hroute hgone
      exact .reused other hother hid
  | answer member hmember hmessage =>
      obtain ⟨hquoted, other, hother, hid, htarget⟩ :=
        Router.exists_answered_of_not_mem hroute hgone
      exact .answered message other rfl hquoted hother hid (htarget ▸ hmember)
  | misplaced member _ hmember hmessage hwrite => exact absurd hroute hgone
  | unheard member hmember hmessage hwrite =>
      apply concluded_of_leave hroute _ rfl
      show route ∉ (routerWithout router link.session.member).routes
      rw [hmember]
      exact hgone

/-- A turn that closes a route answers it or ends its session. -/
theorem Turn.concluded {relay : Relay} {router' : Router} {link link' : Link} {step : Step}
    {route : Route} (h : Turn relay.options relay.router link step router' link')
    (hlink : relay.link? link.id = some link) (hroute : route ∈ relay.router.routes)
    (hgone : route ∉ router'.routes) :
    Concluded relay.router link (relay.taken? step) link' route := by
  have hsession : ∀ message : Message,
      (link.tryWrite message).session.member = link.session.member := by
    intro message
    rw [session_tryWrite]
  cases h with
  | received data now hphase => exact absurd hroute hgone
  | waited decoder now hphase hnext => exact absurd hroute hgone
  | skipped fault decoder now hphase hnext hfault => exact absurd hroute hgone
  | failed fault decoder now hphase hnext hfault => exact concluded_of_leave hroute hgone rfl
  | handled message decoder now hphase hnext hhandled =>
      rw [taken?_of_item hlink hphase hnext]
      cases hhandled.concluded hroute hgone with
      | answered message other hmessage hquoted hother hid htarget =>
          exact .answered message other hmessage hquoted hother hid htarget
      | left member hended hmember htouches => exact .left member hended hmember htouches
      | reused other hother hid => exact .reused other hother hid
  | foundEnd broken hphase => exact concluded_of_leave hroute hgone rfl
  | forwarded member message now router' link' hphase hmember hdrain hwrite =>
      -- A message that leaves its outbox takes no route with it.
      have hrouter : router' = (relay.router.drain member (some 1)).2 := by rw [hdrain]
      rw [hrouter, (Router.sameRegistry_drain _ _ _).routes] at hgone
      exact absurd hroute hgone
  | unwritten member message now router' hphase hmember hdrain hwrite =>
      have hrouter : router' = (relay.router.drain member (some 1)).2 := by rw [hdrain]
      -- The route outlasts the message, and goes with the session that leaves.
      have hkept : route ∈ router'.routes := by
        rw [hrouter, (Router.sameRegistry_drain _ _ _).routes]
        exact hroute
      exact .left member rfl hmember (Router.touches_of_not_mem_leave hkept hgone)
  | idled now hphase =>
      apply concluded_of_leave hroute _ rfl
      show route ∉ (routerWithout relay.router (link.tryWrite idleTimeout).session.member).routes
      rw [hsession]
      exact hgone
  | heeded hphase hnotified =>
      apply concluded_of_leave hroute _ rfl
      show route ∉ (routerWithout relay.router (link.tryWrite shuttingDown).session.member).routes
      rw [hsession]
      exact hgone
  | blocked => exact absurd hroute hgone

/-- A step that ends a route before its time: a turn of a link in which its session answers or
leaves. -/
def Concludes (relay : Relay) (step : Step) (route : Route) : Prop :=
  ∃ link link', relay.link? link.id = some link ∧ step.link? = some link.id ∧
    (relay.perform step).link? link.id = some link' ∧
    Concluded relay.router link (relay.taken? step) link' route

/-- A route that a step closes is swept behind its deadline, or a session has answered or left. -/
theorem swept_or_concluded {relay : Relay} {step : Step} {route : Route}
    (hroute : route ∈ relay.router.routes) (hgone : route ∉ (relay.perform step).router.routes) :
    (∃ now, step = .sweep now ∧ route.deadline ≤ now) ∨ relay.Concludes step route := by
  have hsame : (relay.perform step).router ≠ relay.router := by
    intro hrouter
    rw [hrouter] at hgone
    exact hgone hroute
  cases perform_effect relay step with
  | still hrouter hlinks hnext => exact absurd hrouter hsame
  | announced hrouter hlinks hnext => exact absurd hrouter hsame
  | accepted name remote now hstep hrouter hlinks hnext => exact absurd hrouter hsame
  | turn link link' hlink hturn hlinks hnext =>
      right
      rcases hturn.link? with htask | ⟨-, hrouter, -⟩
      · have hid : link'.id = link.id := hturn.continues.id
        exact ⟨link, link', hlink, htask, link?_of_links link' hlink hid hlinks,
          hturn.concluded hlink hroute hgone⟩
      · exact absurd hrouter hsame
  | hungUp member hstep hrouter hlinks hnext =>
      rw [hrouter, (Router.sameRegistry_hangUp _ member).routes] at hgone
      exact absurd hroute hgone
  | swept now hstep hrouter hlinks hnext =>
      left
      rw [hrouter] at hgone
      exact ⟨now, hstep, (Router.not_mem_sweep_iff hroute).1 hgone⟩

/-- A sweep of a relay that runs forgets exactly the routes whose deadline has passed. -/
theorem not_mem_routes_sweep_iff {relay : Relay} {route : Route} {now : Instant}
    (hroute : route ∈ relay.router.routes) :
    route ∉ (relay.sweep now).router.routes ↔ relay.isRunning = true ∧ route.deadline ≤ now := by
  unfold sweep
  by_cases hrunning : relay.isRunning = true
  · rw [if_pos hrunning, Router.not_mem_sweep_iff hroute]
    simp [hrunning]
  · rw [if_neg hrunning]
    simp [hrunning, hroute]

variable {options : RelayOptions} {steps : List Step}

/-- A route that is gone later in a run was swept behind its deadline, or a session has answered or
left, in a step between. -/
theorem exists_end_of_not_mem {route : Route} {i j : Nat} (hle : i ≤ j)
    (hroute : route ∈ (stateAt options steps i).router.routes)
    (hgone : route ∉ (stateAt options steps j).router.routes) :
    ∃ k step, i ≤ k ∧ k < j ∧ steps[k]? = some step ∧
      ((∃ now, step = .sweep now ∧ route.deadline ≤ now) ∨
        (stateAt options steps k).Concludes step route) := by
  induction hle with
  | refl => exact absurd hroute hgone
  | @step j hij ih =>
      by_cases hstill : route ∈ (stateAt options steps j).router.routes
      · -- The step from `j` on is the one that closes the route.
        cases hstep : steps[j]? with
        | none =>
            rw [stateAt_succ_of_none hstep] at hgone
            exact absurd hstill hgone
        | some step =>
            rw [stateAt_succ hstep] at hgone
            exact ⟨j, step, hij, Nat.lt_succ_self j, hstep, swept_or_concluded hstill hgone⟩
      · obtain ⟨k, step, hik, hkj, hstep, hend⟩ := ih hstill
        exact ⟨k, step, hik, Nat.lt_succ_of_lt hkj, hstep, hend⟩

/-! ## The time that a request is given -/

/-- The time that a request is given at a relay which is to be answered within a timeout. -/
def given (timeout : Duration) : Duration :=
  (timeoutOfWire (Connection.wireTimeout timeout)).atMost Router.maxRouteLifetime

theorem toNat_wireTimeout {timeout : Duration} (h : timeout.millis < UInt64.size) :
    (Connection.wireTimeout timeout).toNat = max timeout.millis 1 := by
  have hwire : timeout.wireMillis.toNat = timeout.millis := by
    have hmin : min timeout.millis (UInt64.size - 1) = timeout.millis := by omega
    rw [Duration.wireMillis, hmin]
    exact Nat.mod_eq_of_lt h
  unfold Connection.wireTimeout
  rw [UInt64.toNat_max, hwire]
  rfl

/-- A request is given the whole milliseconds of its timeout, and one at least. -/
theorem nanos_given {timeout : Duration} (hlimit : timeout.nanos ≤ Router.maxRouteLifetime.nanos) :
    (given timeout).nanos = max timeout.millis 1 * 1000000 := by
  have hday : Router.maxRouteLifetime.nanos = 86400000000000 := rfl
  have hmillis : timeout.millis = timeout.nanos / 1000000 := rfl
  have hwire : (timeoutOfWire (Connection.wireTimeout timeout)).nanos =
      max (max timeout.millis 1) 1 * 1000000 := by
    rw [← toNat_wireTimeout (by simp only [UInt64.size]; omega)]
    rfl
  unfold given Duration.atMost
  rw [if_pos (by omega), hwire, Nat.max_assoc, Nat.max_self]

section Given

variable {timeout : Duration} (hlimit : timeout.nanos ≤ Router.maxRouteLifetime.nanos)

include hlimit

/-- The time that is given covers what is left of a timeout of more than a millisecond if the part
of it below a millisecond has been spent before. -/
theorem le_given_add_iff (spent : Nat) :
    timeout.nanos ≤ (given timeout).nanos + spent ↔
      timeout.nanos ≤ 1000000 ∨ timeout.nanos % 1000000 ≤ spent := by
  rw [nanos_given hlimit, Duration.millis]
  omega

/-- Of two clocks that start at `asked` and at `opened`, the one that measures the timeout runs out
first. -/
theorem after_le_after_given_iff {asked opened : Nat} (hle : asked ≤ opened) :
    (∀ now : Nat, opened + (given timeout).nanos ≤ now → asked + timeout.nanos ≤ now) ↔
      timeout.nanos ≤ 1000000 ∨ timeout.nanos % 1000000 ≤ opened - asked := by
  rw [← le_given_add_iff hlimit]
  constructor
  · intro hall
    have hfirst := hall _ (Nat.le_refl _)
    omega
  · intro hspent now hnow
    omega

/-- The clock at the relay runs out less than a millisecond before the other. -/
theorem after_lt_after_given {asked opened : Nat} (hle : asked ≤ opened) :
    asked + timeout.nanos < opened + (given timeout).nanos + 1000000 := by
  rw [nanos_given hlimit, Duration.millis]
  omega

end Given

/-! ## From the call to the route -/

/-- What a caller asks for, of whom, and when. -/
structure Ask where
  conn : Connection
  cluster : String
  payload : ByteArray
  timeout : Duration
  /-- When the call begins. -/
  asked : Instant

namespace Ask

/-- How the call begins, and the connection behind that. -/
def begun (ask : Ask) : Connection.CallStart × Connection :=
  ask.conn.request ask.cluster ask.payload ask.timeout ask.asked

/-- When the caller gives up. -/
def patience (ask : Ask) : Instant := ask.asked.after ask.timeout

/-- The request as it is sent. -/
def message (ask : Ask) : Message :=
  .request ⟨ask.conn.ids.next⟩ ask.cluster (Connection.wireTimeout ask.timeout) ask.payload

end Ask

/-- A frame that goes to a queue is known by what becomes of the queue. -/
theorem frame_of_push {queue : WriteQueue} {call : Option CallKey} {frame other : ByteArray}
    (h : queue.push ⟨call, frame⟩ = queue.push ⟨call, other⟩) : frame = other := by
  unfold WriteQueue.push at h
  split at h
  · simpa using congrArg WriteQueue.items h
  · simpa using congrArg WriteQueue.line h

/-- What a call that has begun leaves behind: its frame, and the call with its deadline. -/
theorem begun_of_started {ask : Ask} {key : CallKey} (h : ask.begun.1 = .started key) :
    ask.message.Fits ∧ ask.begun.2.queue = ask.conn.queue.push ⟨some key, ask.message.bytes⟩ ∧
      ∃ call ∈ ask.begun.2.calls, call.key = key ∧ call.id = ⟨ask.conn.ids.next⟩ ∧
        call.deadline = ask.asked.after (ask.timeout.atMost Connection.farFuture) := by
  have heffect := Connection.request_effect ask.conn ask.cluster ask.payload ask.timeout ask.asked
  unfold Ask.begun at h ⊢
  rw [h] at heffect
  generalize (ask.conn.request ask.cluster ask.payload ask.timeout ask.asked).2 = after at heffect ⊢
  cases heffect with
  | started slot pending hid hregister hfits =>
      exact ⟨hfits, rfl, _, List.mem_append_right _ List.mem_cons_self, rfl, rfl, rfl⟩

/-- The request of a call comes to a relay: step `i` of a run takes its frame off what a link has
received, at the instant `opened`, and opens a route. -/
structure PassedOn (ask : Ask) (key : CallKey) (options : RelayOptions) (steps : List Step)
    (i : Nat)
    (opened : Instant) (route : Route) : Prop where
  started : ask.begun.1 = .started key
  /-- The frame that the link reads is the one that the call has given to its write queue. -/
  read : ∃ frame rest link, ask.begun.2.queue = ask.conn.queue.push ⟨some key, frame⟩ ∧
    (stateAt options steps i).link? link.id = some link ∧ link.phase = .reading ∧
    link.decoder.buffer = frame ++ rest ∧ steps[i]? = some (.readNext link.id opened)
  fresh : route ∉ (stateAt options steps i).router.routes
  known : route ∈ (stateAt options steps (i + 1)).router.routes

/-- The route is opened for the request, and lives for the time that the request is given. -/
theorem PassedOn.opens {ask : Ask} {key : CallKey} {i : Nat} {opened : Instant} {route : Route}
    (h : PassedOn ask key options steps i opened route) :
    route.originId = ⟨ask.conn.ids.next⟩ ∧ route.deadline = opened.after (given ask.timeout) := by
  obtain ⟨hfits, hqueue, -⟩ := begun_of_started h.started
  obtain ⟨frame, rest, link, hframe, hlink, hphase, hbuffer, hstep⟩ := h.read
  obtain rfl : frame = ask.message.bytes := frame_of_push (hframe.symm.trans hqueue)
  have hnext : link.decoder.nextMessage = (.item ask.message, ⟨rest⟩) := by
    rw [Decoder.nextMessage, hbuffer, Message.decode_bytes hfits]
    rfl
  have htakes : Takes (stateAt options steps i) link.id link ask.message :=
    ⟨hlink, hphase, _, hnext⟩
  obtain ⟨decoder, link', -, hhandled, -⟩ := htakes.handled opened
  have hafter := h.known
  rw [stateAt_succ hstep] at hafter
  change route ∈ ((stateAt options steps i).readNext link.id opened).router.routes at hafter
  generalize ((stateAt options steps i).readNext link.id opened).router = router at hhandled hafter
  -- Only a request that passes through the router opens a route.
  cases hhandled with
  | closed reason hmessage => cases hmessage
  | welcomed version cluster clientName _ hmember hmessage hopening hwrite => cases hmessage
  | unwelcomed version cluster clientName session hmember hmessage hopening hsession hwrite =>
      cases hmessage
  | refused error hmember hopening hmessage => exact absurd hafter h.fresh
  | request member id cluster timeoutMs hmember hmessage =>
      cases hmessage
      rcases Router.mem_routes_routeRequest hafter with hold | ⟨target, hturn, rfl⟩
      · exact absurd hold h.fresh
      · exact ⟨rfl, rfl⟩
  | answer member hmember hmessage => cases hmessage
  | misplaced member _ hmember hmessage hwrite => rcases hmessage with hkind | hkind <;> cases hkind
  | unheard member hmember hmessage hwrite => rcases hmessage with hkind | hkind <;> cases hkind

/-- The wait of a caller beside the life of the route of its request. -/
structure Lifetime (ask : Ask) (key : CallKey) (options : RelayOptions) (steps : List Step)
    (i : Nat)
    (opened : Instant) (route : Route) : Prop where
  /-- The caller waits until its timeout has passed. -/
  waits : ∃ call ∈ ask.begun.2.calls,
    call.key = key ∧ call.id = route.originId ∧ call.deadline = ask.patience
  /-- The route is given the whole milliseconds of the timeout, and one at least. -/
  deadline : route.deadline = opened + max (ask.timeout.nanos / 1000000) 1 * 1000000
  /-- As long as a relay knows the route, it is swept from its deadline on and not before. -/
  swept : ∀ relay : Relay, route ∈ relay.router.routes → ∀ now,
    route ∉ (relay.sweep now).router.routes ↔ relay.isRunning = true ∧ route.deadline ≤ now
  /-- The caller has given up whenever the route may be swept exactly if the timeout is a
  millisecond at most, or the part of it below a millisecond was over when the route was opened. -/
  outlives : (∀ now, route.deadline ≤ now → ask.patience ≤ now) ↔
    ask.timeout.nanos ≤ 1000000 ∨ ask.timeout.nanos % 1000000 ≤ opened - ask.asked
  /-- The route never falls short by a millisecond. -/
  nearly : ask.patience < route.deadline + 1000000
  /-- A route that is gone later in the run was swept, or a session has answered or left. -/
  ends : ∀ j, i < j → route ∉ (stateAt options steps j).router.routes →
    ∃ k step, i < k ∧ k < j ∧ steps[k]? = some step ∧
      ((∃ now, step = .sweep now ∧ route.deadline ≤ now) ∨
        (stateAt options steps k).Concludes step route)
  /-- While all sweeps come before the caller gives up, and the route outlives the wait, an answer
  finds the route unless it was answered before or a session has left. -/
  answerable : (ask.timeout.nanos ≤ 1000000 ∨ ask.timeout.nanos % 1000000 ≤ opened - ask.asked) →
    ∀ j, i < j → (∀ k now, k < j → steps[k]? = some (.sweep now) → now < ask.patience) →
      route ∈ (stateAt options steps j).router.routes ∨
        ∃ k step, i < k ∧ k < j ∧ steps[k]? = some step ∧
          (stateAt options steps k).Concludes step route

/-- For every timeout up to the longest lifetime of a route, and whenever the request comes to the
relay, the route lives as long as it should but for the part of the timeout below a millisecond. -/
theorem lifetime_of_passedOn {ask : Ask} {key : CallKey} {i : Nat} {opened : Instant}
    {route : Route}
    (h : PassedOn ask key options steps i opened route)
    (hlimit : ask.timeout.nanos ≤ Router.maxRouteLifetime.nanos) (hle : ask.asked ≤ opened) :
    Lifetime ask key options steps i opened route := by
  obtain ⟨hid, hdeadline⟩ := h.opens
  have hends : ∀ j, i < j → route ∉ (stateAt options steps j).router.routes → _ :=
    fun j hij hgone => exists_end_of_not_mem hij h.known hgone
  have houtlives : (∀ now, route.deadline ≤ now → ask.patience ≤ now) ↔
      ask.timeout.nanos ≤ 1000000 ∨ ask.timeout.nanos % 1000000 ≤ opened - ask.asked := by
    rw [hdeadline]
    exact after_le_after_given_iff hlimit hle
  constructor
  · obtain ⟨-, -, call, hcall, hkey, hcallId, hcallDeadline⟩ := begun_of_started h.started
    refine ⟨call, hcall, hkey, hcallId.trans hid.symm, ?_⟩
    have hfar : Router.maxRouteLifetime.nanos ≤ Connection.farFuture.nanos := by decide
    rw [hcallDeadline, Duration.atMost, if_pos (hlimit.trans hfar)]
    rfl
  · rw [hdeadline, Instant.after, nanos_given hlimit]
    rfl
  · intro relay hroute now
    exact not_mem_routes_sweep_iff hroute
  · exact houtlives
  · rw [hdeadline]
    exact after_lt_after_given hlimit hle
  · exact hends
  · intro hspent j hij hsweeps
    by_cases hstill : route ∈ (stateAt options steps j).router.routes
    · exact Or.inl hstill
    · obtain ⟨k, step, hik, hkj, hstep, ⟨now, rfl, hnow⟩ | hconcludes⟩ := hends j hij hstill
      · -- A sweep behind the deadline comes when the caller has given up.
        have hpassed := houtlives.2 hspent now hnow
        exact absurd (hsweeps k now hkj hstep) (Nat.not_lt.2 hpassed)
      · exact Or.inr ⟨k, step, hik, hkj, hstep, hconcludes⟩

/-- A call that waits for a nanosecond less than a second and a millisecond. -/
def patientAsk : Ask where
  conn := .new (.new (.v4 .loopback 0)) "clients" "conn-1" .new
  cluster := "svc"
  payload := ⟨#[1]⟩
  timeout := ⟨1000999999⟩
  asked := 0

/-- A run in which the request of that call is passed on at once, and a sweep follows after a
second. The member that serves it answers after the sweep. -/
def outrunRun : List Step :=
  [.start, .accept "conn-1" (.v4 .loopback 0) 0, .accept "conn-2" (.v4 .loopback 0) 0,
    .receive 1 (Message.hello "svc" none).bytes 0, .readNext 1 0,
    .receive 0 ((Message.hello "clients" none).bytes ++ patientAsk.message.bytes) 0, .readNext 0 0,
    .readNext 0 0, .sweep 1000000000, .readNext 1 1000000000,
    .receive 1 (Message.reply ⟨1⟩ ⟨#[2]⟩).bytes 1000000000, .readNext 1 1000000000]

/-- The route of the request. -/
def outrunRoute : Route := ⟨⟨1⟩, 2, ⟨1⟩, 1, 1000000000⟩

/-- What becomes of the link, of the routes and of the answer in this run. -/
theorem outrunRun_course :
    ((stateAt {} outrunRun 7).link? 0).map
        (fun link => (link.id, link.phase, link.decoder.buffer)) =
          some (0, .reading, patientAsk.message.bytes ++ ByteArray.empty) ∧
      (stateAt {} outrunRun 7).router.routes = [] ∧
      (stateAt {} outrunRun 8).router.routes = [outrunRoute] ∧
      (stateAt {} outrunRun 9).router.routes = [] ∧
      (stateAt {} outrunRun 11).router.stats.repliesDropped = 0 ∧
      (stateAt {} outrunRun 12).router.stats.repliesDropped = 1 := by
  decide +kernel

theorem passedOn_outrunRun : PassedOn patientAsk 0 {} outrunRun 7 0 outrunRoute where
  started := by decide +kernel
  read := by
    obtain ⟨link, hlink, hparts⟩ := Option.map_eq_some_iff.1 outrunRun_course.1
    simp only [Prod.mk.injEq] at hparts
    obtain ⟨hid, hphase, hbuffer⟩ := hparts
    have hqueue : patientAsk.begun.2.queue =
        patientAsk.conn.queue.push ⟨some 0, patientAsk.message.bytes⟩ := by decide +kernel
    refine ⟨_, _, link, hqueue, ?_, hphase, hbuffer, ?_⟩
    · rw [hid]
      exact hlink
    · rw [hid]
      rfl
  fresh := by
    rw [outrunRun_course.2.1]
    exact List.not_mem_nil
  known := by
    rw [outrunRun_course.2.2.1]
    exact List.mem_singleton_self _

/-- The caller waits for nearly a millisecond more than the route lives. -/
theorem lifetime_of_outrunRun :
    PassedOn patientAsk 0 {} outrunRun 7 0 outrunRoute ∧
      patientAsk.timeout.nanos ≤ Router.maxRouteLifetime.nanos ∧
      Lifetime patientAsk 0 {} outrunRun 7 0 outrunRoute :=
  have hlimit : patientAsk.timeout.nanos ≤ Router.maxRouteLifetime.nanos := by decide
  ⟨passedOn_outrunRun, hlimit, lifetime_of_passedOn passedOn_outrunRun hlimit (Nat.le_refl 0)⟩

/-- In this run the route is swept while the caller waits, and the answer that comes then reaches
nobody. -/
theorem swept_of_outrunRun :
    PassedOn patientAsk 0 {} outrunRun 7 0 outrunRoute ∧
      outrunRun[8]? = some (.sweep 1000000000) ∧
      outrunRoute ∈ (stateAt {} outrunRun 8).router.routes ∧
      outrunRoute ∉ (stateAt {} outrunRun 9).router.routes ∧
      ¬ patientAsk.patience ≤ 1000000000 ∧
      (∃ call ∈ patientAsk.begun.2.calls, call.key = 0 ∧
        (patientAsk.begun.2.poll call 1000000000).1 = none) ∧
      (stateAt {} outrunRun 11).router.stats.repliesDropped = 0 ∧
      (stateAt {} outrunRun 12).router.stats.repliesDropped = 1 :=
  have ⟨_, _, hbefore, hafter, hkept, hdropped⟩ := outrunRun_course
  ⟨passedOn_outrunRun, rfl, hbefore ▸ List.mem_singleton_self _,
    hafter ▸ List.not_mem_nil, by decide, by decide +kernel, hkept, hdropped⟩

end Relay

end Switchboard
