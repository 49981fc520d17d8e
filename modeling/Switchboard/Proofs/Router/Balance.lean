import Mathlib.Data.List.Basic
import Switchboard.Proofs.Router.Registry

/-!
# The books of a router

A router counts the requests that it has passed on and those that it has refused, the answers that
it has passed back, and the routes whose time was over. What an operation enters in these books is
said once for each operation (`Booked`). Along a run the books balance (`balanced_stateAt`): every
request is counted once, and every request that was passed on is being served still, or its route
was closed by exactly one departure, answer or sweep.
-/

namespace Switchboard

namespace Router

/-! ## What an answer leaves in the books -/

/-- Two routers whose books differ at most in the answers that reached nobody. -/
structure SameBooks (before after : Router) : Prop where
  requestsRouted : after.stats.requestsRouted = before.stats.requestsRouted
  requestsRejected : after.stats.requestsRejected = before.stats.requestsRejected
  repliesRouted : after.stats.repliesRouted = before.stats.repliesRouted
  routesExpired : after.stats.routesExpired = before.stats.routesExpired

namespace SameBooks

theorem of_stats {before after : Router} (h : after.stats = before.stats) :
    SameBooks before after := by
  constructor <;> rw [h]

theorem refl (router : Router) : SameBooks router router := of_stats rfl

theorem symm {before after : Router} (h : SameBooks before after) : SameBooks after before where
  requestsRouted := h.requestsRouted.symm
  requestsRejected := h.requestsRejected.symm
  repliesRouted := h.repliesRouted.symm
  routesExpired := h.routesExpired.symm

theorem trans {a b c : Router} (hab : SameBooks a b) (hbc : SameBooks b c) : SameBooks a c where
  requestsRouted := hbc.requestsRouted.trans hab.requestsRouted
  requestsRejected := hbc.requestsRejected.trans hab.requestsRejected
  repliesRouted := hbc.repliesRouted.trans hab.repliesRouted
  routesExpired := hbc.routesExpired.trans hab.routesExpired

/-- Books that agree in the answers that reached nobody agree in all. -/
theorem stats_eq {before after : Router} (h : SameBooks before after)
    (hdropped : after.stats.repliesDropped = before.stats.repliesDropped) :
    after.stats = before.stats := by
  obtain ⟨hrouted, hrejected, hreplied, hexpired⟩ := h
  cases hbefore : before.stats
  cases hafter : after.stats
  rw [hbefore, hafter] at hrouted hrejected hreplied hexpired hdropped
  rw [RouterStats.mk.injEq]
  exact ⟨hrouted, hreplied, hrejected, hdropped, hexpired⟩

end SameBooks

theorem stats_push {router next : Router} {id : MemberId} {message : Message}
    (h : router.push id message = .ok next) : next.stats = router.stats := by
  obtain ⟨outbox, -, hok⟩ := push_eq_ok_of_room message (room_pos_of_push_eq_ok h)
  rw [h] at hok
  cases hok
  rfl

theorem sameBooks_deliver (router : Router) (id : MemberId) (message : Message) :
    SameBooks router (router.deliver id message).2 := by
  rw [deliver]
  split
  · rename_i next hpush
    exact .of_stats (stats_push hpush)
  · exact ⟨rfl, rfl, rfl, rfl⟩

theorem sameBooks_reportLost (router : Router) (routes : List Route) :
    SameBooks router (router.reportLost routes) := by
  induction routes generalizing router with
  | nil => exact .refl router
  | cons route routes ih => exact (sameBooks_deliver router _ _).trans (ih _)

theorem sameBooks_leave (router : Router) (id : MemberId) :
    SameBooks router (router.leave id).2 := by
  cases hmember : router.member? id with
  | none =>
      rw [leave_of_not_member hmember]
      exact .refl router
  | some member =>
      have hwithout : SameBooks router (router.withoutMember member) := .of_stats rfl
      rw [leave_of_member hmember]
      exact hwithout.trans (sameBooks_reportLost _ _)

theorem stats_hangUp (router : Router) (id : MemberId) :
    (router.hangUp id).stats = router.stats := by
  rw [hangUp]
  split <;> rfl

theorem stats_drain (router : Router) (id : MemberId) (limit : Option Nat) :
    (router.drain id limit).2.stats = router.stats := by
  rw [drain]
  split
  · rfl
  · split <;> rfl

/-! ## What a request and an answer enter -/

/-- Counts a request that was passed on. -/
def countRouted (router : Router) : Router :=
  router.count fun stats => { stats with requestsRouted := stats.requestsRouted + 1 }

/-- Counts a request that the router answers itself. -/
def countRejected (router : Router) : Router :=
  router.count fun stats => { stats with requestsRejected := stats.requestsRejected + 1 }

/-- Counts an answer that was passed back. -/
def countReplied (router : Router) : Router :=
  router.count fun stats => { stats with repliesRouted := stats.repliesRouted + 1 }

/-- A request is counted as passed on if the member whose turn it is has room for it. Otherwise it
is counted as refused. -/
theorem books_routeRequest (router : Router) (origin : MemberId) (id : RequestId) (cluster : String)
    (timeout : Duration) (payload : ByteArray) (now : Instant) :
    (∃ target, router.turn? cluster = some target ∧ 0 < router.room target ∧
      SameBooks router.countRouted
        (router.routeRequest origin id cluster timeout payload now)) ∨
    ((∀ target, router.turn? cluster = some target → router.room target = 0) ∧
      SameBooks router.countRejected
        (router.routeRequest origin id cluster timeout payload now)) := by
  obtain ⟨rosters, -, hrequest⟩ :=
    router.routeRequest_eq origin id cluster timeout payload now
  rw [hrequest]
  cases hturn : router.turn? cluster with
  | none =>
      right
      refine ⟨fun target htarget => (nomatch htarget), ?_⟩
      have hcounted : SameBooks router.countRejected
          (countRejected { router with rosters }) := .of_stats rfl
      exact hcounted.trans (sameBooks_deliver _ _ _)
  | some target =>
      simp only
      generalize router.routeFor origin id target timeout now = route
      split
      · rename_i next hpush
        have hroom : 0 < (router.opened rosters route).room target := room_pos_of_push_eq_ok hpush
        left
        refine ⟨target, rfl, hroom, .of_stats ?_⟩
        show RouterStats.mk _ _ _ _ _ = RouterStats.mk _ _ _ _ _
        rw [stats_push hpush]
        rfl
      · rename_i fault hpush
        right
        refine ⟨?_, ?_⟩
        · rintro other ⟨⟩
          have hfull : (router.opened rosters route).room target = 0 :=
            room_eq_zero_of_push_eq_error hpush
          exact hfull
        · have hcounted : SameBooks router.countRejected (countRejected
              ((router.opened rosters route).eraseRoute ⟨router.nextRoute⟩)) := .of_stats rfl
          exact hcounted.trans (sameBooks_deliver _ _ _)

/-- An answer that closes a route may be counted as passed back. -/
theorem books_answer (router : Router) (route : Route) (message : Message) :
    SameBooks router (router.answer route message) ∨
      SameBooks router.countReplied (router.answer route message) := by
  rw [answer]
  split
  · exact Or.inl (.refl router)
  · rename_i reply hreply
    have hbooks := sameBooks_deliver router route.origin reply
    split
    · rename_i next hnext
      rw [hnext] at hbooks
      right
      refine ⟨hbooks.requestsRouted, hbooks.requestsRejected, ?_, hbooks.routesExpired⟩
      exact congrArg (· + 1) hbooks.repliesRouted
    · rename_i next hnext
      rw [hnext] at hbooks
      exact Or.inl hbooks

/-! ## What each operation closes -/

/-- The number of routes that a departure reports. -/
def lostBy (router : Router) : Step → Nat
  | .leave id => (router.leave id).1
  | _ => 0

/-- The number of routes that a sweep reports. -/
def sweptBy (router : Router) : Step → Nat
  | .sweep now => (router.sweep now).1
  | _ => 0

/-- One for an answer that has removed a route. -/
def repliedBy (router : Router) : Step → Nat
  | .reply sender message =>
      if ∃ route ∈ router.routes, route ∉ (router.routeReply sender message).routes then 1 else 0
  | _ => 0

/-- What a step enters in the books. -/
structure Booked (before : Router) (step : Step) (after : Router) : Prop where
  requests : after.stats.requestsRouted + after.stats.requestsRejected =
    before.stats.requestsRouted + before.stats.requestsRejected + if step.isRequest then 1 else 0
  /-- The routes behind the step and those that it has closed are the routes before it and those
  that it has opened. -/
  routes : after.routeCount + before.lostBy step + before.repliedBy step + before.sweptBy step +
    before.stats.requestsRouted = before.routeCount + after.stats.requestsRouted
  expired : after.stats.routesExpired = before.stats.routesExpired + before.sweptBy step
  replies : after.stats.repliesRouted ≤ before.stats.repliesRouted + before.repliedBy step

variable {router : Router}

/-- A step that is no request, and is told by the routes that it closes. -/
theorem Booked.of_sameBooks {step : Step} {after : Router} (hbooks : SameBooks router after)
    (hrequest : step.isRequest = false) (hswept : router.sweptBy step = 0)
    (hroutes : after.routeCount + router.lostBy step + router.repliedBy step = router.routeCount) :
    Booked router step after where
  requests := by
    rw [hbooks.requestsRouted, hbooks.requestsRejected, hrequest]
    rfl
  routes := by
    rw [hbooks.requestsRouted, hswept]
    omega
  expired := by rw [hbooks.routesExpired, hswept, Nat.add_zero]
  replies := by
    rw [hbooks.repliesRouted]
    exact Nat.le_add_right _ _

theorem booked_leave (router : Router) (id : MemberId) :
    Booked router (.leave id) (router.leave id).2 := by
  refine .of_sameBooks (sameBooks_leave router id) rfl rfl ?_
  show (router.leave id).2.routes.length + (router.leave id).1 + 0 = router.routes.length
  cases hmember : router.member? id with
  | none => rw [leave_of_not_member hmember, Nat.add_zero, Nat.add_zero]
  | some member =>
      -- The routes that touch the member are counted, the others stay.
      have hgone : (router.leave id).1 = (router.routes.filter (Route.touches · id)).length := by
        rw [leave, hmember]
        simp only [List.partition_eq_filter_filter]
      have hall := router.routes.length_eq_length_filter_add (Route.touches · id)
      rw [routes_leave hmember, hgone]
      omega

theorem booked_sweep (router : Router) (now : Instant) :
    Booked router (.sweep now) (router.sweep now).2 where
  requests := rfl
  routes := by
    show (router.sweep now).2.routes.length + 0 + 0 + (router.sweep now).1 + _ =
        router.routes.length + _
    have hgone : (router.sweep now).1 =
        (router.routes.filter fun route => !decide (now < route.deadline)).length := by
      rw [sweep, List.partition_eq_filter_filter]
      rfl
    have hall := router.routes.length_eq_length_filter_add fun route =>
        decide (now < route.deadline)
    have hrouted : (router.sweep now).2.stats.requestsRouted = router.stats.requestsRouted := rfl
    rw [routes_sweep, hgone, hrouted]
    omega
  expired := rfl
  replies := Nat.le_add_right _ _

/-- Each request is counted once, and opens a route exactly if it is counted as passed on. -/
theorem booked_routeRequest (router : Router) (origin : MemberId) (id : RequestId)
    (cluster : String)
    (timeout : Duration) (payload : ByteArray) (now : Instant)
    (hfresh : (router.turn? cluster).isSome = true →
      ∀ route ∈ router.routes, route.id ≠ ⟨router.nextRoute⟩) :
    Booked router (.request origin id cluster timeout payload now)
      (router.routeRequest origin id cluster timeout payload now) := by
  have hbooks := router.books_routeRequest origin id cluster timeout payload now
  have heffect := router.routeRequest_effect origin id cluster timeout payload now
  generalize router.routeRequest origin id cluster timeout payload now = after at hbooks heffect ⊢
  rcases hbooks with ⟨target, hturn, hroom, hbooks⟩ | ⟨hroom, hbooks⟩
  · -- The request has been passed on, so one route is new.
    have hroutes : after.routes.length = router.routes.length + 1 := by
      cases heffect with
      | noMembers hnone => simp [hturn] at hnone
      | undelivered other fault hother hfull =>
          obtain rfl : target = other := Option.some.inj (hturn.symm.trans hother)
          omega
      | forwarded other hother hspace hroutes => simp [hroutes]
    constructor
    case requests =>
      rw [hbooks.requestsRouted, hbooks.requestsRejected]
      exact Nat.add_right_comm _ 1 _
    case routes =>
      rw [hbooks.requestsRouted, routeCount, hroutes]
      exact Nat.add_right_comm _ 1 _
    case expired => exact hbooks.routesExpired
    case replies => exact Nat.le_of_eq hbooks.repliesRouted
  · -- The request has been refused, and the routes are what they were.
    have hroutes : after.routes = router.routes := by
      cases heffect with
      | noMembers hnone hrefusal hroutes => exact hroutes
      | undelivered other fault hother hfull hrefusal hroutes =>
          exact hroutes (hfresh (by simp [hother]))
      | forwarded other hother hspace =>
          have hfull := hroom other hother
          omega
    constructor
    case requests =>
      rw [hbooks.requestsRouted, hbooks.requestsRejected]
      rfl
    case routes =>
      rw [hbooks.requestsRouted, routeCount, hroutes]
      rfl
    case expired => exact hbooks.routesExpired
    case replies => exact Nat.le_of_eq hbooks.repliesRouted

/-- A message in reply that leaves the routes as they are enters nothing but what reached nobody. -/
theorem booked_of_ignored {router after : Router} {sender : MemberId} {message : Message}
    (hreply : router.routeReply sender message = after) (hbooks : SameBooks router after)
    (hroutes : after.routes = router.routes) : Booked router (.reply sender message) after := by
  refine .of_sameBooks hbooks rfl rfl ?_
  have hnone : ¬ ∃ route ∈ router.routes, route ∉ (router.routeReply sender message).routes := by
    rintro ⟨route, hroute, hgone⟩
    rw [hreply, hroutes] at hgone
    exact hgone hroute
  have hreplied : router.repliedBy (.reply sender message) = 0 := if_neg hnone
  rw [routeCount, hroutes, hreplied]
  rfl

/-- An answer closes one route or none, and only one that closes a route is counted as passed
back. -/
theorem booked_routeReply (router : Router) (sender : MemberId) (message : Message)
    (hdistinct : (router.routes.map Route.id).Nodup) :
    Booked router (.reply sender message) (router.routeReply sender message) := by
  have hdropped : SameBooks router router.countDropped := ⟨rfl, rfl, rfl, rfl⟩
  cases hid : message.envelope.requestId? with
  | none =>
      have hsame : router.routeReply sender message = router := by simp only [routeReply, hid]
      rw [hsame]
      exact booked_of_ignored hsame (.refl router) rfl
  | some id =>
      cases hroute : router.route? id with
      | none =>
          have hsame : router.routeReply sender message = router.countDropped := by
            simp only [routeReply, hid, hroute]
          rw [hsame]
          exact booked_of_ignored hsame hdropped rfl
      | some route =>
          have hreply : router.routeReply sender message = _ := routeReply_of_route? hid hroute
          by_cases htarget : route.target = sender
          · rw [if_pos htarget] at hreply
            obtain rfl : route.id = id := Lookup.key_of_find? hroute
            have hmem : route ∈ router.routes := List.mem_of_find?_eq_some hroute
            -- No other route has the number of the one that is closed.
            have hroutes : (router.routeReply sender message).routes =
                router.routes.filter fun other => other.id ≠ route.id := by
              rw [hreply]
              exact (sameRegistry_answer _ route message).routes
            have hcount :
                router.routeCount = (router.routeReply sender message).routeCount + 1 := by
              rw [routeCount, routeCount, hroutes]
              exact (Lookup.perm_cons_filter hdistinct hmem).length_eq
            have hone : router.repliedBy (.reply sender message) = 1 := by
              refine if_pos ⟨route, hmem, ?_⟩
              simp [hroutes]
            have hbooks := books_answer (router.eraseRoute route.id) route message
            rw [← hreply] at hbooks
            rcases hbooks with hbooks | hbooks
            · constructor
              case requests =>
                rw [hbooks.requestsRouted, hbooks.requestsRejected]
                rfl
              case routes =>
                rw [hone, hcount, hbooks.requestsRouted]
                rfl
              case expired => exact hbooks.routesExpired
              case replies =>
                rw [hbooks.repliesRouted]
                exact Nat.le_add_right _ _
            · constructor
              case requests =>
                rw [hbooks.requestsRouted, hbooks.requestsRejected]
                rfl
              case routes =>
                rw [hone, hcount, hbooks.requestsRouted]
                rfl
              case expired => exact hbooks.routesExpired
              case replies =>
                rw [hbooks.repliesRouted, hone]
                rfl
          · rw [if_neg htarget] at hreply
            rw [hreply]
            exact booked_of_ignored hreply hdropped rfl

/-- Every step enters in the books what it does, as long as routes have numbers of their own. -/
theorem booked_perform (router : Router) (step : Step)
    (hdistinct : (router.routes.map Route.id).Nodup)
    (hfresh : step.drawsFrom router = true → ∀ route ∈ router.routes,
      route.id ≠ ⟨router.nextRoute⟩) :
    Booked router step (router.perform step) := by
  cases step with
  | join cluster capacity => exact .of_sameBooks (.of_stats rfl) rfl rfl rfl
  | leave id => exact booked_leave router id
  | request origin id cluster timeout payload now =>
      exact booked_routeRequest router origin id cluster timeout payload now hfresh
  | reply sender message => exact booked_routeReply router sender message hdistinct
  | sweep now => exact booked_sweep router now
  | hangUp id =>
      refine .of_sameBooks (.of_stats (stats_hangUp router id)) rfl rfl ?_
      exact congrArg List.length (sameRegistry_hangUp router id).routes
  | drain id limit =>
      refine .of_sameBooks (.of_stats (stats_drain router id limit)) rfl rfl ?_
      exact congrArg List.length (sameRegistry_drain router id limit).routes
  | reorder order =>
      refine .of_sameBooks (.of_stats ?_) rfl rfl ?_
      · exact apply_reorder stats (fun _ _ => rfl) router order
      · exact (router.perm_routes_reorder order).length_eq

/-! ## A whole run -/

/-- The sum over the first `i` steps of a run of what `f` tells of each. -/
def sumBefore (f : Router → Step → Nat) (steps : List Step) : Nat → Nat
  | 0 => 0
  | i + 1 => sumBefore f steps i + ((steps[i]?).map (f (stateAt steps i))).getD 0

variable {steps : List Step} {i : Nat}

theorem sumBefore_succ (f : Router → Step → Nat) {step : Step} (hstep : steps[i]? = some step) :
    sumBefore f steps (i + 1) = sumBefore f steps i + f (stateAt steps i) step := by
  rw [sumBefore, hstep, Option.map_some, Option.getD_some]

theorem sumBefore_succ_of_none (f : Router → Step → Nat) (hstep : steps[i]? = none) :
    sumBefore f steps (i + 1) = sumBefore f steps i := by
  rw [sumBefore, hstep, Option.map_none, Option.getD_none, Nat.add_zero]

theorem drawsBefore_mono (steps : List Step) (i : Nat) :
    drawsBefore steps i ≤ drawsBefore steps (i + 1) := Nat.le_add_right _ _

/-- As long as the numbers last, the number of the next route is new. -/
theorem fresh_stateAt {step : Step} (hdraws : drawsBefore steps (i + 1) < UInt64.size)
    (hstep : steps[i]? = some step) :
    step.drawsFrom (stateAt steps i) = true →
      ∀ route ∈ (stateAt steps i).routes, route.id ≠ ⟨(stateAt steps i).nextRoute⟩ := by
  intro hdraw route hroute hid
  obtain ⟨hbelow, hcount⟩ := drawn_stateAt ((drawsBefore_mono steps i).trans_lt hdraws)
  rw [drawsBefore, hstep, Option.any_some, if_pos hdraw, ← hcount] at hdraws
  have hle := hbelow route hroute
  rw [hid, toNat_of_handedOut hdraws] at hle
  omega

/-- A step that does not give a number twice keeps the numbers of routes apart. -/
theorem Orderly.distinct_perform {router : Router} {step : Step} (h : Orderly router)
    (hfresh : step.drawsFrom router = true →
      ∀ route ∈ router.routes, route.id ≠ ⟨router.nextRoute⟩) :
    ((router.perform step).routes.map Route.id).Nodup := by
  cases hrequest : step.isRequest with
  | false =>
      cases perform_effect step h (by simp [hrequest]) with
      | opened _ _ _ _ _ _ _ hstep => simp [hstep, Step.isRequest] at hrequest
      | closed hroutes => exact h.distinct_of_subperm hroutes
  | true =>
      cases step with
      | request origin id cluster timeout payload now =>
          show ((router.routeRequest origin id cluster timeout payload now).routes.map
              Route.id).Nodup
          cases router.routeRequest_effect origin id cluster timeout payload now with
          | noMembers hturn hrefusal hroutes => exact hroutes ▸ h.distinct
          | undelivered target fault hturn hroom hrefusal hroutes =>
              exact hroutes (hfresh (by simp [Step.drawsFrom, hturn])) ▸ h.distinct
          | forwarded target hturn hroom hroutes =>
              rw [hroutes]
              exact Lookup.nodup_snoc h.distinct (hfresh (by simp [Step.drawsFrom, hturn]))
      | _ => cases hrequest

/-- As long as the numbers last, the routes of a run are in order. -/
theorem orderly_of_draws (hdraws : drawsBefore steps i < UInt64.size) :
    Orderly (stateAt steps i) where
  below := (drawn_stateAt hdraws).1
  distinct := by
    induction i with
    | zero => exact List.nodup_nil
    | succ i ih =>
        have hbefore := (drawsBefore_mono steps i).trans_lt hdraws
        cases hstep : steps[i]? with
        | none =>
            rw [stateAt_succ_of_none hstep]
            exact ih hbefore
        | some step =>
            rw [stateAt_succ hstep]
            have horderly : Orderly (stateAt steps i) := ⟨(drawn_stateAt hbefore).1, ih hbefore⟩
            exact horderly.distinct_perform (fresh_stateAt hdraws hstep)

/-- Every step of a run enters in the books what it does. -/
theorem booked_stateAt {step : Step} (hdraws : drawsBefore steps (i + 1) < UInt64.size)
    (hstep : steps[i]? = some step) : Booked (stateAt steps i) step (stateAt steps (i + 1)) := by
  have horderly := orderly_of_draws ((drawsBefore_mono steps i).trans_lt hdraws)
  rw [stateAt_succ hstep]
  exact booked_perform _ step horderly.distinct (fresh_stateAt hdraws hstep)

/-- The books behind the first `i` steps of a run, beside what the steps have reported. -/
structure Balanced (steps : List Step) (i : Nat) : Prop where
  /-- Every request was passed on or refused. -/
  requests : requestsBefore steps i =
    (stateAt steps i).stats.requestsRouted + (stateAt steps i).stats.requestsRejected
  /-- Every request that was passed on is being served, or its route was closed once: by a sweep, by
  a departure or by an answer. -/
  routes : (stateAt steps i).stats.requestsRouted =
    (stateAt steps i).routeCount + (stateAt steps i).stats.routesExpired +
      sumBefore lostBy steps i + sumBefore repliedBy steps i
  /-- What has expired is what the sweeps have reported. -/
  expired : (stateAt steps i).stats.routesExpired = sumBefore sweptBy steps i
  /-- No more answers were passed back than requests were passed on. -/
  replies : (stateAt steps i).stats.repliesRouted ≤ (stateAt steps i).stats.requestsRouted

/-- Only answers that have closed a route were passed back. -/
theorem repliesRouted_le (hdraws : drawsBefore steps i < UInt64.size) :
    (stateAt steps i).stats.repliesRouted ≤ sumBefore repliedBy steps i := by
  induction i with
  | zero => exact Nat.le_refl 0
  | succ i ih =>
      have hbefore := ih ((drawsBefore_mono steps i).trans_lt hdraws)
      cases hstep : steps[i]? with
      | none =>
          rw [stateAt_succ_of_none hstep, sumBefore_succ_of_none repliedBy hstep]
          exact hbefore
      | some step =>
          rw [sumBefore_succ repliedBy hstep]
          exact (booked_stateAt hdraws hstep).replies.trans (Nat.add_le_add_right hbefore _)

/-- In every run in which the numbers of routes do not run out, the books balance behind every
step. -/
theorem balanced_stateAt (steps : List Step) (i : Nat)
    (hdraws : drawsBefore steps i < UInt64.size) :
    Balanced steps i := by
  induction i with
  | zero => constructor <;> rfl
  | succ i ih =>
      have hbefore := ih ((drawsBefore_mono steps i).trans_lt hdraws)
      have hreplied := repliesRouted_le hdraws
      cases hstep : steps[i]? with
      | none =>
          have hrequests : requestsBefore steps (i + 1) = requestsBefore steps i := by
            simp [requestsBefore, List.take_add_one, hstep]
          have hsum := fun f => sumBefore_succ_of_none f hstep
          constructor
          · rw [hrequests, stateAt_succ_of_none hstep]
            exact hbefore.requests
          · rw [hsum, hsum, stateAt_succ_of_none hstep]
            exact hbefore.routes
          · rw [hsum, stateAt_succ_of_none hstep]
            exact hbefore.expired
          · rw [stateAt_succ_of_none hstep]
            exact hbefore.replies
      | some step =>
          have hbooked := booked_stateAt hdraws hstep
          have hrouted : (stateAt steps (i + 1)).stats.requestsRouted =
              (stateAt steps (i + 1)).routeCount + (stateAt steps (i + 1)).stats.routesExpired +
                sumBefore lostBy steps (i + 1) + sumBefore repliedBy steps (i + 1) := by
            have hroutes := hbooked.routes
            have hall := hbefore.routes
            have hexpired := hbooked.expired
            rw [sumBefore_succ lostBy hstep, sumBefore_succ repliedBy hstep]
            omega
          constructor
          · rw [requestsBefore_succ hstep, hbooked.requests, hbefore.requests]
          · exact hrouted
          · rw [sumBefore_succ sweptBy hstep, hbooked.expired, hbefore.expired]
          · -- An answer that was passed back has closed a route that was opened.
            rw [hrouted]
            exact hreplied.trans (Nat.le_add_left _ _)

/-- Requests that are refused for want of members and of room, one that a member makes of itself and
leaves unanswered, one that is answered, one that is swept, and a reply to nothing. -/
def variedRun : List Step :=
  [.join "clients" 8, .join "svc" 3, .request 1 ⟨1⟩ "none" (.ofMillis 5) ⟨#[1]⟩ 0,
    .request 1 ⟨2⟩ "svc" (.ofMillis 5) ⟨#[2]⟩ 0, .request 2 ⟨3⟩ "svc" (.ofMillis 50) ⟨#[3]⟩ 0,
    .request 1 ⟨4⟩ "svc" (.ofMillis 50) ⟨#[4]⟩ 0, .request 1 ⟨5⟩ "svc" (.ofMillis 5) ⟨#[5]⟩ 0,
    .reply 2 (.reply ⟨3⟩ ⟨#[6]⟩), .reply 2 (.reply ⟨3⟩ ⟨#[7]⟩), .sweep 5000000, .leave 2]

/-- Of its five requests three were passed on: one has expired, one was answered, and the one that
the member made of itself was lost with it, and is counted once. -/
theorem balanced_of_variedRun :
    drawsBefore variedRun 11 < UInt64.size ∧ requestsBefore variedRun 11 = 5 ∧
      (stateAt variedRun 11).stats = ⟨3, 1, 2, 1, 1⟩ ∧ sumBefore lostBy variedRun 11 = 1 ∧
      Balanced variedRun 11 := by
  have hdraws : drawsBefore variedRun 11 < UInt64.size := by decide +kernel
  exact ⟨hdraws, by decide, by decide +kernel, by decide +kernel,
    balanced_stateAt variedRun 11 hdraws⟩

end Router

end Switchboard
