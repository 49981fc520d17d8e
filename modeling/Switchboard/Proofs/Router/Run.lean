import Mathlib.Algebra.Order.Ring.Nat
import Mathlib.Data.List.Nodup
import Mathlib.Data.List.Perm.Subperm
import Mathlib.Tactic.Choose
import Switchboard.Proofs.Router.Operations

/-!
# Runs of a router

A run is any sequence of operations with any arguments, from a new router on. Operations are taken
whole: each has come to its end before the next begins. Tasks that use one router at the same time
may find it between two parts of an operation, of which nothing is said here.

A router knows its routes by their numbers, and the order in which it goes through them when a
member leaves is nothing that anybody can rely on, so a run may put the routes into any other order
between two operations (`reorder`). The routes of a run are numbered in the order in which they are
opened. As long as the numbers do not wrap, each route that a router knows was opened by exactly one
step of the run (`exists_forwarded_of_mem`, `Forwarded.unique`) and has been known ever since
(`mem_routes_of_le`).
-/

namespace Switchboard

namespace Router

/-- The router with its routes in the given order. -/
def arrange (router : Router) (order : List Route) : Router := { router with routes := order }

/-- The routes are put into another order, if they are the routes of the router. -/
def reorder (router : Router) (order : List Route) : Router :=
  if order.Perm router.routes then router.arrange order else router

/-- Whatever order is asked for, the routes stay the same. -/
theorem perm_routes_reorder (router : Router) (order : List Route) :
    (router.reorder order).routes.Perm router.routes := by
  unfold reorder
  split
  · rename_i horder
    exact horder
  · exact .refl _

/-- Nothing but the order of the routes changes. -/
theorem reorder_eq (router : Router) (order : List Route) :
    router.reorder order = router.arrange (router.reorder order).routes := by
  unfold reorder
  split <;> rfl

/-- What is not told by routes stays the same. -/
theorem apply_reorder {α : Type} (f : Router → α)
    (hf : ∀ (router : Router) (order : List Route), f (router.arrange order) = f router)
    (router : Router) (order : List Route) : f (router.reorder order) = f router := by
  rw [reorder_eq, hf]

/-- One operation on a router, or another order of its routes. -/
inductive Step where
  | join (cluster : String) (capacity : Nat)
  | leave (id : MemberId)
  | request (origin : MemberId) (id : RequestId) (cluster : String) (timeout : Duration)
      (payload : ByteArray) (now : Instant)
  | reply (sender : MemberId) (message : Message)
  | sweep (now : Instant)
  | hangUp (id : MemberId)
  | drain (id : MemberId) (limit : Option Nat)
  | reorder (order : List Route)

namespace Step

/-- Whether an operation is a request. -/
def isRequest : Step → Bool
  | request .. => true
  | _ => false

/-- Whether an operation takes messages out of an outbox. -/
def isReading : Step → Bool
  | hangUp _ => true
  | drain .. => true
  | _ => false

end Step

/-- The router behind an operation. -/
def perform (router : Router) : Step → Router
  | .join cluster capacity => (router.join cluster capacity).2
  | .leave id => (router.leave id).2
  | .request origin id cluster timeout payload now =>
      router.routeRequest origin id cluster timeout payload now
  | .reply sender message => router.routeReply sender message
  | .sweep now => (router.sweep now).2
  | .hangUp id => router.hangUp id
  | .drain id limit => (router.drain id limit).2
  | .reorder order => router.reorder order

/-- The router behind a run. -/
def run (steps : List Step) : Router := steps.foldl perform .new

/-- The router behind the first `i` operations of a run. -/
def stateAt (steps : List Step) (i : Nat) : Router := run (steps.take i)

/-- How many of the first `i` operations of a run are requests. -/
def requestsBefore (steps : List Step) (i : Nat) : Nat := (steps.take i).countP Step.isRequest

theorem stateAt_succ {steps : List Step} {i : Nat} {step : Step} (h : steps[i]? = some step) :
    stateAt steps (i + 1) = (stateAt steps i).perform step := by
  unfold stateAt run
  rw [List.take_add_one, h, List.foldl_append]
  rfl

theorem stateAt_succ_of_none {steps : List Step} {i : Nat} (h : steps[i]? = none) :
    stateAt steps (i + 1) = stateAt steps i := by
  unfold stateAt
  rw [List.take_add_one, h, Option.toList_none, List.append_nil]

theorem requestsBefore_succ {steps : List Step} {i : Nat} {step : Step}
    (h : steps[i]? = some step) :
    requestsBefore steps (i + 1) = requestsBefore steps i + if step.isRequest then 1 else 0 := by
  unfold requestsBefore
  rw [List.take_add_one, h, Option.toList_some, List.countP_append, List.countP_singleton]

theorem requestsBefore_le (steps : List Step) (i : Nat) :
    requestsBefore steps i ≤ steps.countP Step.isRequest :=
  (List.take_sublist i steps).countP_le

/-! ## The numbers of routes -/

/-- How many numbers a counter has handed out that began with one. -/
def handedOut (next : UInt64) : Nat := (next - 1).toNat

theorem toNat_of_handedOut {next : UInt64} (h : handedOut next + 1 < UInt64.size) :
    next.toNat = handedOut next + 1 := by
  calc next.toNat = (next - 1 + 1).toNat := by rw [UInt64.sub_add_cancel]
    _ = ((next - 1).toNat + 1) % UInt64.size := UInt64.toNat_add _ _
    _ = handedOut next + 1 := Nat.mod_eq_of_lt h

theorem handedOut_succ {next : UInt64} (h : handedOut next + 1 < UInt64.size) :
    handedOut (next + 1) = handedOut next + 1 := by
  rw [← toNat_of_handedOut h, handedOut, UInt64.add_sub_cancel]

theorem handedOut_one : handedOut 1 = 0 := by decide

/-- How many routes a router has opened, as its counter tells. -/
def routesOpened (router : Router) : Nat := (router.nextRoute - 1).toNat

/-- The routes of a router have different numbers, none of them beyond the number of routes that it
has opened. -/
structure Orderly (router : Router) : Prop where
  below : ∀ route ∈ router.routes, route.id.value.toNat ≤ router.routesOpened
  distinct : (router.routes.map Route.id).Nodup

theorem orderly_new : Orderly .new where
  below := by intro route hroute; cases hroute
  distinct := List.nodup_nil

theorem routesOpened_new : routesOpened .new = 0 := handedOut_one

theorem toNat_nextRoute {router : Router} (h : router.routesOpened + 1 < UInt64.size) :
    router.nextRoute.toNat = router.routesOpened + 1 := toNat_of_handedOut h

theorem routesOpened_of_next {before after : Router}
    (h : before.routesOpened + 1 < UInt64.size) (hnext : after.nextRoute = before.nextRoute + 1) :
    after.routesOpened = before.routesOpened + 1 := by
  unfold routesOpened
  rw [hnext]
  exact handedOut_succ h

theorem routesOpened_of_eq {before after : Router} (hnext : after.nextRoute = before.nextRoute) :
    after.routesOpened = before.routesOpened := by
  unfold routesOpened
  rw [hnext]

namespace Orderly

/-- The number of the next route is new. -/
theorem fresh {router : Router} (h : Orderly router)
    (hsize : router.routesOpened + 1 < UInt64.size) :
    ∀ route ∈ router.routes, route.id ≠ ⟨router.nextRoute⟩ := by
  intro route hroute hid
  have hbelow := h.below route hroute
  rw [hid, toNat_nextRoute hsize] at hbelow
  omega

/-- Where no route is opened, whatever order the routes are in, their numbers are different ones. -/
theorem distinct_of_subperm {before after : Router} (h : Orderly before)
    (hroutes : after.routes.Subperm before.routes) : (after.routes.map Route.id).Nodup := by
  obtain ⟨kept, hperm, hsublist⟩ := hroutes
  exact (hperm.map Route.id).nodup_iff.1 (h.distinct.sublist (hsublist.map Route.id))

/-- Closing routes leaves the others in order. -/
theorem of_subperm {before after : Router} (h : Orderly before)
    (hroutes : after.routes.Subperm before.routes)
    (hopened : before.routesOpened ≤ after.routesOpened) : Orderly after where
  below := fun route hroute => (h.below route (hroutes.subset hroute)).trans hopened
  distinct := h.distinct_of_subperm hroutes

/-- A route is found by its number. -/
theorem route?_of_mem {router : Router} (h : Orderly router) {route : Route}
    (hroute : route ∈ router.routes) : router.route? route.id = some route :=
  Lookup.find?_eq_some_of_mem h.distinct hroute

end Orderly

/-! ## One step -/

/-- What a step of a run does to the routes: it opens one, or it closes some. -/
inductive RoutesEffect (before after : Router) (step : Step) : Prop where
  /-- A request is passed on under a new route. -/
  | opened (origin : MemberId) (id : RequestId) (cluster : String) (timeout : Duration)
      (payload : ByteArray) (now : Instant) (target : MemberId)
      (hstep : step = .request origin id cluster timeout payload now)
      (hturn : before.turn? cluster = some target) (hroom : 0 < before.room target)
      (hroutes : after.routes = before.routes ++ [before.routeFor origin id target timeout now])
      (hqueued : after.queued target = before.queued target ++
        [.request ⟨before.nextRoute⟩ cluster timeout.wireMillis payload])
      (hnext : after.nextRoute = before.nextRoute + 1)
  /-- No route is opened. -/
  | closed (hroutes : after.routes.Subperm before.routes)
      (hnext : after.nextRoute = before.nextRoute ∨
        step.isRequest = true ∧ after.nextRoute = before.nextRoute + 1)

/-- Every step has one of the two effects, where the number of the next route is new. -/
theorem perform_effect {router : Router} (step : Step) (h : Orderly router)
    (hsize : step.isRequest = true → router.routesOpened + 1 < UInt64.size) :
    RoutesEffect router (router.perform step) step := by
  cases step with
  | join cluster capacity => exact .closed (.refl _) (.inl rfl)
  | leave id =>
      refine .closed ?_ (.inl (nextRoute_leave router id))
      show (router.leave id).2.routes.Subperm router.routes
      cases hmember : router.member? id with
      | none => rw [leave_of_not_member hmember]
      | some member =>
          rw [routes_leave hmember]
          exact List.filter_sublist.subperm
  | request origin id cluster timeout payload now =>
      have heffect := routeRequest_effect router origin id cluster timeout payload now
      cases heffect with
      | noMembers hturn hrefusal hroutes hnext =>
          exact .closed (by rw [perform, hroutes]) (.inl hnext)
      | undelivered target fault hturn hroom hrefusal hroutes hnext =>
          -- The route that was opened is taken away again, and it is the only one of its number.
          exact .closed (by rw [perform, hroutes (h.fresh (hsize rfl))]) (.inr ⟨rfl, hnext⟩)
      | forwarded target hturn hroom hroutes hqueued hnext =>
          refine .opened origin id cluster timeout payload now target rfl hturn hroom hroutes
            ?_ hnext
          have htarget := hqueued target
          rwa [if_pos rfl] at htarget
  | reply sender message =>
      refine .closed ?_ (.inl (nextRoute_routeReply router sender message))
      show (router.routeReply sender message).routes.Subperm router.routes
      cases routeReply_effect router sender message with
      | ignored hroutes hqueued => rw [hroutes]
      | closed route hquoted hroute htarget hroutes hqueued =>
          rw [hroutes]
          exact List.filter_sublist.subperm
  | sweep now =>
      refine .closed ?_ (.inl rfl)
      show (router.sweep now).2.routes.Subperm router.routes
      rw [routes_sweep]
      exact List.filter_sublist.subperm
  | hangUp id =>
      have hsame := sameRegistry_hangUp router id
      exact .closed (by rw [perform, hsame.routes]) (.inl hsame.nextRoute)
  | drain id limit =>
      have hsame := sameRegistry_drain router id limit
      exact .closed (by rw [perform, hsame.routes]) (.inl hsame.nextRoute)
  | reorder order =>
      exact .closed (router.perm_routes_reorder order).subperm
        (.inl (apply_reorder nextRoute (fun _ _ => rfl) router order))

theorem routesOpened_perform {router : Router} (step : Step) (h : Orderly router)
    (hsize : step.isRequest = true → router.routesOpened + 1 < UInt64.size) :
    router.routesOpened ≤ (router.perform step).routesOpened ∧
      (router.perform step).routesOpened ≤
        router.routesOpened + if step.isRequest then 1 else 0 := by
  cases perform_effect step h hsize with
  | opened origin id cluster timeout payload now target hstep hturn hroom hroutes hqueued hnext =>
      subst hstep
      rw [routesOpened_of_next (hsize rfl) hnext]
      exact ⟨Nat.le_succ _, Nat.le_refl _⟩
  | closed hroutes hnext =>
      rcases hnext with hnext | ⟨hrequest, hnext⟩
      · rw [routesOpened_of_eq hnext]
        exact ⟨Nat.le_refl _, Nat.le_add_right _ _⟩
      · rw [routesOpened_of_next (hsize hrequest) hnext, if_pos hrequest]
        exact ⟨Nat.le_succ _, Nat.le_refl _⟩

theorem orderly_perform {router : Router} (step : Step) (h : Orderly router)
    (hsize : step.isRequest = true → router.routesOpened + 1 < UInt64.size) :
    Orderly (router.perform step) := by
  have hopened := (routesOpened_perform step h hsize).1
  cases perform_effect step h hsize with
  | opened origin id cluster timeout payload now target hstep hturn hroom hroutes hqueued hnext =>
      subst hstep
      have hfresh := h.fresh (hsize rfl)
      have hnumber := toNat_nextRoute (hsize rfl)
      have hopenedNext := routesOpened_of_next (hsize rfl) hnext
      constructor
      · intro route hroute
        rw [hroutes, List.mem_append, List.mem_singleton] at hroute
        rcases hroute with hroute | rfl
        · exact (h.below route hroute).trans hopened
        · rw [hopenedNext]
          exact hnumber.le
      · rw [hroutes]
        exact Lookup.nodup_snoc h.distinct hfresh
  | closed hroutes hnext => exact h.of_subperm hroutes hopened

/-! ## A whole run -/

section Run

variable {steps : List Step} (hsteps : steps.countP Step.isRequest < UInt64.size)

include hsteps

/-- Along a run the routes stay in order, and no more of them are opened than requests were made. -/
theorem orderly_stateAt (i : Nat) :
    Orderly (stateAt steps i) ∧ (stateAt steps i).routesOpened ≤ requestsBefore steps i := by
  induction i with
  | zero => exact ⟨orderly_new, Nat.le_of_eq routesOpened_new⟩
  | succ i ih =>
      obtain ⟨horderly, hopened⟩ := ih
      cases hstep : steps[i]? with
      | none =>
          have hrequests : requestsBefore steps (i + 1) = requestsBefore steps i := by
            unfold requestsBefore
            rw [List.take_add_one, hstep, Option.toList_none, List.append_nil]
          rw [stateAt_succ_of_none hstep, hrequests]
          exact ⟨horderly, hopened⟩
      | some step =>
          have hcount := requestsBefore_succ hstep
          have htotal := requestsBefore_le steps (i + 1)
          have hsize : step.isRequest = true →
              (stateAt steps i).routesOpened + 1 < UInt64.size := by
            intro hrequest
            rw [if_pos hrequest] at hcount
            omega
          rw [stateAt_succ hstep, hcount]
          refine ⟨orderly_perform step horderly hsize, ?_⟩
          exact (routesOpened_perform step horderly hsize).2.trans (by omega)

/-- There is a number for each route that a run opens. -/
theorem size_of_request {i : Nat} {step : Step} (hstep : steps[i]? = some step) :
    step.isRequest = true → (stateAt steps i).routesOpened + 1 < UInt64.size := by
  intro hrequest
  have hcount := requestsBefore_succ hstep
  have htotal := requestsBefore_le steps (i + 1)
  have hopened := (orderly_stateAt hsteps i).2
  rw [if_pos hrequest] at hcount
  omega

theorem stateAt_effect {i : Nat} {step : Step} (hstep : steps[i]? = some step) :
    RoutesEffect (stateAt steps i) (stateAt steps (i + 1)) step := by
  rw [stateAt_succ hstep]
  exact perform_effect step (orderly_stateAt hsteps i).1 (size_of_request hsteps hstep)

theorem routesOpened_mono {i j : Nat} (hij : i ≤ j) :
    (stateAt steps i).routesOpened ≤ (stateAt steps j).routesOpened := by
  induction j, hij using Nat.le_induction with
  | base => exact Nat.le_refl _
  | succ j _ ih =>
      refine ih.trans ?_
      cases hstep : steps[j]? with
      | none => rw [stateAt_succ_of_none hstep]
      | some step =>
          rw [stateAt_succ hstep]
          exact (routesOpened_perform step (orderly_stateAt hsteps j).1
            (size_of_request hsteps hstep)).1

omit hsteps in
/-- The step `k` of a run passes a request on under `route`: the member whose turn it is finds the
request in its outbox. -/
structure Forwarded (steps : List Step) (k : Nat) (route : Route) (cluster : String)
    (timeout : Duration) (payload : ByteArray) (now : Instant) : Prop where
  call : steps[k]? = some (.request route.origin route.originId cluster timeout payload now)
  number : route.id = ⟨(stateAt steps k).nextRoute⟩
  turn : (stateAt steps k).turn? cluster = some route.target
  room : 0 < (stateAt steps k).room route.target
  known : route ∈ (stateAt steps (k + 1)).routes
  queued : (stateAt steps (k + 1)).queued route.target = (stateAt steps k).queued route.target ++
    [.request route.id cluster timeout.wireMillis payload]

/-- A route that is known behind a step and was not known before has been opened by the step. -/
theorem forwarded_of_mem {i : Nat} {route : Route} (hroute : route ∈ (stateAt steps (i + 1)).routes)
    (hnew : route ∉ (stateAt steps i).routes) :
    ∃ cluster timeout payload now, Forwarded steps i route cluster timeout payload now := by
  cases hstep : steps[i]? with
  | none =>
      rw [stateAt_succ_of_none hstep] at hroute
      exact absurd hroute hnew
  | some step =>
      cases stateAt_effect hsteps hstep with
      | closed hroutes hnext => exact absurd (hroutes.subset hroute) hnew
      | opened origin id cluster timeout payload now target hcall hturn hroom hroutes hqueued
        hnext =>
          have hmem := hroute
          rw [hroutes, List.mem_append, List.mem_singleton] at hmem
          rcases hmem with hmem | rfl
          · exact absurd hmem hnew
          · exact ⟨cluster, timeout, payload, now,
              ⟨by rw [hstep, hcall]; rfl, rfl, hturn, hroom, hroute, hqueued⟩⟩

/-- Every route that is known has been opened by an earlier step. -/
theorem exists_forwarded_of_mem {i : Nat} {route : Route}
    (hroute : route ∈ (stateAt steps i).routes) :
    ∃ k < i, ∃ cluster timeout payload now,
      Forwarded steps k route cluster timeout payload now := by
  induction i with
  | zero => cases hroute
  | succ i ih =>
      by_cases hold : route ∈ (stateAt steps i).routes
      · obtain ⟨k, hk, hforwarded⟩ := ih hold
        exact ⟨k, hk.trans (Nat.lt_succ_self i), hforwarded⟩
      · exact ⟨i, Nat.lt_succ_self i, forwarded_of_mem hsteps hroute hold⟩

variable {k l : Nat} {route other : Route} {cluster cluster' : String}
  {timeout timeout' : Duration} {payload payload' : ByteArray} {now now' : Instant}

/-- The number of a route tells how many routes had been opened before. -/
theorem Forwarded.toNat_id (h : Forwarded steps k route cluster timeout payload now) :
    route.id.value.toNat = (stateAt steps k).routesOpened + 1 ∧
      (stateAt steps (k + 1)).routesOpened = (stateAt steps k).routesOpened + 1 := by
  have hsize := size_of_request hsteps h.call rfl
  have hnumber : route.id.value.toNat = (stateAt steps k).routesOpened + 1 := by
    rw [h.number]
    exact toNat_nextRoute hsize
  refine ⟨hnumber, ?_⟩
  have hbelow := (orderly_stateAt hsteps (k + 1)).1.below route h.known
  have hstep := (routesOpened_perform _ (orderly_stateAt hsteps k).1
    (size_of_request hsteps h.call)).2
  rw [← stateAt_succ h.call] at hstep
  have hone : (if (Step.request route.origin route.originId cluster timeout payload now).isRequest
      then 1 else 0) = 1 := rfl
  rw [hone] at hstep
  omega

/-- Different steps open routes of different numbers. -/
theorem Forwarded.unique (h : Forwarded steps k route cluster timeout payload now)
    (h' : Forwarded steps l other cluster' timeout' payload' now') (hid : route.id = other.id) :
    k = l := by
  have hk := h.toNat_id hsteps
  have hl := h'.toNat_id hsteps
  rw [hid] at hk
  rcases Nat.lt_trichotomy k l with hlt | heq | hlt
  · have := routesOpened_mono hsteps (show k + 1 ≤ l from hlt)
    omega
  · exact heq
  · have := routesOpened_mono hsteps (show l + 1 ≤ k from hlt)
    omega

/-- One step opens one route. -/
theorem Forwarded.route_unique (h : Forwarded steps k route cluster timeout payload now)
    (h' : Forwarded steps k other cluster' timeout' payload' now') : route = other := by
  have hroute := (orderly_stateAt hsteps (k + 1)).1.route?_of_mem h.known
  have hother := (orderly_stateAt hsteps (k + 1)).1.route?_of_mem h'.known
  rw [h.number] at hroute
  rw [h'.number, hroute] at hother
  exact Option.some.inj hother

/-- A route that is known has been known ever since it was opened. -/
theorem mem_routes_of_le {i j : Nat} (h : Forwarded steps k route cluster timeout payload now)
    (hroute : route ∈ (stateAt steps j).routes) (hki : k < i) (hij : i ≤ j) :
    route ∈ (stateAt steps i).routes := by
  induction j, hij using Nat.le_induction with
  | base => exact hroute
  | succ j hj ih =>
      by_cases hold : route ∈ (stateAt steps j).routes
      · exact ih hold
      · -- It would have been opened a second time.
        obtain ⟨_, _, _, _, hagain⟩ := forwarded_of_mem hsteps hroute hold
        have := h.unique hsteps hagain rfl
        omega

end Run

end Router

end Switchboard
