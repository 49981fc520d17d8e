import Switchboard.Proofs.Router.Registry

/-!
# Routers that can be reached

A router that can be reached is one behind any operations, between which its routes may be put into
any order (`Reached`). Whatever the number of operations, its members are listed in their clusters
and have outboxes (`Reached.housed`). As long as the numbers last, its registry and clusters agree
(`Reached.consistent`), and the number of its next route has never been drawn (`Reached.fresh`).
-/

namespace Switchboard

namespace Router

/-- The number of a route that a step draws, if it draws one. -/
def drawnBy (router : Router) (step : Step) : List RequestId :=
  if step.drawsFrom router then [⟨router.nextRoute⟩] else []

/-- A router that can be reached while `joined` members come and the numbers `drawn` are drawn for
routes. -/
inductive Reached : Nat → List RequestId → Router → Prop where
  | new : Reached 0 [] .new
  | step {joined : Nat} {drawn : List RequestId} {router : Router} (h : Reached joined drawn router)
      (step : Step) :
      Reached (joined + if step.isJoin then 1 else 0) (drawn ++ router.drawnBy step)
        (router.perform step)

/-- The routes of a router that can be reached may stand in any order. -/
theorem Reached.arrange {joined : Nat} {drawn : List RequestId} {router : Router}
    (h : Reached joined drawn router) {order : List Route} (horder : order.Perm router.routes) :
    Reached joined drawn (router.arrange order) := by
  have hstep := h.step (.reorder order)
  have hdrawn : drawn ++ router.drawnBy (.reorder order) = drawn := List.append_nil drawn
  have hafter : router.perform (.reorder order) = router.arrange order := if_pos horder
  rwa [hdrawn, hafter] at hstep

/-- The numbers that are drawn by steps. -/
def drawnIn (router : Router) : List Step → List RequestId
  | [] => []
  | step :: steps => router.drawnBy step ++ (router.perform step).drawnIn steps

theorem Reached.foldl {joined : Nat} {drawn : List RequestId} {router : Router}
    (h : Reached joined drawn router) (steps : List Step) :
    Reached (joined + steps.countP Step.isJoin) (drawn ++ router.drawnIn steps)
      (steps.foldl perform router) := by
  induction steps generalizing joined drawn router with
  | nil => simpa [drawnIn] using h
  | cons step steps ih =>
      have hsteps := ih (h.step step)
      rw [List.append_assoc, Nat.add_assoc, Nat.add_comm (if step.isJoin then 1 else 0)] at hsteps
      rw [List.countP_cons]
      exact hsteps

/-- A router behind a run can be reached. -/
theorem reached_run (steps : List Step) :
    Reached (steps.countP Step.isJoin) (Router.new.drawnIn steps) (run steps) := by
  have h := Reached.new.foldl steps
  rwa [Nat.zero_add, List.nil_append] at h

/-! ## Whose outboxes there are -/

/-- The members that have ever had an outbox. -/
def owners (router : Router) : List MemberId := router.outboxes.map Outbox.member

theorem isSome_outbox?_iff {router : Router} {id : MemberId} :
    (router.outbox? id).isSome = true ↔ id ∈ router.owners := by
  unfold outbox? owners
  rw [List.find?_isSome]
  simp

theorem owners_setOutbox (router : Router) (outbox : Outbox) :
    (router.setOutbox outbox).owners = router.owners :=
  Lookup.map_key_replace Outbox.member outbox router.outboxes

theorem owners_push {router next : Router} {id : MemberId} {message : Message}
    (h : router.push id message = .ok next) : next.owners = router.owners := by
  obtain ⟨outbox, -, hok⟩ := push_eq_ok_of_room message (room_pos_of_push_eq_ok h)
  rw [h] at hok
  cases hok
  exact owners_setOutbox router _

theorem owners_deliver (router : Router) (id : MemberId) (message : Message) :
    (router.deliver id message).2.owners = router.owners := by
  unfold deliver
  split
  · rename_i next hpush
    exact owners_push hpush
  · rfl

theorem owners_reportLost (router : Router) (routes : List Route) :
    (router.reportLost routes).owners = router.owners := by
  induction routes generalizing router with
  | nil => rfl
  | cons route routes ih => exact (ih _).trans (owners_deliver _ _ _)

theorem owners_answer (router : Router) (route : Route) (message : Message) :
    (router.answer route message).owners = router.owners := by
  unfold answer
  split
  · rfl
  · rename_i reply hreply
    have hdeliver := owners_deliver router route.origin reply
    split
    · rename_i next hnext
      rw [hnext] at hdeliver
      exact hdeliver
    · rename_i next hnext
      rw [hnext] at hdeliver
      exact hdeliver

theorem owners_routeRequest (router : Router) (origin : MemberId) (id : RequestId)
    (cluster : String)
    (timeout : Duration) (payload : ByteArray) (now : Instant) :
    (router.routeRequest origin id cluster timeout payload now).owners = router.owners := by
  obtain ⟨rosters, -, hrequest⟩ := router.routeRequest_eq origin id cluster timeout payload now
  rw [hrequest]
  split
  · exact owners_deliver ({ router with rosters }.count _) _ _
  · rename_i target hturn
    generalize router.routeFor origin id target timeout now = route
    split
    · rename_i next hpush
      have howners : next.owners = (router.opened rosters route).owners := owners_push hpush
      exact howners
    · exact owners_deliver (((router.opened rosters route).eraseRoute _).count _) _ _

/-- Outboxes come with their members, and stay. -/
theorem owners_perform (router : Router) (step : Step) (hstep : step.isJoin = false) :
    (router.perform step).owners = router.owners := by
  cases step with
  | join cluster capacity => cases hstep
  | leave id =>
      show (router.leave id).2.owners = router.owners
      cases hmember : router.member? id with
      | none => rw [leave_of_not_member hmember]
      | some member =>
          rw [leave_of_member hmember]
          exact owners_reportLost (router.withoutMember member) _
  | request origin id cluster timeout payload now =>
      exact owners_routeRequest router origin id cluster timeout payload now
  | reply sender message =>
      show (router.routeReply sender message).owners = router.owners
      unfold routeReply
      split
      · rfl
      · split
        · rfl
        · split
          · exact owners_answer (router.eraseRoute _) _ _
          · rfl
  | sweep now => rfl
  | reorder order => exact apply_reorder owners (fun _ _ => rfl) router order
  | hangUp id =>
      show (router.hangUp id).owners = router.owners
      unfold hangUp
      split
      · rfl
      · exact owners_setOutbox router _
  | drain id limit =>
      show (router.drain id limit).2.owners = router.owners
      unfold drain
      split
      · rfl
      · split
        · exact owners_setOutbox router _
        · rfl

/-! ## Where members are listed -/

/-- Members are listed in their clusters, of which each has one list, and have outboxes. -/
structure Housed (router : Router) : Prop where
  clusters : (router.rosters.map Roster.cluster).Nodup
  listed : ∀ member ∈ router.members, router.InCluster member.id member.cluster
  outboxes : ∀ member ∈ router.members, member.id ∈ router.owners

theorem housed_new : Housed .new where
  clusters := List.nodup_nil
  listed := fun _ h => nomatch h
  outboxes := fun _ h => nomatch h

/-- The only list of a cluster has all that are in the cluster. -/
theorem mem_ids_of_inCluster {router : Router}
    (hclusters : (router.rosters.map Roster.cluster).Nodup) {roster : Roster}
    (hroster : roster ∈ router.rosters) {id : MemberId} (hin : router.InCluster id roster.cluster) :
    id ∈ roster.ids := by
  obtain ⟨other, hother, hname, hid⟩ := hin
  rwa [Lookup.eq_of_key hclusters hother hroster hname] at hid

/-- Who is in a cluster is there still when the list of a cluster is replaced by one that has all of
its members. -/
theorem inCluster_of_replace {before after : Router} {roster new : Roster}
    (hclusters : (before.rosters.map Roster.cluster).Nodup) (hroster : roster ∈ before.rosters)
    (hrosters : after.rosters = Lookup.replace Roster.cluster new before.rosters)
    (hname : roster.cluster = new.cluster) (hids : ∀ id ∈ roster.ids, id ∈ new.ids) {id : MemberId}
    {cluster : String} (hin : before.InCluster id cluster) : after.InCluster id cluster := by
  rw [inCluster_replace hroster hrosters hname]
  by_cases hcluster : cluster = new.cluster
  · subst hcluster
    rw [← hname] at hin
    exact Or.inl ⟨rfl, hids id (mem_ids_of_inCluster hclusters hroster hin)⟩
  · exact Or.inr ⟨hcluster, hin⟩

namespace Housed

variable {router : Router} (h : router.Housed)

include h

theorem of_eq {after : Router} (hmembers : after.members = router.members)
    (hrosters : after.rosters = router.rosters) (howners : after.owners = router.owners) :
    after.Housed where
  clusters := hrosters ▸ h.clusters
  listed := by
    intro member hmember
    rw [hmembers] at hmember
    exact (inCluster_congr hrosters _ _).2 (h.listed member hmember)
  outboxes := by
    rw [hmembers, howners]
    exact h.outboxes

theorem of_pick {after : Router} {cluster : String} (hmembers : after.members = router.members)
    (hrosters : after.rosters = (router.pick cluster).2.rosters)
    (howners : after.owners = router.owners) : after.Housed := by
  unfold pick at hrosters
  cases hroster : router.roster? cluster with
  | none =>
      rw [hroster] at hrosters
      exact h.of_eq hmembers hrosters howners
  | some roster =>
      rw [hroster] at hrosters
      have hmem : roster ∈ router.rosters := List.mem_of_find?_eq_some hroster
      constructor
      · rw [show after.rosters = Lookup.replace Roster.cluster roster.advance router.rosters from
          hrosters, Lookup.map_key_replace]
        exact h.clusters
      · intro member hmember
        rw [hmembers] at hmember
        exact inCluster_of_replace h.clusters hmem hrosters rfl (fun _ hid => hid)
          (h.listed member hmember)
      · rw [hmembers, howners]
        exact h.outboxes

theorem join (cluster : String) (capacity : Nat) : (router.join cluster capacity).2.Housed := by
  have houtboxes : ∀ member ∈ (router.join cluster capacity).2.members,
      member.id ∈ (router.join cluster capacity).2.owners := by
    intro member hmember
    have howners : (router.join cluster capacity).2.owners =
        router.owners ++ [router.nextMember] := List.map_append
    rw [howners, List.mem_append]
    rcases List.mem_append.1 hmember with hold | hnew
    · exact Or.inl (h.outboxes member hold)
    · rw [List.mem_singleton.1 hnew]
      exact Or.inr List.mem_cons_self
  cases hroster : router.roster? cluster with
  | some roster =>
      -- The cluster has a list, and the member comes last in it.
      have hmem : roster ∈ router.rosters := List.mem_of_find?_eq_some hroster
      have hname : roster.cluster = cluster := Lookup.key_of_find? hroster
      have hrosters : (router.join cluster capacity).2.rosters =
          Lookup.replace Roster.cluster (roster.add router.nextMember) router.rosters := by
        simp only [Router.join, hroster]
        rfl
      refine ⟨?_, ?_, houtboxes⟩
      · rw [hrosters, Lookup.map_key_replace]
        exact h.clusters
      · intro member hmember
        rcases List.mem_append.1 hmember with hold | hnew
        · exact inCluster_of_replace h.clusters hmem hrosters rfl
            (fun _ hid => List.mem_append_left _ hid) (h.listed member hold)
        · rw [List.mem_singleton.1 hnew]
          refine (inCluster_replace hmem hrosters rfl _ _).2 (Or.inl ⟨hname.symm, ?_⟩)
          exact List.mem_append_right _ List.mem_cons_self
  | none =>
      -- The member is the first of its cluster, which is given a list.
      have hrosters : (router.join cluster capacity).2.rosters =
          router.rosters ++ [{ cluster, ids := [router.nextMember] }] := by
        simp only [Router.join, hroster]
      refine ⟨?_, ?_, houtboxes⟩
      · rw [hrosters]
        refine Lookup.nodup_snoc h.clusters fun roster hmem hname => ?_
        have habsent := List.find?_eq_none.1 hroster roster hmem
        rw [decide_eq_true_eq] at habsent
        exact habsent hname
      · intro member hmember
        unfold InCluster
        rw [hrosters]
        rcases List.mem_append.1 hmember with hold | hnew
        · obtain ⟨roster, hmem, hin⟩ := h.listed member hold
          exact ⟨roster, List.mem_append_left _ hmem, hin⟩
        · rw [List.mem_singleton.1 hnew]
          exact ⟨_, List.mem_append_right _ List.mem_cons_self, rfl, List.mem_cons_self⟩

theorem leave (id : MemberId) : (router.leave id).2.Housed := by
  have howners : (router.leave id).2.owners = router.owners := owners_perform router (.leave id) rfl
  cases hmember : router.member? id with
  | none =>
      rw [leave_of_not_member hmember]
      exact h
  | some left =>
      have hid : left.id = id := Lookup.key_of_find? hmember
      have hrosters : (router.leave id).2.rosters = (router.unregister left).rosters := by
        rw [leave_of_member hmember, (sameRegistry_reportLost _ _).rosters]
        rfl
      constructor
      · rw [hrosters]
        exact nodup_clusters_unregister h.clusters left
      · intro member hstays
        obtain ⟨hold, hne⟩ := mem_members_leave.1 hstays
        rw [← hid] at hne
        exact (inCluster_congr hrosters _ _).2
          (inCluster_unregister_of_ne (h.listed member hold) hne)
      · intro member hstays
        rw [howners]
        exact h.outboxes member (mem_members_leave.1 hstays).1

theorem perform (step : Step) : (router.perform step).Housed := by
  cases step with
  | join cluster capacity => exact h.join cluster capacity
  | leave id => exact h.leave id
  | request origin id cluster timeout payload now =>
      obtain ⟨hmembers, hrosters, -⟩ :=
        router.registry_routeRequest origin id cluster timeout payload now
      exact h.of_pick hmembers hrosters
        (owners_routeRequest router origin id cluster timeout payload now)
  | reply sender message =>
      obtain ⟨hmembers, hrosters, -⟩ := router.registry_routeReply sender message
      exact h.of_eq hmembers hrosters (owners_perform router (.reply sender message) rfl)
  | sweep now => exact h.of_eq rfl rfl rfl
  | hangUp id =>
      have hsame := sameRegistry_hangUp router id
      exact h.of_eq hsame.members hsame.rosters (owners_perform router (.hangUp id) rfl)
  | drain id limit =>
      have hsame := sameRegistry_drain router id limit
      exact h.of_eq hsame.members hsame.rosters (owners_perform router (.drain id limit) rfl)
  | reorder order =>
      show (router.reorder order).Housed
      rw [reorder_eq]
      exact h.of_eq rfl rfl rfl

end Housed

theorem Reached.housed {joined : Nat} {drawn : List RequestId} {router : Router}
    (h : Reached joined drawn router) : router.Housed := by
  induction h with
  | new => exact housed_new
  | step _ step ih => exact ih.perform step

/-! ## While the numbers last -/

/-- Registry and clusters agree, and the counter tells who has come. -/
theorem Reached.consistent {joined : Nat} {drawn : List RequestId} {router : Router}
    (h : Reached joined drawn router) (hjoined : joined < UInt64.size) :
    router.Consistent ∧ handedOut router.nextMember = joined := by
  induction h with
  | new => exact ⟨consistent_new, handedOut_one⟩
  | @step joined drawn router _ step ih =>
      obtain ⟨hconsistent, hcount⟩ := ih ((Nat.le_add_right _ _).trans_lt hjoined)
      have hsize : step.isJoin = true → handedOut router.nextMember + 1 < UInt64.size := by
        intro hjoin
        rw [if_pos hjoin] at hjoined
        rwa [hcount]
      refine ⟨hconsistent.perform step hsize, ?_⟩
      rw [nextMember_perform]
      split
      · next hjoin => rw [handedOut_succ (hsize hjoin), hcount]
      · exact hcount

/-- The numbers of routes are drawn one after the other, and every route has one that was drawn. -/
structure Numbered (drawn : List RequestId) (router : Router) : Prop where
  next : router.nextRoute = UInt64.ofNat (drawn.length + 1)
  numbers : drawn = (List.range drawn.length).map fun k => ⟨UInt64.ofNat (k + 1)⟩
  routes : ∀ route ∈ router.routes, route.id ∈ drawn

theorem numbered_new : Numbered [] .new where
  next := rfl
  numbers := rfl
  routes := fun _ h => nomatch h

theorem Numbered.perform {drawn : List RequestId} {router : Router} (h : Numbered drawn router)
    (step : Step) : Numbered (drawn ++ router.drawnBy step) (router.perform step) := by
  have hroutes : ∀ route ∈ (router.perform step).routes,
      route.id ∈ drawn ++ router.drawnBy step := by
    intro route hroute
    rcases mem_routes_perform hroute with hold | ⟨cluster, timeout, payload, now, rfl, hturn, hid⟩
    · exact List.mem_append_left _ (h.routes route hold)
    · -- A request that opens a route has drawn its number.
      refine List.mem_append_right _ ?_
      have hdraws : Step.drawsFrom router
          (.request route.origin route.originId cluster timeout payload now) = true := by
        simp [Step.drawsFrom, hturn]
      rw [drawnBy, if_pos hdraws, hid]
      exact List.mem_cons_self
  unfold drawnBy at hroutes ⊢
  by_cases hdraws : step.drawsFrom router = true
  · rw [if_pos hdraws] at hroutes ⊢
    refine ⟨?_, ?_, hroutes⟩
    · rw [nextRoute_perform, if_pos hdraws, h.next, List.length_append, List.length_singleton]
      exact (UInt64.ofNat_add _ _).symm
    · rw [List.length_append, List.length_singleton, List.range_succ, List.map_append, ← h.numbers,
        List.map_singleton, h.next]
  · rw [if_neg hdraws] at hroutes ⊢
    rw [List.append_nil] at hroutes ⊢
    refine ⟨?_, h.numbers, hroutes⟩
    rw [nextRoute_perform, if_neg hdraws, h.next]

theorem Reached.numbered {joined : Nat} {drawn : List RequestId} {router : Router}
    (h : Reached joined drawn router) : Numbered drawn router := by
  induction h with
  | new => exact numbered_new
  | step _ step ih => exact ih.perform step

/-- The number of the next route has never been drawn. -/
theorem Reached.fresh {joined : Nat} {drawn : List RequestId} {router : Router}
    (h : Reached joined drawn router) (hdrawn : drawn.length < UInt64.size) :
    ⟨router.nextRoute⟩ ∉ drawn := by
  obtain ⟨hnext, hnumbers, -⟩ := h.numbered
  intro hmem
  rw [hnumbers, hnext] at hmem
  obtain ⟨k, hk, hsame⟩ := List.mem_map.1 hmem
  have hlt := List.mem_range.1 hk
  have hvalue := congrArg (fun id : RequestId => id.value.toNat) hsame
  simp only [UInt64.toNat_ofNat'] at hvalue
  have hsize : UInt64.size = 2 ^ 64 := rfl
  omega

end Router

end Switchboard
