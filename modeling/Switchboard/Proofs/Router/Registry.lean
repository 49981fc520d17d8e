import Mathlib.Tactic.IntervalCases
import Switchboard.Proofs.Router.Passage
import Switchboard.Proofs.Router.Run

/-!
# The registry of a router

Who is a member of what is said twice, by the members that are registered and by the lists of the
clusters, and routes name members by their numbers. Each operation changes these parts one by one.
What it leaves behind agrees (`Consistent.perform`), and every route runs between two members that
are registered (`Moored.perform`). Along a run, a route leads to a member of the cluster that its
request named (`inOrder_stateAt`).
-/

namespace Switchboard

namespace Router

/-- Registry and clusters of a router say the same, and members have numbers of their own that have
been handed out. -/
structure Consistent (router : Router) : Prop where
  listed : ∀ id cluster, router.InCluster id cluster ↔ (⟨id, cluster⟩ : Member) ∈ router.members
  clusters : (router.rosters.map Roster.cluster).Nodup
  once : ∀ roster ∈ router.rosters, roster.ids.Nodup
  occupied : ∀ roster ∈ router.rosters, roster.ids ≠ []
  distinct : (router.members.map Member.id).Nodup
  below : ∀ member ∈ router.members, member.id.toNat ≤ handedOut router.nextMember

theorem consistent_new : Consistent .new where
  listed := by
    intro id cluster
    constructor
    · rintro ⟨roster, hroster, -⟩
      cases hroster
    · intro hmember
      cases hmember
  clusters := List.nodup_nil
  once := fun _ h => nomatch h
  occupied := fun _ h => nomatch h
  distinct := List.nodup_nil
  below := fun _ h => nomatch h

/-- Whether a number is that of a registered member. -/
def Registered (router : Router) (id : MemberId) : Prop := ∃ member ∈ router.members, member.id = id

/-! ## Clusters -/

/-- Who is in a cluster depends on the lists of the clusters alone. -/
theorem inCluster_congr {before after : Router} (h : after.rosters = before.rosters) (id : MemberId)
    (cluster : String) : after.InCluster id cluster ↔ before.InCluster id cluster := by
  unfold InCluster
  rw [h]

/-- A cluster whose list has been replaced has the members of the new list, and the others have
those that they had. -/
theorem inCluster_replace {before after : Router} {roster new : Roster}
    (hroster : roster ∈ before.rosters)
    (hrosters : after.rosters = Lookup.replace Roster.cluster new before.rosters)
    (hname : roster.cluster = new.cluster) (id : MemberId)
    (cluster : String) :
    after.InCluster id cluster ↔
      (cluster = new.cluster ∧ id ∈ new.ids) ∨
        (cluster ≠ new.cluster ∧ before.InCluster id cluster) := by
  unfold InCluster
  rw [hrosters]
  constructor
  · rintro ⟨found, hfound, rfl, hid⟩
    rcases Lookup.mem_replace hfound with rfl | ⟨hold, hother⟩
    · exact Or.inl ⟨rfl, hid⟩
    · exact Or.inr ⟨hother, found, hold, rfl, hid⟩
  · rintro (⟨rfl, hid⟩ | ⟨hother, found, hold, rfl, hid⟩)
    · exact ⟨new, Lookup.mem_replace_self hroster hname, rfl, hid⟩
    · exact ⟨found, Lookup.mem_replace_of_ne hold hother, rfl, hid⟩

/-- A member that is taken off its cluster leaves no two lists of one cluster. -/
theorem nodup_clusters_unregister {router : Router}
    (h : (router.rosters.map Roster.cluster).Nodup) (member : Member) :
    ((router.unregister member).rosters.map Roster.cluster).Nodup := by
  have hnames : (router.rosters.map fun roster =>
      if roster.cluster = member.cluster then roster.remove member.id else roster).map
        Roster.cluster = router.rosters.map Roster.cluster := by
    rw [List.map_map]
    apply List.map_congr_left
    intro roster _
    show Roster.cluster (if _ then _ else _) = _
    split <;> rfl
  refine List.Nodup.sublist (List.filter_sublist.map Roster.cluster) ?_
  rw [hnames]
  exact h

namespace Consistent

variable {router before after : Router}

/-- A cluster has the members of its list. -/
theorem inCluster_iff (h : router.Consistent) {roster : Roster} (hroster : roster ∈ router.rosters)
    (id : MemberId) : router.InCluster id roster.cluster ↔ id ∈ roster.ids := by
  constructor
  · rintro ⟨other, hother, hname, hid⟩
    rwa [Lookup.eq_of_key h.clusters hother hroster hname] at hid
  · intro hid
    exact ⟨roster, hroster, rfl, hid⟩

/-- Only members, clusters and the counter of members matter. -/
theorem of_eq (h : before.Consistent) (hmembers : after.members = before.members)
    (hrosters : after.rosters = before.rosters) (hnext : after.nextMember = before.nextMember) :
    after.Consistent where
  listed := by
    intro id cluster
    rw [inCluster_congr hrosters, hmembers]
    exact h.listed id cluster
  clusters := hrosters ▸ h.clusters
  once := hrosters ▸ h.once
  occupied := hrosters ▸ h.occupied
  distinct := hmembers ▸ h.distinct
  below := by
    rw [hmembers, hnext]
    exact h.below

theorem of_sameRegistry (h : before.Consistent) (hsame : SameRegistry before after) :
    after.Consistent := h.of_eq hsame.members hsame.rosters hsame.nextMember

/-- The list of a cluster may be replaced by one that agrees with the registry. -/
theorem of_replace (h : before.Consistent) {roster new : Roster} (hroster : roster ∈ before.rosters)
    (hrosters : after.rosters = Lookup.replace Roster.cluster new before.rosters)
    (hname : roster.cluster = new.cluster)
    (honce : new.ids.Nodup) (hoccupied : new.ids ≠ [])
    (hlisted : ∀ id, id ∈ new.ids ↔ (⟨id, new.cluster⟩ : Member) ∈ after.members)
    (hothers : ∀ id cluster, cluster ≠ new.cluster →
      ((⟨id, cluster⟩ : Member) ∈ after.members ↔ (⟨id, cluster⟩ : Member) ∈ before.members))
    (hdistinct : (after.members.map Member.id).Nodup)
    (hbelow : ∀ member ∈ after.members, member.id.toNat ≤ handedOut after.nextMember) :
    after.Consistent where
  listed := by
    intro id cluster
    rw [inCluster_replace hroster hrosters hname]
    by_cases hcluster : cluster = new.cluster
    · subst hcluster
      simp [hlisted]
    · simp [hcluster, h.listed, hothers]
  clusters := by
    rw [hrosters, Lookup.map_key_replace]
    exact h.clusters
  once := by
    intro found hfound
    rw [hrosters] at hfound
    rcases Lookup.mem_replace hfound with rfl | ⟨hold, -⟩
    · exact honce
    · exact h.once found hold
  occupied := by
    intro found hfound
    rw [hrosters] at hfound
    rcases Lookup.mem_replace hfound with rfl | ⟨hold, -⟩
    · exact hoccupied
    · exact h.occupied found hold
  distinct := hdistinct
  below := hbelow

/-- Passing the turn on changes the list of no cluster. -/
theorem of_pick (h : before.Consistent) {cluster : String}
    (hmembers : after.members = before.members)
    (hrosters : after.rosters = (before.pick cluster).2.rosters)
    (hnext : after.nextMember = before.nextMember) : after.Consistent := by
  unfold pick at hrosters
  cases hroster : before.roster? cluster with
  | none =>
      rw [hroster] at hrosters
      exact h.of_eq hmembers hrosters hnext
  | some roster =>
      rw [hroster] at hrosters
      have hmem : roster ∈ before.rosters := List.mem_of_find?_eq_some hroster
      apply h.of_replace hmem hrosters rfl (h.once roster hmem) (h.occupied roster hmem)
      · intro id
        rw [hmembers, ← h.listed]
        exact (h.inCluster_iff hmem id).symm
      · intro id other _
        rw [hmembers]
      · rw [hmembers]
        exact h.distinct
      · rw [hmembers, hnext]
        exact h.below

/-- Clusters have no member in common. -/
theorem pairwise_disjoint (h : router.Consistent) :
    router.rosters.Pairwise fun roster other => roster.ids.Disjoint other.ids := by
  apply (List.pairwise_map.1 h.clusters).imp_of_mem
  intro roster other hroster hother hne id hid hid'
  have hmember := (h.listed _ _).1 ((h.inCluster_iff hroster id).2 hid)
  have hmember' := (h.listed _ _).1 ((h.inCluster_iff hother id).2 hid')
  exact hne (congrArg Member.cluster (Lookup.eq_of_key h.distinct hmember hmember' rfl))

/-- A member is listed once over all clusters. -/
theorem count_ids (h : router.Consistent) {member : Member} (hmember : member ∈ router.members) :
    (router.rosters.flatMap Roster.ids).count member.id = 1 := by
  apply List.count_eq_one_of_mem
  · exact List.nodup_flatMap.2 ⟨h.once, h.pairwise_disjoint⟩
  · obtain ⟨roster, hroster, -, hid⟩ := (h.listed _ _).2 hmember
    exact List.mem_flatMap.2 ⟨roster, hroster, hid⟩

/-! ## Joining -/

/-- The number of the next member is new. -/
theorem fresh (h : router.Consistent) (hsize : handedOut router.nextMember + 1 < UInt64.size) :
    ∀ member ∈ router.members, member.id ≠ router.nextMember := by
  intro member hmember hid
  have hbelow := h.below member hmember
  rw [hid, toNat_of_handedOut hsize] at hbelow
  omega

theorem join (h : router.Consistent) (cluster : String) (capacity : Nat)
    (hsize : handedOut router.nextMember + 1 < UInt64.size) :
    (router.join cluster capacity).2.Consistent := by
  have hfresh := h.fresh hsize
  have hmembers : (router.join cluster capacity).2.members =
      router.members ++ [⟨router.nextMember, cluster⟩] := rfl
  have hnext : (router.join cluster capacity).2.nextMember = router.nextMember + 1 := rfl
  have hdistinct : ((router.join cluster capacity).2.members.map Member.id).Nodup :=
    Lookup.nodup_snoc h.distinct hfresh
  have hbelow : ∀ member ∈ (router.join cluster capacity).2.members,
      member.id.toNat ≤ handedOut (router.join cluster capacity).2.nextMember := by
    intro member hmember
    rw [hnext, handedOut_succ hsize]
    rw [hmembers, List.mem_append, List.mem_singleton] at hmember
    rcases hmember with hold | rfl
    · exact (h.below member hold).trans (Nat.le_succ _)
    · exact (toNat_of_handedOut hsize).le
  cases hroster : router.roster? cluster with
  | some roster =>
      -- The cluster has members, and the new one comes last in its list.
      have hmem : roster ∈ router.rosters := List.mem_of_find?_eq_some hroster
      have hname : roster.cluster = cluster := Lookup.key_of_find? hroster
      have hrosters : (router.join cluster capacity).2.rosters =
          Lookup.replace Roster.cluster (roster.add router.nextMember) router.rosters := by
        simp only [Router.join, hroster]
        rfl
      have hnew : router.nextMember ∉ roster.ids := by
        intro hid
        exact hfresh _ ((h.listed _ _).1 ((h.inCluster_iff hmem _).2 hid)) rfl
      apply h.of_replace hmem hrosters rfl
      · exact List.nodup_append.2 ⟨h.once roster hmem, List.nodup_singleton _, by
          intro id hid other hother heq
          rw [heq, List.mem_singleton.1 hother] at hid
          exact hnew hid⟩
      · exact List.append_ne_nil_of_right_ne_nil _ (List.cons_ne_nil _ _)
      · intro id
        have hold := (h.inCluster_iff hmem id).symm.trans (h.listed id roster.cluster)
        rw [hmembers, List.mem_append, List.mem_singleton]
        show id ∈ roster.ids ++ [router.nextMember] ↔
          (⟨id, roster.cluster⟩ : Member) ∈ router.members ∨ _
        rw [List.mem_append, List.mem_singleton, hold, Member.mk.injEq]
        show _ ↔ _ ∨ (id = router.nextMember ∧ roster.cluster = cluster)
        simp [hname]
      · intro id other hother
        have hne : other ≠ cluster := by
          rw [← hname]
          exact hother
        simp [hmembers, hne]
      · exact hdistinct
      · exact hbelow
  | none =>
      -- The cluster begins with its first member.
      have hrosters : (router.join cluster capacity).2.rosters =
          router.rosters ++ [{ cluster, ids := [router.nextMember] }] := by
        simp only [Router.join, hroster]
      have hnone : ∀ roster ∈ router.rosters, roster.cluster ≠ cluster := by
        intro roster hmem hname
        have habsent := List.find?_eq_none.1 hroster roster hmem
        simp [hname] at habsent
      constructor
      case listed =>
        intro id other
        have hin : (router.join cluster capacity).2.InCluster id other ↔
            router.InCluster id other ∨ (other = cluster ∧ id = router.nextMember) := by
          unfold InCluster
          rw [hrosters]
          simp only [List.mem_append, List.mem_singleton, or_and_right, exists_or, exists_eq_left]
          rw [eq_comm (a := cluster)]
        rw [hin, h.listed, hmembers, List.mem_append, List.mem_singleton, Member.mk.injEq, and_comm]
      case clusters =>
        rw [hrosters]
        exact Lookup.nodup_snoc h.clusters hnone
      case once =>
        intro roster hmem
        rw [hrosters, List.mem_append, List.mem_singleton] at hmem
        rcases hmem with hold | rfl
        · exact h.once roster hold
        · exact List.nodup_singleton _
      case occupied =>
        intro roster hmem
        rw [hrosters, List.mem_append, List.mem_singleton] at hmem
        rcases hmem with hold | rfl
        · exact h.occupied roster hold
        · exact List.cons_ne_nil _ _
      case distinct => exact hdistinct
      case below => exact hbelow

/-! ## Leaving -/

/-- A member that is taken off its cluster is in none, and the others stay where they are. -/
theorem inCluster_unregister_iff (h : router.Consistent) {member : Member}
    (hmember : member ∈ router.members) (id : MemberId) (cluster : String) :
    (router.unregister member).InCluster id cluster ↔
      router.InCluster id cluster ∧ id ≠ member.id := by
  constructor
  · intro hin
    refine ⟨inCluster_unregister hin, ?_⟩
    rintro rfl
    -- Its only cluster is the one that it has been taken off.
    have hlisted := (h.listed _ _).1 (inCluster_unregister hin)
    have hsame : (⟨member.id, cluster⟩ : Member) = member :=
      Lookup.eq_of_key h.distinct hlisted hmember rfl
    obtain ⟨roster, hroster, hname, hid⟩ := hin
    obtain ⟨old, hold, rfl⟩ := List.mem_map.1 (List.mem_of_mem_filter hroster)
    have hcluster : member.cluster = cluster := (congrArg Member.cluster hsame).symm
    by_cases hleft : old.cluster = member.cluster
    · rw [if_pos hleft] at hid
      simpa using List.of_mem_filter hid
    · rw [if_neg hleft, ← hcluster] at hname
      exact hleft hname
  · rintro ⟨hin, hne⟩
    exact inCluster_unregister_of_ne hin hne

theorem unregister (h : router.Consistent) {member : Member} (hmember : member ∈ router.members) :
    (router.unregister member).Consistent where
  listed := by
    intro id cluster
    rw [h.inCluster_unregister_iff hmember, h.listed]
    show _ ↔ (⟨id, cluster⟩ : Member) ∈ router.members.filter fun other => other.id ≠ member.id
    simp [List.mem_filter]
  clusters := nodup_clusters_unregister h.clusters member
  once := by
    intro roster hroster
    obtain ⟨old, hold, rfl⟩ := List.mem_map.1 (List.mem_of_mem_filter hroster)
    split
    · exact (h.once old hold).filter _
    · exact h.once old hold
  occupied := by
    intro roster hroster
    have hkept := List.of_mem_filter hroster
    obtain ⟨old, hold, rfl⟩ := List.mem_map.1 (List.mem_of_mem_filter hroster)
    by_cases hleft : old.cluster = member.cluster
    · rw [if_pos hleft] at hkept ⊢
      simpa [Roster.remove, hleft] using hkept
    · rw [if_neg hleft]
      exact h.occupied old hold
  distinct := h.distinct.sublist (List.filter_sublist.map Member.id)
  below := fun other hother => h.below other (List.mem_of_mem_filter hother)

theorem leave (h : router.Consistent) (id : MemberId) : (router.leave id).2.Consistent := by
  cases hmember : router.member? id with
  | none =>
      rw [leave_of_not_member hmember]
      exact h
  | some member =>
      rw [leave_of_member hmember]
      have hleft : (router.withoutMember member).Consistent :=
        (h.unregister (List.mem_of_find?_eq_some hmember)).of_eq rfl rfl rfl
      exact hleft.of_sameRegistry (sameRegistry_reportLost _ _)

end Consistent

/-! ## Any step -/

/-- Whether an operation is a join. -/
def Step.isJoin : Step → Bool
  | join .. => true
  | _ => false

/-- A step draws the number of a route when it is a request to a cluster that has members. -/
def Step.drawsFrom (router : Router) : Step → Bool
  | request _ _ cluster .. => (router.turn? cluster).isSome
  | _ => false

variable {router : Router}

/-- Registry and clusters agree behind every step. -/
theorem Consistent.perform (h : router.Consistent) (step : Step)
    (hsize : step.isJoin = true → handedOut router.nextMember + 1 < UInt64.size) :
    (router.perform step).Consistent := by
  cases step with
  | join cluster capacity => exact h.join cluster capacity (hsize rfl)
  | leave id => exact h.leave id
  | request origin id cluster timeout payload now =>
      obtain ⟨hmembers, hrosters, hnext⟩ :=
        router.registry_routeRequest origin id cluster timeout payload now
      exact h.of_pick hmembers hrosters hnext
  | reply sender message =>
      obtain ⟨hmembers, hrosters, hnext⟩ := router.registry_routeReply sender message
      exact h.of_eq hmembers hrosters hnext
  | sweep now => exact h.of_eq rfl rfl rfl
  | hangUp id => exact h.of_sameRegistry (sameRegistry_hangUp router id)
  | drain id limit => exact h.of_sameRegistry (sameRegistry_drain router id limit)
  | reorder order =>
      show (router.reorder order).Consistent
      rw [reorder_eq]
      exact h.of_eq rfl rfl rfl

/-- The counter of members moves with every join, and with nothing else. -/
theorem nextMember_perform (router : Router) (step : Step) :
    (router.perform step).nextMember =
      if step.isJoin then router.nextMember + 1 else router.nextMember := by
  cases step with
  | join cluster capacity => rfl
  | leave id => exact (quiet_leave router id).nextMember
  | request origin id cluster timeout payload now =>
      exact (router.registry_routeRequest origin id cluster timeout payload now).2.2
  | reply sender message => exact (router.registry_routeReply sender message).2.2
  | sweep now => rfl
  | hangUp id => exact (sameRegistry_hangUp router id).nextMember
  | drain id limit => exact (sameRegistry_drain router id limit).nextMember
  | reorder order => exact apply_reorder nextMember (fun _ _ => rfl) router order

/-- The counter of routes moves with every request to a cluster that has members. -/
theorem nextRoute_perform (router : Router) (step : Step) :
    (router.perform step).nextRoute =
      if step.drawsFrom router then router.nextRoute + 1 else router.nextRoute := by
  cases step with
  | join cluster capacity => rfl
  | leave id => exact nextRoute_leave router id
  | request origin id cluster timeout payload now =>
      have heffect := router.routeRequest_effect origin id cluster timeout payload now
      cases heffect with
      | noMembers hturn hrefusal hroutes hnext =>
          simp only [Step.drawsFrom, hturn]
          exact hnext
      | undelivered target fault hturn hroom hrefusal hroutes hnext =>
          simp only [Step.drawsFrom, hturn]
          exact hnext
      | forwarded target hturn hroom hroutes hqueued hnext =>
          simp only [Step.drawsFrom, hturn]
          exact hnext
  | reply sender message => exact nextRoute_routeReply router sender message
  | sweep now => rfl
  | hangUp id => exact (sameRegistry_hangUp router id).nextRoute
  | drain id limit => exact (sameRegistry_drain router id limit).nextRoute
  | reorder order => exact apply_reorder nextRoute (fun _ _ => rfl) router order

/-- Members come by joins and go by leaves. -/
theorem members_perform {step : Step} (hjoin : step.isJoin = false)
    (hleave : ∀ id, step ≠ .leave id) : (router.perform step).members = router.members := by
  cases step with
  | join cluster capacity => cases hjoin
  | leave id => exact absurd rfl (hleave id)
  | request origin id cluster timeout payload now =>
      exact (router.registry_routeRequest origin id cluster timeout payload now).1
  | reply sender message => exact (router.registry_routeReply sender message).1
  | sweep now => rfl
  | hangUp id => exact (sameRegistry_hangUp router id).members
  | drain id limit => exact (sameRegistry_drain router id limit).members
  | reorder order => exact apply_reorder members (fun _ _ => rfl) router order

/-- All but the one that leaves stay. -/
theorem mem_members_leave {id : MemberId} {member : Member} :
    member ∈ (router.leave id).2.members ↔ member ∈ router.members ∧ member.id ≠ id := by
  cases hfound : router.member? id with
  | none =>
      rw [leave_of_not_member hfound]
      refine ⟨fun hmember => ⟨hmember, ?_⟩, And.left⟩
      simpa using List.find?_eq_none.1 hfound member hmember
  | some left =>
      have hid : left.id = id := Lookup.key_of_find? hfound
      rw [leave_of_member hfound, (sameRegistry_reportLost _ _).members, ← hid]
      show member ∈ router.members.filter (fun other => other.id ≠ left.id) ↔ _
      rw [List.mem_filter, decide_eq_true_iff]

/-- A member stays registered until it leaves. -/
theorem mem_members_perform {member : Member} (hmember : member ∈ router.members) {step : Step}
    (hstays : step ≠ .leave member.id) : member ∈ (router.perform step).members := by
  cases step with
  | join cluster capacity => exact List.mem_append_left _ hmember
  | leave id =>
      refine mem_members_leave.2 ⟨hmember, ?_⟩
      rintro rfl
      exact hstays rfl
  | _ =>
      rw [members_perform rfl fun _ => Step.noConfusion]
      exact hmember

/-- A request opens one route at most, which leads to the member whose turn it is. -/
theorem mem_routes_routeRequest {origin : MemberId} {id : RequestId} {cluster : String}
    {timeout : Duration} {payload : ByteArray} {now : Instant} {route : Route}
    (hroute : route ∈ (router.routeRequest origin id cluster timeout payload now).routes) :
    route ∈ router.routes ∨ ∃ target, router.turn? cluster = some target ∧
      route = router.routeFor origin id target timeout now := by
  obtain ⟨rosters, -, hrequest⟩ :=
    router.routeRequest_eq origin id cluster timeout payload now
  rw [hrequest] at hroute
  cases hturn : router.turn? cluster with
  | none =>
      simp only [hturn, routes_reject] at hroute
      exact Or.inl hroute
  | some target =>
      simp only [hturn] at hroute
      have hmem : route ∈ router.routes ++ [router.routeFor origin id target timeout now] := by
        split at hroute
        · rename_i next hpush
          have hsame : next.routes = router.routes ++ _ := (sameRegistry_of_push hpush).routes
          rw [← hsame]
          exact hroute
        · rw [routes_reject] at hroute
          exact List.mem_of_mem_filter hroute
      rcases List.mem_append.1 hmem with hold | hnew
      · exact Or.inl hold
      · exact Or.inr ⟨target, rfl, List.mem_singleton.1 hnew⟩

/-- The route is opened by the step, for the request that the step makes. -/
def OpenedBy (router : Router) (step : Step) (route : Route) (cluster : String) : Prop :=
  ∃ timeout payload now,
    step = .request route.origin route.originId cluster timeout payload now ∧
      router.turn? cluster = some route.target ∧ route.id = ⟨router.nextRoute⟩

/-- A route behind a step was there before, or the step has opened it. -/
theorem mem_routes_perform {step : Step} {route : Route}
    (hroute : route ∈ (router.perform step).routes) :
    route ∈ router.routes ∨ ∃ cluster, router.OpenedBy step route cluster := by
  cases step with
  | join cluster capacity => exact Or.inl hroute
  | leave id =>
      rcases (quiet_leave router id).routes route hroute with hold | hnone
      · exact Or.inl hold
      · cases hnone
  | request origin id cluster timeout payload now =>
      rcases mem_routes_routeRequest hroute with hold | ⟨target, hturn, rfl⟩
      · exact Or.inl hold
      · exact Or.inr ⟨cluster, timeout, payload, now, rfl, hturn, rfl⟩
  | reply sender message =>
      have heffect := routeReply_effect router sender message
      have hmem : route ∈ (router.routeReply sender message).routes := hroute
      cases heffect with
      | ignored hroutes hqueued =>
          rw [hroutes] at hmem
          exact Or.inl hmem
      | closed closed hquoted hclosed htarget hroutes hqueued =>
          rw [hroutes] at hmem
          exact Or.inl (List.mem_of_mem_filter hmem)
  | sweep now =>
      rw [perform, routes_sweep] at hroute
      exact Or.inl (List.mem_of_mem_filter hroute)
  | hangUp id =>
      rw [perform, (sameRegistry_hangUp router id).routes] at hroute
      exact Or.inl hroute
  | drain id limit =>
      rw [perform, (sameRegistry_drain router id limit).routes] at hroute
      exact Or.inl hroute
  | reorder order => exact Or.inl ((router.perm_routes_reorder order).subset hroute)

/-! ## Both ends of a route -/

/-- A route runs from a registered member to a registered member of the cluster. -/
structure Moored (router : Router) (route : Route) (cluster : String) : Prop where
  origin : router.Registered route.origin
  target : (⟨route.target, cluster⟩ : Member) ∈ router.members

/-- No route is left to a member that has gone. -/
theorem not_touches_of_leave {id : MemberId} {route : Route}
    (hroute : route ∈ (router.leave id).2.routes) (hgone : router.Registered id) :
    route.touches id = false := by
  obtain ⟨member, hmember, hid⟩ := hgone
  cases hfound : router.member? id with
  | none =>
      have habsent := List.find?_eq_none.1 hfound member hmember
      simp [hid] at habsent
  | some found =>
      rw [routes_leave hfound] at hroute
      simpa using List.of_mem_filter hroute

/-- A route that stays behind a step keeps its ends. -/
theorem Moored.perform {step : Step} {route : Route} {cluster : String}
    (h : router.Moored route cluster) (hroute : route ∈ (router.perform step).routes) :
    (router.perform step).Moored route cluster := by
  -- A route is given up with the first of its ends to leave.
  have hstay : ∀ id, router.Registered id → route.touches id = true → step ≠ .leave id := by
    rintro id hid htouches rfl
    rw [not_touches_of_leave hroute hid] at htouches
    cases htouches
  constructor
  · obtain ⟨member, hmember, hid⟩ := h.origin
    refine ⟨member, mem_members_perform hmember ?_, hid⟩
    apply hstay member.id ⟨member, hmember, rfl⟩
    simp [Route.touches, hid]
  · apply mem_members_perform h.target
    apply hstay route.target ⟨_, h.target, rfl⟩
    simp [Route.touches]

/-- A step that opens a route for a registered member moors it in the cluster that the request
names. -/
theorem OpenedBy.moored {step : Step} {route : Route} {cluster : String}
    (h : router.OpenedBy step route cluster) (hconsistent : router.Consistent)
    (horigin : router.Registered route.origin) : (router.perform step).Moored route cluster := by
  obtain ⟨timeout, payload, now, rfl, hturn, hid⟩ := h
  have htarget := (hconsistent.listed _ _).1 (inCluster_of_turn? hturn)
  obtain ⟨member, hmember, hmemberId⟩ := horigin
  have hstays : ∀ id, Step.request route.origin route.originId cluster timeout payload now ≠
      .leave id := by
    rintro id hsame
    cases hsame
  exact ⟨⟨member, mem_members_perform hmember (hstays _), hmemberId⟩,
    mem_members_perform htarget (hstays _)⟩

/-- A router whose registry and clusters agree, and whose routes run between registered members. -/
structure Wired (router : Router) : Prop where
  consistent : router.Consistent
  moored : ∀ route ∈ router.routes, ∃ cluster, router.Moored route cluster

theorem wired_new : Wired .new := ⟨consistent_new, fun _ h => nomatch h⟩

theorem Wired.perform (h : router.Wired) (step : Step)
    (hsize : step.isJoin = true → handedOut router.nextMember + 1 < UInt64.size)
    (horigin : ∀ route cluster, router.OpenedBy step route cluster →
      router.Registered route.origin) : (router.perform step).Wired where
  consistent := h.consistent.perform step hsize
  moored := by
    intro route hroute
    rcases mem_routes_perform hroute with hold | ⟨cluster, hopened⟩
    · obtain ⟨cluster, hmoored⟩ := h.moored route hold
      exact ⟨cluster, hmoored.perform hroute⟩
    · exact ⟨cluster, hopened.moored h.consistent (horigin route cluster hopened)⟩

/-- An operation with which nobody comes or goes. -/
structure Retains (before after : Router) : Prop where
  wired : before.Wired → after.Wired
  members : after.members = before.members
  nextMember : after.nextMember = before.nextMember

theorem Retains.refl (router : Router) : Retains router router := ⟨id, rfl, rfl⟩

theorem retains_perform (step : Step) (hjoin : step.isJoin = false)
    (hleave : ∀ id, step ≠ .leave id)
    (horigin : ∀ route cluster, router.OpenedBy step route cluster →
      router.Registered route.origin) : Retains router (router.perform step) where
  wired := by
    intro h
    refine h.perform step ?_ horigin
    rw [hjoin]
    exact fun hne => absurd hne Bool.false_ne_true
  members := members_perform hjoin hleave
  nextMember := by
    rw [nextMember_perform, hjoin]
    rfl

/-- Only a request opens a route. -/
theorem retains_of_not_isRequest (step : Step) (hjoin : step.isJoin = false)
    (hleave : ∀ id, step ≠ .leave id) (hrequest : step.isRequest = false) :
    Retains router (router.perform step) := by
  apply retains_perform step hjoin hleave
  rintro route cluster ⟨timeout, payload, now, rfl, -⟩
  cases hrequest

/-! ## A whole run -/

/-- How many of the first `i` steps of a run are joins. -/
def joinsBefore (steps : List Step) (i : Nat) : Nat := (steps.take i).countP Step.isJoin

/-- How many of the first `i` steps of a run have drawn the number of a route. -/
def drawsBefore (steps : List Step) : Nat → Nat
  | 0 => 0
  | i + 1 => drawsBefore steps i +
      if (steps[i]?).any (Step.drawsFrom (stateAt steps i)) then 1 else 0

/-- The requests among the first `i` steps of a run come from members that are registered. -/
def Invited (steps : List Step) (i : Nat) : Prop :=
  ∀ k < i, ∀ origin id cluster timeout payload now,
    steps[k]? = some (.request origin id cluster timeout payload now) →
      (stateAt steps k).Registered origin

variable {steps : List Step} {i : Nat}

theorem joinsBefore_succ {step : Step} (hstep : steps[i]? = some step) :
    joinsBefore steps (i + 1) = joinsBefore steps i + if step.isJoin then 1 else 0 := by
  unfold joinsBefore
  rw [List.take_add_one, hstep, Option.toList_some, List.countP_append, List.countP_singleton]

theorem joinsBefore_mono (steps : List Step) (i : Nat) :
    joinsBefore steps i ≤ joinsBefore steps (i + 1) :=
  (List.take_sublist_take_left (Nat.le_succ i)).countP_le

/-- As long as the numbers last, registry and clusters agree, and the counter tells the joins. -/
theorem consistent_stateAt (hjoins : joinsBefore steps i < UInt64.size) :
    (stateAt steps i).Consistent ∧
      handedOut (stateAt steps i).nextMember = joinsBefore steps i := by
  induction i with
  | zero => exact ⟨consistent_new, handedOut_one⟩
  | succ i ih =>
      obtain ⟨hconsistent, hcount⟩ := ih ((joinsBefore_mono steps i).trans_lt hjoins)
      cases hstep : steps[i]? with
      | none =>
          have hsame : joinsBefore steps (i + 1) = joinsBefore steps i := by
            unfold joinsBefore
            rw [List.take_add_one, hstep, Option.toList_none, List.append_nil]
          rw [stateAt_succ_of_none hstep, hsame]
          exact ⟨hconsistent, hcount⟩
      | some step =>
          rw [joinsBefore_succ hstep] at hjoins ⊢
          rw [stateAt_succ hstep, nextMember_perform]
          have hsize : step.isJoin = true →
              handedOut (stateAt steps i).nextMember + 1 < UInt64.size := by
            intro hjoin
            rw [if_pos hjoin] at hjoins
            rwa [hcount]
          refine ⟨hconsistent.perform step hsize, ?_⟩
          by_cases hjoin : step.isJoin = true
          · rw [if_pos hjoin, if_pos hjoin, handedOut_succ (hsize hjoin), hcount]
          · rw [if_neg hjoin, if_neg hjoin, hcount, Nat.add_zero]

/-- As long as the numbers last, no route has one that has not been drawn, and the counter tells the
draws. -/
theorem drawn_stateAt (hdraws : drawsBefore steps i < UInt64.size) :
    (∀ route ∈ (stateAt steps i).routes,
      route.id.value.toNat ≤ handedOut (stateAt steps i).nextRoute) ∧
        handedOut (stateAt steps i).nextRoute = drawsBefore steps i := by
  induction i with
  | zero =>
      refine ⟨?_, handedOut_one⟩
      intro route hroute
      cases hroute
  | succ i ih =>
      rw [drawsBefore] at hdraws ⊢
      obtain ⟨hbelow, hcount⟩ := ih ((Nat.le_add_right _ _).trans_lt hdraws)
      cases hstep : steps[i]? with
      | none =>
          rw [stateAt_succ_of_none hstep]
          exact ⟨hbelow, hcount⟩
      | some step =>
          rw [hstep, Option.any_some] at hdraws
          rw [stateAt_succ hstep, nextRoute_perform, Option.any_some]
          by_cases hdraw : step.drawsFrom (stateAt steps i) = true
          · rw [if_pos hdraw] at hdraws ⊢
            rw [if_pos hdraw]
            rw [← hcount] at hdraws
            rw [handedOut_succ hdraws, hcount]
            refine ⟨?_, rfl⟩
            intro route hroute
            rcases mem_routes_perform hroute with hold | ⟨cluster, _, _, _, -, -, hid⟩
            · exact (hcount ▸ hbelow route hold).trans (Nat.le_succ _)
            · rw [hid, toNat_of_handedOut hdraws, hcount]
          · rw [if_neg hdraw, if_neg hdraw]
            refine ⟨?_, hcount⟩
            intro route hroute
            rcases mem_routes_perform hroute with hold | ⟨cluster, _, _, _, rfl, hturn, -⟩
            · exact hbelow route hold
            · -- A request that opens a route has drawn its number.
              simp [Step.drawsFrom, hturn] at hdraw

/-- Every route was opened by a request of its origin to a cluster of which its target is a member
still. -/
theorem moored_stateAt (hjoins : joinsBefore steps i < UInt64.size) (hinvited : Invited steps i) :
    ∀ route ∈ (stateAt steps i).routes, ∃ k < i, ∃ step cluster, steps[k]? = some step ∧
      (stateAt steps k).OpenedBy step route cluster ∧
        (stateAt steps i).Moored route cluster := by
  induction i with
  | zero => exact fun _ h => nomatch h
  | succ i ih =>
      have hjoinsBefore := (joinsBefore_mono steps i).trans_lt hjoins
      have hold := ih hjoinsBefore fun k hk => hinvited k (Nat.lt_succ_of_lt hk)
      intro route hroute
      cases hstep : steps[i]? with
      | none =>
          rw [stateAt_succ_of_none hstep] at hroute ⊢
          obtain ⟨k, hk, hopened⟩ := hold route hroute
          exact ⟨k, Nat.lt_succ_of_lt hk, hopened⟩
      | some step =>
          rw [stateAt_succ hstep] at hroute ⊢
          rcases mem_routes_perform hroute with hknown | ⟨cluster, hopened⟩
          · obtain ⟨k, hk, asked, cluster, hasked, hopened, hmoored⟩ := hold route hknown
            exact ⟨k, Nat.lt_succ_of_lt hk, asked, cluster, hasked, hopened, hmoored.perform hroute⟩
          · refine ⟨i, Nat.lt_succ_self i, step, cluster, hstep, hopened, ?_⟩
            apply hopened.moored (consistent_stateAt hjoinsBefore).1
            obtain ⟨timeout, payload, now, rfl, -, -⟩ := hopened
            exact hinvited i (Nat.lt_succ_self i) _ _ _ _ _ _ hstep

/-- A number that has been handed out is below the counter, unless the counter has just run over. -/
theorem lt_or_eq_zero_of_handedOut {number counter : UInt64}
    (h : number.toNat ≤ handedOut counter) :
    number < counter ∨ counter = 0 := by
  by_cases hzero : counter = 0
  · exact Or.inr hzero
  · left
    have hpos : 0 < counter.toNat := by
      apply Nat.pos_of_ne_zero
      intro hcounter
      exact hzero (UInt64.toNat_inj.1 hcounter)
    have hone : (1 : UInt64) ≤ counter := UInt64.le_iff_toNat_le.2 hpos
    rw [handedOut, UInt64.toNat_sub_of_le _ _ hone] at h
    rw [UInt64.lt_iff_toNat_lt]
    have : (1 : UInt64).toNat = 1 := rfl
    omega

/-- What the parts of a router say behind the first `i` steps of a run. -/
structure InOrder (steps : List Step) (i : Nat) : Prop where
  /-- A cluster lists the members that are registered with its name. -/
  listed : ∀ id cluster, (stateAt steps i).InCluster id cluster ↔
    (⟨id, cluster⟩ : Member) ∈ (stateAt steps i).members
  /-- A member is listed exactly once. -/
  once : ∀ member ∈ (stateAt steps i).members,
    ((stateAt steps i).rosters.flatMap Roster.ids).count member.id = 1
  /-- No cluster is empty. -/
  occupied : ∀ roster ∈ (stateAt steps i).rosters, roster.ids ≠ []
  /-- The number of a member is below the counter. The counter stands at zero when it has handed out
  its last number. -/
  members : ∀ member ∈ (stateAt steps i).members, member.id < (stateAt steps i).nextMember ∨
    ((stateAt steps i).nextMember = 0 ∧ joinsBefore steps i + 1 = UInt64.size)
  /-- The number of a route is below the counter, likewise. -/
  numbers : ∀ route ∈ (stateAt steps i).routes, route.id.value < (stateAt steps i).nextRoute ∨
    ((stateAt steps i).nextRoute = 0 ∧ drawsBefore steps i + 1 = UInt64.size)
  /-- A route was opened by a request of its origin. Both of its ends are registered, and its target
  is in the cluster that the request named. -/
  routes : ∀ route ∈ (stateAt steps i).routes,
    (stateAt steps i).Registered route.origin ∧ (stateAt steps i).Registered route.target ∧
      ∃ k < i, ∃ cluster timeout payload now,
        steps[k]? = some (.request route.origin route.originId cluster timeout payload now) ∧
          route.id = ⟨(stateAt steps k).nextRoute⟩ ∧
          (stateAt steps i).InCluster route.target cluster

/-- In every run of less than `2 ^ 64` joins and as many drawn numbers of routes, whose requests
come from registered members, the parts of the router are in order. -/
theorem inOrder_stateAt (steps : List Step) (i : Nat) (hjoins : joinsBefore steps i < UInt64.size)
    (hdraws : drawsBefore steps i < UInt64.size) (hinvited : Invited steps i) :
    InOrder steps i := by
  obtain ⟨hconsistent, hcount⟩ := consistent_stateAt hjoins
  obtain ⟨hdrawn, hdrawCount⟩ := drawn_stateAt hdraws
  constructor
  · exact hconsistent.listed
  · exact fun _ hmember => hconsistent.count_ids hmember
  · exact hconsistent.occupied
  · intro member hmember
    rcases lt_or_eq_zero_of_handedOut (hconsistent.below member hmember) with hlt | hzero
    · exact Or.inl hlt
    · exact Or.inr ⟨hzero, by rw [← hcount, hzero]; decide⟩
  · intro route hroute
    rcases lt_or_eq_zero_of_handedOut (hdrawn route hroute) with hlt | hzero
    · exact Or.inl hlt
    · exact Or.inr ⟨hzero, by rw [← hdrawCount, hzero]; decide⟩
  · intro route hroute
    obtain ⟨k, hk, step, cluster, hstep, ⟨timeout, payload, now, rfl, hturn, hid⟩, hmoored⟩ :=
      moored_stateAt hjoins hinvited route hroute
    refine ⟨hmoored.origin, ⟨_, hmoored.target, rfl⟩, k, hk, cluster, timeout, payload, now, hstep,
      hid, ?_⟩
    exact (hconsistent.listed _ _).2 hmoored.target

/-- A request goes to a cluster of two members, the other of which leaves before the origin does. -/
def departureRun : List Step :=
  [.join "clients" 8, .join "svc" 8, .join "svc" 8,
    .request 1 ⟨7⟩ "svc" (.ofMillis 1000) ⟨#[1]⟩ 0, .leave 3]

theorem inOrder_of_departureRun :
    joinsBefore departureRun 5 < UInt64.size ∧ drawsBefore departureRun 5 < UInt64.size ∧
      Invited departureRun 5 ∧ InOrder departureRun 5 := by
  have hjoins : joinsBefore departureRun 5 < UInt64.size := by decide +kernel
  have hdraws : drawsBefore departureRun 5 < UInt64.size := by decide +kernel
  have hinvited : Invited departureRun 5 := by
    intro k hk origin id cluster timeout payload now hstep
    -- The fourth step is the only request.
    interval_cases k <;> simp [departureRun] at hstep
    obtain ⟨rfl, -⟩ := hstep
    exact ⟨⟨1, "clients"⟩, by decide +kernel, rfl⟩
  exact ⟨hjoins, hdraws, hinvited, inOrder_stateAt departureRun 5 hjoins hdraws hinvited⟩

end Router

end Switchboard
