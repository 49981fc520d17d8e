import Switchboard.Proofs.Router.Operations

/-!
# What passes through a router

For all but joining, an operation of a router is told by what it brings: the messages that it puts
into outboxes, and the routes that it opens (`Passes`). Only requests and replies are told of;
errors come and go without notice (`telling`). Most operations bring nothing (`Quiet`). A request
brings itself and one route, or nothing (`routeRequest_passes`), and an answer brings what its route
asks for, or nothing (`routeReply_passes`).
-/

namespace Switchboard

/-- Whether a message is a request or a reply. -/
def Message.isTelling (message : Message) : Bool :=
  match message.envelope with
  | .request .. => true
  | .reply _ => true
  | _ => false

/-- The requests and replies among messages. -/
def telling (messages : List Message) : List Message := messages.filter Message.isTelling

theorem telling_append (messages others : List Message) :
    telling (messages ++ others) = telling messages ++ telling others := List.filter_append ..

theorem telling_eq_nil {messages : List Message}
    (h : ∀ message ∈ messages, message.isTelling = false) : telling messages = [] := by
  apply List.filter_eq_nil_iff.2
  intro message hmessage
  rw [h message hmessage]
  exact Bool.false_ne_true

theorem telling_sublist {messages others : List Message} (h : messages.Sublist others) :
    (telling messages).Sublist (telling others) := h.filter _

namespace Router

/-- Whether a member is in a cluster. -/
def InCluster (router : Router) (id : MemberId) (cluster : String) : Prop :=
  ∃ roster ∈ router.rosters, roster.cluster = cluster ∧ id ∈ roster.ids

/-- What an operation does that brings the messages `news` to outboxes and opens the routes
`opened`, and lets nobody join. -/
structure Passes (news : MemberId → List Message) (opened : List Route) (before after : Router) :
    Prop where
  members : ∀ member ∈ after.members, member ∈ before.members
  rosters : ∀ id cluster, after.InCluster id cluster → before.InCluster id cluster
  routes : ∀ route ∈ after.routes, route ∈ before.routes ∨ route ∈ opened
  queued : ∀ id, (telling (after.queued id)).Sublist (telling (before.queued id) ++ news id)
  /-- Nothing comes to those who are not members. -/
  held : ∀ id, after.queued id ≠ [] →
    before.queued id ≠ [] ∨ ∃ member ∈ before.members, member.id = id
  nextMember : after.nextMember = before.nextMember

/-- What an operation does that brings nothing. -/
abbrev Quiet (before after : Router) : Prop := Passes (fun _ => []) [] before after

theorem exists_member_of_room {router : Router} {id : MemberId} (h : 0 < router.room id) :
    ∃ member ∈ router.members, member.id = id := by
  unfold room at h
  cases hmember : router.member? id with
  | none =>
      rw [hmember] at h
      cases h
  | some member => exact ⟨member, List.mem_of_find?_eq_some hmember, Lookup.key_of_find? hmember⟩

/-- What stands behind the messages of an outbox stands there for a member that has room. -/
theorem held_of_append {before after : Router} {id : MemberId} {messages : List Message}
    (h : after.queued id = before.queued id ++ messages.take (before.room id))
    (hsome : after.queued id ≠ []) :
    before.queued id ≠ [] ∨ ∃ member ∈ before.members, member.id = id := by
  by_cases hroom : 0 < before.room id
  · exact Or.inr (exists_member_of_room hroom)
  · left
    rw [Nat.eq_zero_of_not_pos hroom, List.take_zero, List.append_nil] at h
    rwa [← h]

namespace Passes

variable {news : MemberId → List Message} {opened : List Route} {a b c : Router}

theorem refl (router : Router) : Quiet router router where
  members := fun _ h => h
  rosters := fun _ _ h => h
  routes := fun _ h => Or.inl h
  queued := fun _ => by rw [List.append_nil]
  held := fun _ h => Or.inl h
  nextMember := rfl

/-- Nothing is lost of what is told when an operation follows that brings nothing. -/
theorem trans_quiet (hab : Passes news opened a b) (hbc : Quiet b c) : Passes news opened a c where
  members := fun member h => hab.members member (hbc.members member h)
  rosters := fun id cluster h => hab.rosters id cluster (hbc.rosters id cluster h)
  routes := by
    intro route hroute
    rcases hbc.routes route hroute with h | h
    · exact hab.routes route h
    · cases h
  queued := by
    intro id
    have hlast := hbc.queued id
    rw [List.append_nil] at hlast
    exact hlast.trans (hab.queued id)
  held := by
    intro id hsome
    rcases hbc.held id hsome with h | ⟨member, hmember, hid⟩
    · exact hab.held id h
    · exact Or.inr ⟨member, hab.members member hmember, hid⟩
  nextMember := hbc.nextMember.trans hab.nextMember

/-- An operation that leaves members, clusters and routes alone. -/
theorem of_sameRegistry (h : SameRegistry a b)
    (hqueued : ∀ id, (telling (b.queued id)).Sublist (telling (a.queued id) ++ news id))
    (hheld : ∀ id, b.queued id ≠ [] → a.queued id ≠ [] ∨ ∃ member ∈ a.members, member.id = id) :
    Passes news opened a b where
  members := by
    rw [h.members]
    exact fun _ hmember => hmember
  rosters := by
    intro id cluster hin
    unfold InCluster at hin ⊢
    rwa [h.rosters] at hin
  routes := by
    rw [h.routes]
    exact fun _ hroute => Or.inl hroute
  queued := hqueued
  held := hheld
  nextMember := h.nextMember

end Passes

/-! ## Operations that bring nothing -/

/-- The outboxes of others, and the front of one, are as they were. -/
theorem quiet_of_drop {before after : Router} (h : SameRegistry before after)
    (hqueued : ∀ id, (after.queued id).Sublist (before.queued id)) : Quiet before after := by
  refine .of_sameRegistry h ?_ ?_
  · intro id
    rw [List.append_nil]
    exact telling_sublist (hqueued id)
  · intro id hsome
    left
    intro hnone
    have hsublist := hqueued id
    rw [hnone] at hsublist
    exact hsome (List.sublist_nil.1 hsublist)

theorem quiet_drain (router : Router) (id : MemberId) (limit : Option Nat) :
    Quiet router (router.drain id limit).2 := by
  refine quiet_of_drop (sameRegistry_drain router id limit) fun other => ?_
  obtain ⟨count, hqueued⟩ := queued_drain router id limit other
  rw [hqueued]
  exact List.drop_sublist count _

theorem quiet_hangUp (router : Router) (id : MemberId) : Quiet router (router.hangUp id) := by
  refine quiet_of_drop (sameRegistry_hangUp router id) fun other => ?_
  rw [queued_hangUp]
  split
  · exact List.nil_sublist _
  · exact List.Sublist.refl _

theorem quiet_sweep (router : Router) (now : Instant) : Quiet router (router.sweep now).2 :=
  { Passes.refl router with
    routes := by
      intro route hroute
      rw [routes_sweep] at hroute
      exact Or.inl (List.mem_of_mem_filter hroute) }

theorem inCluster_unregister {router : Router} {member : Member} {id : MemberId} {cluster : String}
    (h : (router.unregister member).InCluster id cluster) : router.InCluster id cluster := by
  obtain ⟨roster, hroster, hcluster, hid⟩ := h
  obtain ⟨old, hold, rfl⟩ := List.mem_map.1 (List.mem_of_mem_filter hroster)
  by_cases hsame : old.cluster = member.cluster
  · rw [if_pos hsame] at hcluster hid
    exact ⟨old, hold, hcluster, List.mem_of_mem_filter hid⟩
  · rw [if_neg hsame] at hcluster hid
    exact ⟨old, hold, hcluster, hid⟩

/-- Those who stay are where they were. -/
theorem inCluster_unregister_of_ne {router : Router} {member : Member} {id : MemberId}
    {cluster : String} (h : router.InCluster id cluster) (hne : id ≠ member.id) :
    (router.unregister member).InCluster id cluster := by
  obtain ⟨roster, hroster, hname, hid⟩ := h
  by_cases hleft : roster.cluster = member.cluster
  · have hstays : id ∈ (roster.remove member.id).ids := List.mem_filter.2 ⟨hid, by simpa using hne⟩
    refine ⟨roster.remove member.id, List.mem_filter.2 ⟨List.mem_map.2 ⟨roster, hroster, ?_⟩, ?_⟩,
      hname, hstays⟩
    · exact if_pos hleft
    · simpa using Or.inr (List.ne_nil_of_mem hstays)
  · refine ⟨roster, List.mem_filter.2 ⟨List.mem_map.2 ⟨roster, hroster, if_neg hleft⟩, ?_⟩,
      hname, hid⟩
    simpa using Or.inl hleft

/-- A departure is told by errors alone. -/
theorem quiet_leave (router : Router) (id : MemberId) : Quiet router (router.leave id).2 := by
  cases hmember : router.member? id with
  | none =>
      rw [leave_of_not_member hmember]
      exact .refl router
  | some member =>
      have hsame : SameRegistry (router.withoutMember member) (router.leave id).2 := by
        rw [leave_of_member hmember]
        exact sameRegistry_reportLost _ _
      constructor
      case members =>
        intro other hother
        rw [hsame.members] at hother
        exact List.mem_of_mem_filter hother
      case rosters =>
        rintro other cluster ⟨roster, hroster, hin⟩
        rw [hsame.rosters] at hroster
        have hleft : (router.unregister member).InCluster other cluster := ⟨roster, hroster, hin⟩
        exact inCluster_unregister hleft
      case routes =>
        intro route hroute
        rw [routes_leave hmember] at hroute
        exact Or.inl (List.mem_of_mem_filter hroute)
      case queued =>
        intro other
        have hnone :
            telling (((router.lostWith id).filter (·.origin = other)).map memberLost |>.take
            (router.room other)) = [] := by
          apply telling_eq_nil
          intro message hmessage
          obtain ⟨route, -, rfl⟩ := List.mem_map.1 (List.mem_of_mem_take hmessage)
          rfl
        rw [queued_leave hmember, telling_append, hnone]
      case held =>
        intro other
        exact held_of_append (queued_leave hmember other)
      case nextMember => exact hsame.nextMember

/-! ## Joining -/

/-- Nobody comes into a cluster but the new member. -/
theorem inCluster_join {router : Router} {cluster other : String} {capacity : Nat} {id : MemberId}
    (h : (router.join cluster capacity).2.InCluster id other) :
    router.InCluster id other ∨ (id = router.nextMember ∧ other = cluster) := by
  obtain ⟨found, hfound, hcluster, hid⟩ := h
  unfold join at hfound
  cases hroster : router.roster? cluster with
  | none =>
      simp only [hroster, List.mem_append, List.mem_singleton] at hfound
      rcases hfound with hold | rfl
      · exact Or.inl ⟨found, hold, hcluster, hid⟩
      · exact Or.inr ⟨List.mem_singleton.1 hid, hcluster.symm⟩
  | some roster =>
      simp only [hroster] at hfound
      have hreplaced : found ∈ Lookup.replace Roster.cluster (roster.add router.nextMember)
          router.rosters := hfound
      rcases Lookup.mem_replace hreplaced with rfl | ⟨hold, -⟩
      · rcases List.mem_append.1 hid with hold | hnew
        · exact Or.inl ⟨roster, List.mem_of_find?_eq_some hroster, hcluster, hold⟩
        · have hname : roster.cluster = cluster := Lookup.key_of_find? hroster
          exact Or.inr ⟨List.mem_singleton.1 hnew, hcluster.symm.trans hname⟩
      · exact Or.inl ⟨found, hold, hcluster, hid⟩

/-! ## Requests -/

/-- When the turn passes on, nobody comes or goes. -/
theorem inCluster_pick {router : Router} {cluster other : String} {id : MemberId}
    (h : (router.pick cluster).2.InCluster id other) : router.InCluster id other := by
  unfold pick at h
  cases hroster : router.roster? cluster with
  | none =>
      rw [hroster] at h
      exact h
  | some roster =>
      rw [hroster] at h
      obtain ⟨found, hfound, hcluster, hid⟩ := h
      have hreplaced : found ∈ Lookup.replace Roster.cluster roster.advance router.rosters := hfound
      rcases Lookup.mem_replace hreplaced with rfl | ⟨hold, -⟩
      · exact ⟨roster, List.mem_of_find?_eq_some hroster, hcluster, hid⟩
      · exact ⟨found, hold, hcluster, hid⟩

/-- The member whose turn it is in a cluster is in the cluster. -/
theorem inCluster_of_turn? {router : Router} {cluster : String} {target : MemberId}
    (h : router.turn? cluster = some target) : router.InCluster target cluster := by
  unfold turn? at h
  cases hroster : router.roster? cluster with
  | none =>
      rw [hroster] at h
      cases h
  | some roster =>
      rw [hroster] at h
      exact ⟨roster, List.mem_of_find?_eq_some hroster, Lookup.key_of_find? hroster,
        List.mem_of_getElem? h⟩

section Request

variable (router : Router) (origin : MemberId) (id : RequestId) (cluster : String)
  (timeout : Duration) (payload : ByteArray) (now : Instant)

/-- A request lets nobody join or leave, and passes the turn on at most. -/
theorem registry_routeRequest :
    (router.routeRequest origin id cluster timeout payload now).members = router.members ∧
      (router.routeRequest origin id cluster timeout payload now).rosters =
        (router.pick cluster).2.rosters ∧
      (router.routeRequest origin id cluster timeout payload now).nextMember =
        router.nextMember := by
  obtain ⟨rosters, hpick, hrequest⟩ :=
    router.routeRequest_eq origin id cluster timeout payload now
  rw [hrequest, hpick]
  split
  · have hsame := sameRegistry_reject { router with rosters } origin id .noMembers
      s!"no members in cluster {cluster}"
    exact ⟨hsame.members, hsame.rosters, hsame.nextMember⟩
  · rename_i target hturn
    split
    · rename_i next hpush
      have hsame := sameRegistry_of_push hpush
      exact ⟨hsame.members, hsame.rosters, hsame.nextMember⟩
    · rename_i fault hpush
      have hsame := sameRegistry_reject ((router.opened rosters
        (router.routeFor origin id target timeout now)).eraseRoute ⟨router.nextRoute⟩) origin id
          .internalError fault.text
      exact ⟨hsame.members, hsame.rosters, hsame.nextMember⟩

/-- What a request does: it is refused with an error, or it comes to the member whose turn it is,
under a new route. -/
inductive RequestPassage : Router → Prop
  | refused (after : Router) (hquiet : Quiet router after)
      (hnext : after.nextRoute = router.nextRoute ∨ after.nextRoute = router.nextRoute + 1) :
      RequestPassage after
  | routed (after : Router) (target : MemberId) (hcluster : router.InCluster target cluster)
      (hpasses : Passes
        (fun member => if member = target then
          [.request ⟨router.nextRoute⟩ cluster timeout.wireMillis payload] else [])
        [router.routeFor origin id target timeout now] router after)
      (hroutes : after.routes = router.routes ++ [router.routeFor origin id target timeout now])
      (hnext : after.nextRoute = router.nextRoute + 1) :
      RequestPassage after

/-- A request has one of the two effects, if the number that it draws is not in use. -/
theorem routeRequest_passes
    (hfresh : (router.routeRequest origin id cluster timeout payload now).nextRoute =
        router.nextRoute + 1 →
      ∀ route ∈ router.routes, route.id ≠ ⟨router.nextRoute⟩) :
    RequestPassage router origin id cluster timeout payload now
      (router.routeRequest origin id cluster timeout payload now) := by
  obtain ⟨hmembers, hrosters, hnextMember⟩ :=
    router.registry_routeRequest origin id cluster timeout payload now
  have heffect := router.routeRequest_effect origin id cluster timeout payload now
  generalize router.routeRequest origin id cluster timeout payload now = after at *
  -- A pick may pass the turn on, but it takes nobody into a cluster.
  have hin : ∀ id other, after.InCluster id other → router.InCluster id other := by
    intro id other h
    have hpicked : (router.pick cluster).2.InCluster id other := by
      unfold InCluster at h ⊢
      rwa [hrosters] at h
    exact inCluster_pick hpicked
  -- An error goes to the origin, and nothing else changes.
  have hrefused : ∀ message : Message, message.isTelling = false →
      Refusal router after origin message → after.routes = router.routes → Quiet router after := by
    intro message hplain hrefusal hroutes
    constructor
    case members =>
      rw [hmembers]
      exact fun _ h => h
    case rosters => exact hin
    case routes =>
      rw [hroutes]
      exact fun _ h => Or.inl h
    case queued =>
      intro other
      have hnone : telling ((if other = origin then [message] else []).take (router.room other)) =
          [] := by
        apply telling_eq_nil
        intro found hfound
        have hmem := List.mem_of_mem_take hfound
        split at hmem
        · rw [List.mem_singleton.1 hmem]
          exact hplain
        · cases hmem
      rw [hrefusal other, telling_append, hnone]
    case held =>
      intro other
      exact held_of_append (hrefusal other)
    case nextMember => exact hnextMember
  cases heffect with
  | noMembers hturn hrefusal hroutes hnext =>
      exact .refused after (hrefused _ rfl hrefusal hroutes) (Or.inl hnext)
  -- The number has been drawn, but the route that had it is gone again.
  | undelivered target fault hturn hroom hrefusal hroutes hnext =>
      exact .refused after (hrefused _ rfl hrefusal (hroutes (hfresh hnext))) (Or.inr hnext)
  | forwarded target hturn hroom hroutes hqueued hnext =>
      refine .routed after target (inCluster_of_turn? hturn) ?_ hroutes hnext
      constructor
      case members =>
        rw [hmembers]
        exact fun _ h => h
      case rosters => exact hin
      case routes =>
        intro route hroute
        rw [hroutes] at hroute
        exact List.mem_append.1 hroute
      case queued =>
        intro other
        rw [hqueued other, telling_append]
        by_cases hother : other = target
        · rw [if_pos hother]
          exact List.Sublist.refl _
        · rw [if_neg hother]
          exact List.Sublist.refl _
      case held =>
        intro other hsome
        by_cases hother : other = target
        · -- The request was put into the target's outbox, so the target is a member.
          rw [hother]
          exact Or.inr (exists_member_of_room hroom)
        · rw [hqueued other, if_neg hother, List.append_nil] at hsome
          exact Or.inl hsome
      case nextMember => exact hnextMember

end Request

/-! ## Answers -/

theorem registry_routeReply (router : Router) (sender : MemberId) (message : Message) :
    (router.routeReply sender message).members = router.members ∧
      (router.routeReply sender message).rosters = router.rosters ∧
      (router.routeReply sender message).nextMember = router.nextMember := by
  unfold routeReply
  split
  · exact ⟨rfl, rfl, rfl⟩
  · rename_i id hid
    split
    · exact ⟨rfl, rfl, rfl⟩
    · rename_i route hroute
      split
      · have hsame := sameRegistry_answer (router.eraseRoute id) route message
        exact ⟨hsame.members, hsame.rosters, hsame.nextMember⟩
      · exact ⟨rfl, rfl, rfl⟩

/-- What an answer does: nothing, or it brings to the origin of its route what the route asks
for. -/
theorem routeReply_passes (router : Router) (sender : MemberId) (message : Message) :
    Quiet router (router.routeReply sender message) ∨
      ∃ route ∈ router.routes, message.envelope.requestId? = some route.id ∧
        route.target = sender ∧
        Passes
          (fun member => if member = route.origin then
            telling (answerTo route.originId message).toList else [])
          [] router (router.routeReply sender message) := by
  obtain ⟨hmembers, hrosters, hnextMember⟩ := router.registry_routeReply sender message
  have heffect := routeReply_effect router sender message
  generalize router.routeReply sender message = after at *
  have hin : ∀ id other, after.InCluster id other → router.InCluster id other := by
    intro id other h
    unfold InCluster at h ⊢
    rwa [hrosters] at h
  cases heffect with
  | ignored hroutes hqueued =>
      left
      constructor
      case members =>
        rw [hmembers]
        exact fun _ h => h
      case rosters => exact hin
      case routes =>
        rw [hroutes]
        exact fun _ h => Or.inl h
      case queued =>
        intro other
        rw [hqueued, List.append_nil]
      case held =>
        intro other hsome
        rw [hqueued] at hsome
        exact Or.inl hsome
      case nextMember => exact hnextMember
  | closed route hquoted hroute htarget hroutes hqueued =>
      refine Or.inr ⟨route, List.mem_of_find?_eq_some hroute, hquoted, htarget, ?_⟩
      constructor
      case members =>
        rw [hmembers]
        exact fun _ h => h
      case rosters => exact hin
      case routes =>
        intro other hother
        rw [hroutes] at hother
        exact Or.inl (List.mem_of_mem_filter hother)
      case queued =>
        intro other
        -- What there is no room for is lost, so the origin hears the answer or nothing.
        rw [hqueued other, telling_append]
        refine (List.Sublist.refl _).append ?_
        by_cases hother : other = route.origin
        · rw [if_pos hother, if_pos hother]
          exact telling_sublist (List.take_sublist _ _)
        · rw [if_neg hother, if_neg hother, List.take_nil]
          exact List.Sublist.refl _
      case held =>
        intro other
        exact held_of_append (hqueued other)
      case nextMember => exact hnextMember

end Router

end Switchboard
