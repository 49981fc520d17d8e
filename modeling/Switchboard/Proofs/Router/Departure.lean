import Switchboard.Proofs.Router.Balance
import Switchboard.Proofs.Router.Reach

/-!
# When a member leaves

A member that leaves takes its routes with it: those that it opened, which nobody hears of, and
those that were passed to it, whose origins are told one after the other, as far as there is room at
that moment (`Told`). The order in which the routes are gone through decides which of the reports
find no room, and nothing else: how many of them find room, and what is left of the router, is the
same in every order (`account_reportLost_perm`). All others, their clusters in order, the counts of
picks and the remaining routes stay as they are (`departure_of_reached`).
-/

namespace Switchboard

namespace Router

/-! ## Reports -/

/-- The origins of routes have been told that these are lost, one after the other: each either takes
the report into its outbox, or the report is counted as dropped. -/
inductive Told : Router → List Route → Router → Prop where
  | done (router : Router) : Told router [] router
  | heard {router after : Router} {route : Route} {routes : List Route} {outbox : Outbox}
      (haccepts : router.Accepts route.origin outbox)
      (hrest : Told (router.receive outbox (memberLost route)) routes after) :
      Told router (route :: routes) after
  | missed {router after : Router} {route : Route} {routes : List Route}
      (hrefuses : ∀ outbox, ¬ router.Accepts route.origin outbox)
      (hrest : Told router.countDropped routes after) : Told router (route :: routes) after

theorem told_reportLost (router : Router) (routes : List Route) :
    Told router routes (router.reportLost routes) := by
  induction routes generalizing router with
  | nil => exact .done router
  | cons route routes ih =>
      have hrest := ih (router.deliver route.origin (memberLost route)).2
      by_cases haccepts : ∃ outbox, router.Accepts route.origin outbox
      · obtain ⟨outbox, haccepts⟩ := haccepts
        rw [haccepts.deliver_eq] at hrest
        refine .heard haccepts ?_
        rwa [reportLost, List.foldl_cons, haccepts.deliver_eq]
      · have hrefuses := not_exists.1 haccepts
        rw [deliver_of_not_accepts hrefuses] at hrest
        refine .missed hrefuses ?_
        rwa [reportLost, List.foldl_cons, deliver_of_not_accepts hrefuses]

/-- What decides where reports find room, and how many find none. -/
def account (router : Router) : (MemberId → Nat) × Nat := (router.room, router.stats.repliesDropped)

/-- What a report takes of the room, or adds to the reports that found none. -/
def spend (account : (MemberId → Nat) × Nat) (route : Route) : (MemberId → Nat) × Nat :=
  (fun id => account.1 id - if id = route.origin then 1 else 0,
    account.2 + if account.1 route.origin = 0 then 1 else 0)

/-- Two reports may be made in either order. -/
theorem spend_spend (account : (MemberId → Nat) × Nat) (route other : Route) :
    spend (spend account route) other = spend (spend account other) route := by
  unfold spend
  refine Prod.ext ?_ ?_
  · funext id
    exact Nat.sub_right_comm _ _ _
  · by_cases horigin : other.origin = route.origin
    · rw [horigin]
    · simp only [if_neg horigin, if_neg (Ne.symm horigin), Nat.sub_zero]
      exact Nat.add_right_comm _ _ _

theorem account_deliver (router : Router) (route : Route) :
    (router.deliver route.origin (memberLost route)).2.account = spend router.account route := by
  refine Prod.ext ?_ ?_
  · funext id
    exact room_deliver router route.origin (memberLost route) id
  · show (router.deliver route.origin (memberLost route)).2.stats.repliesDropped =
      router.stats.repliesDropped + if router.room route.origin = 0 then 1 else 0
    by_cases hroom : router.room route.origin = 0
    · rw [if_pos hroom, deliver_of_not_accepts (room_eq_zero_iff.1 hroom)]
      rfl
    · obtain ⟨outbox, haccepts⟩ := room_pos_iff.1 (Nat.pos_of_ne_zero hroom)
      rw [if_neg hroom, haccepts.deliver_eq]
      rfl

theorem account_reportLost (router : Router) (routes : List Route) :
    (router.reportLost routes).account = routes.foldl spend router.account := by
  induction routes generalizing router with
  | nil => rfl
  | cons route routes ih =>
      rw [List.foldl_cons, ← account_deliver]
      exact ih _

/-- In whatever order reports are made, as many of them find room, and as much room is left. -/
theorem account_reportLost_perm {a b : Router} (haccount : b.account = a.account)
    {routes order : List Route} (horder : order.Perm routes) :
    (b.reportLost order).account = (a.reportLost routes).account := by
  rw [account_reportLost, account_reportLost, haccount]
  exact horder.foldl_eq' (fun route _ other _ account => spend_spend account route other) _

/-! ## Clusters -/

/-- Where each cluster has one list, a list is found under the name of its cluster. -/
theorem roster?_eq_some_iff {router : Router}
    (hclusters : (router.rosters.map Roster.cluster).Nodup)
    {cluster : String} {roster : Roster} :
    router.roster? cluster = some roster ↔ roster ∈ router.rosters ∧ roster.cluster = cluster := by
  constructor
  · exact fun h => ⟨List.mem_of_find?_eq_some h, Lookup.key_of_find? h⟩
  · rintro ⟨hmem, rfl⟩
    exact Lookup.find?_eq_some_of_mem hclusters hmem

/-- The lists behind a departure: those of other clusters, and what is left of that of its own. -/
theorem mem_rosters_unregister {router : Router} {member : Member} {roster : Roster} :
    roster ∈ (router.unregister member).rosters ↔
      (roster ∈ router.rosters ∧ roster.cluster ≠ member.cluster) ∨
        ∃ old ∈ router.rosters, old.cluster = member.cluster ∧ roster = old.remove member.id ∧
          roster.ids ≠ [] := by
  have hmem : roster ∈ (router.unregister member).rosters ↔
      (∃ old ∈ router.rosters,
        (if old.cluster = member.cluster then old.remove member.id else old) =
        roster) ∧ (roster.cluster ≠ member.cluster ∨ roster.ids ≠ []) := by
    unfold unregister
    rw [List.mem_filter, List.mem_map, decide_eq_true_eq]
  rw [hmem]
  constructor
  · rintro ⟨⟨old, hold, rfl⟩, hkept⟩
    by_cases hown : old.cluster = member.cluster
    · rw [if_pos hown] at hkept ⊢
      exact Or.inr ⟨old, hold, hown, rfl, hkept.resolve_left fun hne => hne hown⟩
    · rw [if_neg hown]
      exact Or.inl ⟨hold, hown⟩
  · rintro (⟨hold, hother⟩ | ⟨old, hold, hown, rfl, hkept⟩)
    · exact ⟨⟨roster, hold, if_neg hother⟩, Or.inl hother⟩
    · exact ⟨⟨old, hold, if_pos hown⟩, Or.inr hkept⟩

section Unregister

variable {router : Router} (hclusters : (router.rosters.map Roster.cluster).Nodup) (member : Member)

include hclusters

/-- Other clusters keep their lists. -/
theorem roster?_unregister_ne {cluster : String} (hother : cluster ≠ member.cluster) :
    (router.unregister member).roster? cluster = router.roster? cluster := by
  refine Option.ext fun roster => ?_
  rw [roster?_eq_some_iff (nodup_clusters_unregister hclusters member),
    roster?_eq_some_iff hclusters, mem_rosters_unregister]
  constructor
  · rintro ⟨⟨hmem, -⟩ | ⟨old, -, hown, rfl, -⟩, hname⟩
    · exact ⟨hmem, hname⟩
    · exact absurd (hname.symm.trans hown) hother
  · rintro ⟨hmem, rfl⟩
    exact ⟨Or.inl ⟨hmem, hother⟩, rfl⟩

/-- The cluster of the member loses the member from its list, and is forgotten if nobody is left. -/
theorem roster?_unregister_self {roster : Roster}
    (hroster : router.roster? member.cluster = some roster) :
    (router.unregister member).roster? member.cluster =
      if (roster.remove member.id).ids = [] then none else some (roster.remove member.id) := by
  obtain ⟨hmem, hname⟩ := (roster?_eq_some_iff hclusters).1 hroster
  have hafter := nodup_clusters_unregister hclusters member
  split
  · next hempty =>
      refine Option.eq_none_iff_forall_ne_some.2 fun left hleft => ?_
      obtain ⟨hleft, hown⟩ := (roster?_eq_some_iff hafter).1 hleft
      rcases mem_rosters_unregister.1 hleft with ⟨-, hother⟩ | ⟨old, hold, hcluster, rfl, hkept⟩
      · exact hother hown
      · rw [Lookup.eq_of_key hclusters hold hmem (hcluster.trans hname.symm)] at hkept
        exact hkept hempty
  · next hkept =>
      refine (roster?_eq_some_iff hafter).2 ⟨?_, hname⟩
      exact mem_rosters_unregister.2 (Or.inr ⟨roster, hmem, hname, rfl, hkept⟩)

end Unregister

/-! ## Departures -/

/-- What becomes of a router that a registered member leaves, and the number that is reported. -/
structure Departed (before : Router) (member : Member) (count : Nat) (after : Router) : Prop where
  /-- The routes that begin or end at the member are gone, and counted. The others stay. -/
  count : count = before.routes.countP (Route.touches · member.id)
  routes : after.routes = before.routes.filter fun route => !route.touches member.id
  /-- The member is taken off the registry and off its cluster, and nobody else is. -/
  members : after.members = before.members.filter fun other => other.id ≠ member.id
  cluster : ∃ roster, before.roster? member.cluster = some roster ∧ member.id ∈ roster.ids ∧
    after.roster? member.cluster =
      if roster.ids.filter (· ≠ member.id) = [] then none
      else some { roster with ids := roster.ids.filter (· ≠ member.id) }
  clusters : ∀ cluster, cluster ≠ member.cluster → after.roster? cluster = before.roster? cluster
  nextMember : after.nextMember = before.nextMember
  nextRoute : after.nextRoute = before.nextRoute
  /-- The origins of the routes that were passed to the member are told, and nobody else is. -/
  told : Told { after with outboxes := before.outboxes, stats := before.stats }
    (before.lostWith member.id) after
  /-- What others find in their outboxes: a report for each of their routes, as long as there is
  room. -/
  queued : ∀ id, after.queued id = before.queued id ++
    (((before.lostWith member.id).filter fun route => route.origin = id).map memberLost).take
      (before.room id)
  books : SameBooks before after

/-- Two ends of one departure that differ at most in the order of the routes, and in which of the
reports to a member have found room. -/
structure Likewise (departed other : Nat × Router) : Prop where
  count : other.1 = departed.1
  routes : other.2.routes.Perm departed.2.routes
  members : other.2.members = departed.2.members
  rosters : other.2.rosters = departed.2.rosters
  nextMember : other.2.nextMember = departed.2.nextMember
  nextRoute : other.2.nextRoute = departed.2.nextRoute
  stats : other.2.stats = departed.2.stats
  queued : ∀ id, (other.2.queued id).length = (departed.2.queued id).length
  room : ∀ id, other.2.room id = departed.2.room id

/-- What may happen when somebody leaves. -/
structure Departure (router : Router) (id : MemberId) : Prop where
  /-- Who is not registered leaves nothing behind. -/
  absent : router.member? id = none → router.leave id = (0, router)
  departed : ∀ member, router.member? id = some member →
    Departed router member (router.leave id).1 (router.leave id).2
  /-- It makes no difference in which order the routes are gone through. -/
  unordered : ∀ order, order.Perm router.routes →
    Likewise (router.leave id) ((router.arrange order).leave id)

theorem countP_leave {router : Router} {id : MemberId} {member : Member}
    (h : router.member? id = some member) :
    (router.leave id).1 = router.routes.countP (Route.touches · id) := by
  unfold leave
  rw [h, List.countP_eq_length_filter]
  simp only [List.partition_eq_filter_filter]

theorem departed_of_housed {router : Router} (h : router.Housed) {member : Member}
    (hmember : router.member? member.id = some member) :
    Departed router member (router.leave member.id).1 (router.leave member.id).2 := by
  have hleave := leave_of_member hmember
  have hsame := sameRegistry_reportLost (router.withoutMember member) (router.lostWith member.id)
  rw [← hleave] at hsame
  have hroster? : ∀ cluster, (router.leave member.id).2.roster? cluster =
      (router.unregister member).roster? cluster := by
    intro cluster
    unfold roster?
    rw [hsame.rosters]
    rfl
  obtain ⟨roster, hroster, hname, hid⟩ := h.listed member (List.mem_of_find?_eq_some hmember)
  have hfound := (roster?_eq_some_iff h.clusters).2 ⟨hroster, hname⟩
  constructor
  case count => exact countP_leave hmember
  case routes => exact routes_leave hmember
  case members => exact hsame.members
  case cluster =>
    refine ⟨roster, hfound, hid, ?_⟩
    rw [hroster?, roster?_unregister_self h.clusters member hfound]
    rfl
  case clusters =>
    intro cluster hother
    rw [hroster?, roster?_unregister_ne h.clusters member hother]
  case nextMember => exact hsame.nextMember
  case nextRoute => exact hsame.nextRoute
  case told =>
    have hreset : ({ (router.leave member.id).2 with
        outboxes := router.outboxes, stats :=
          router.stats } : Router) = router.withoutMember member :=
      hsame.reset
    rw [hreset, hleave]
    exact told_reportLost _ _
  case queued => exact queued_leave hmember
  case books => exact sameBooks_leave router member.id

/-- A departure comes to the same in whatever order the routes are gone through. -/
theorem likewise_leave (router : Router) (id : MemberId) {order : List Route}
    (horder : order.Perm router.routes) :
    Likewise (router.leave id) ((router.arrange order).leave id) := by
  cases hmember : router.member? id with
  | none =>
      have hother : (router.arrange order).member? id = none := hmember
      rw [leave_of_not_member hmember, leave_of_not_member hother]
      exact ⟨rfl, horder, rfl, rfl, rfl, rfl, rfl, fun _ => rfl, fun _ => rfl⟩
  | some member =>
      have hother : (router.arrange order).member? id = some member := hmember
      -- The order of the routes decides in which order origins are told, not how often.
      have hlost : ((router.arrange order).lostWith id).Perm (router.lostWith id) := horder.filter _
      have hvacated : ((router.arrange order).withoutMember member).account =
          (router.withoutMember member).account := rfl
      have haccount :
          ((router.arrange order).leave id).2.account = (router.leave id).2.account := by
        rw [leave_of_member hmember, leave_of_member hother]
        exact account_reportLost_perm hvacated hlost
      have harranged : SameBooks router (router.arrange order) := .of_stats rfl
      have hbooks := (sameBooks_leave router id).symm.trans
        (harranged.trans (sameBooks_leave (router.arrange order) id))
      have hsame := sameRegistry_reportLost (router.withoutMember member) (router.lostWith id)
      have hsame' := sameRegistry_reportLost ((router.arrange order).withoutMember member)
        ((router.arrange order).lostWith id)
      rw [← leave_of_member hmember] at hsame
      rw [← leave_of_member hother] at hsame'
      constructor
      case count =>
        rw [countP_leave hmember, countP_leave hother]
        exact horder.countP_eq _
      case routes =>
        rw [routes_leave hmember, routes_leave hother]
        exact horder.filter _
      case members => exact hsame'.members.trans hsame.members.symm
      case rosters => exact hsame'.rosters.trans hsame.rosters.symm
      case nextMember => exact hsame'.nextMember.trans hsame.nextMember.symm
      case nextRoute => exact hsame'.nextRoute.trans hsame.nextRoute.symm
      case stats => exact hbooks.stats_eq (congrArg Prod.snd haccount)
      case queued =>
        intro other
        have hheard := (hlost.filter fun route => decide (route.origin = other)).length_eq
        rw [queued_leave hmember, queued_leave hother, List.length_append, List.length_append,
          List.length_take, List.length_take, List.length_map, List.length_map, hheard]
        rfl
      case room => exact fun other => congrFun (congrArg Prod.fst haccount) other

/-- Whatever has been done with a router, and whoever leaves, what belongs to others stays, and each
origin of a request that the member was serving is told once. -/
theorem departure_of_reached {joined : Nat} {drawn : List RequestId} {router : Router}
    (h : Reached joined drawn router) (id : MemberId) : Departure router id where
  absent := leave_of_not_member
  departed := by
    intro member hmember
    obtain rfl : member.id = id := Lookup.key_of_find? hmember
    exact departed_of_housed h.housed hmember
  unordered := fun _ horder => likewise_leave router id horder

/-- Two members of a cluster serve requests in turn: three of a member that takes one message only,
and two of one of their own, the second of which comes back to itself. -/
def partingRun : List Step :=
  [.join "clients" 1, .join "svc" 8, .join "svc" 8,
    .request 1 ⟨7⟩ "svc" (.ofMillis 1000) ⟨#[1]⟩ 0, .request 1 ⟨8⟩ "svc" (.ofMillis 1000) ⟨#[2]⟩ 0,
    .request 1 ⟨9⟩ "svc" (.ofMillis 1000) ⟨#[3]⟩ 0, .request 2 ⟨7⟩ "svc" (.ofMillis 1000) ⟨#[4]⟩ 0,
    .request 2 ⟨8⟩ "svc" (.ofMillis 1000) ⟨#[5]⟩ 0]

/-- That one leaves. Four routes are gone, and of the two reports that the first member is due, the
one that is made first finds room. -/
theorem departure_of_partingRun :
    Reached 3 [⟨1⟩, ⟨2⟩, ⟨3⟩, ⟨4⟩, ⟨5⟩] ((run partingRun).arrange (run partingRun).routes.reverse) ∧
      Departure ((run partingRun).arrange (run partingRun).routes.reverse) 2 ∧
      ((run partingRun).leave 2).1 = 4 ∧ ((run partingRun).leave 2).2.stats.repliesDropped = 1 ∧
      ((run partingRun).leave 2).2.queued 1 =
        [.errorReply ⟨7⟩ .memberLost "serving member disconnected"] ∧
      (((run partingRun).arrange (run partingRun).routes.reverse).leave 2).2.queued 1 =
        [.errorReply ⟨9⟩ .memberLost "serving member disconnected"] := by
  have hreached : Reached 3 [⟨1⟩, ⟨2⟩, ⟨3⟩, ⟨4⟩, ⟨5⟩]
      ((run partingRun).arrange (run partingRun).routes.reverse) := by
    have hrun := reached_run partingRun
    have hdrawn : Router.new.drawnIn partingRun = [⟨1⟩, ⟨2⟩, ⟨3⟩, ⟨4⟩, ⟨5⟩] := by decide +kernel
    rw [hdrawn] at hrun
    exact hrun.arrange (List.reverse_perm _)
  exact ⟨hreached, departure_of_reached hreached 2, by decide +kernel, by decide +kernel,
    by decide +kernel, by decide +kernel⟩

end Router

end Switchboard
