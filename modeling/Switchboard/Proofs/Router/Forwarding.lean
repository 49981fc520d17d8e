import Switchboard.Proofs.Router.Answers
import Switchboard.Proofs.Router.Balance
import Switchboard.Proofs.Router.Reach

/-!
# What a request leaves behind

A request is passed on whole or not at all. Passed on, it stands in the outbox of the member whose
turn it was, under a number that no request before it had, and one route leads back from it
(`Forwards`). Refused, it leaves no route, and nothing in any outbox but one error in that of its
origin, if there is room (`Rejects`). Either way members and clusters are as they were, apart from
the turn. Which of the two happens is decided by the member whose turn it is alone, be it the origin
itself or not (`request_settled_of_reached`).
-/

namespace Switchboard

/-- The milliseconds of a duration, or the largest number that the wire carries. -/
theorem Duration.toNat_wireMillis (d : Duration) :
    d.wireMillis.toNat = min d.millis (UInt64.size - 1) := by
  have hlt : min d.millis (UInt64.size - 1) < UInt64.size :=
    (Nat.min_le_right _ _).trans_lt (by decide)
  exact UInt64.toNat_ofNat_of_lt' hlt

namespace Router

/-- What a request does to members and clusters: the turn passes on in the cluster that it names. -/
structure Turned (before : Router) (cluster : String) (after : Router) : Prop where
  members : after.members = before.members
  nextMember : after.nextMember = before.nextMember
  rosters : ∀ other, after.roster? other =
    if other = cluster then
      (before.roster? other).map fun roster => { roster with picks := roster.picks + 1 }
    else before.roster? other

/-- A request has been passed on to `target`, whose outbox was `outbox`. The numbers `drawn` have
been drawn for requests before. -/
structure Forwards (drawn : List RequestId) (before : Router) (origin : MemberId) (id : RequestId)
    (cluster : String) (timeout : Duration) (payload : ByteArray) (now : Instant) (after : Router)
    (target : MemberId) (outbox : Outbox) : Prop where
  turned : Turned before cluster after
  turn : before.turn? cluster = some target
  accepts : before.Accepts target outbox
  /-- The request travels under a new number, with the timeout in whole milliseconds. -/
  fresh : (⟨before.nextRoute⟩ : RequestId) ∉ drawn
  received : ∃ millis : UInt64, millis.toNat = min timeout.millis (UInt64.size - 1) ∧
    after.outbox? target = some { outbox with
      queued := outbox.queued ++ [.request ⟨before.nextRoute⟩ cluster millis payload] }
  others : ∀ other, other ≠ target → after.outbox? other = before.outbox? other
  /-- One route is new. -/
  routes : ∃ route : Route, after.routes = before.routes ++ [route] ∧
    route.id = ⟨before.nextRoute⟩ ∧ route.origin = origin ∧ route.originId = id ∧
    route.target = target ∧ route.deadline = now.after (timeout.atMost maxRouteLifetime)
  nextRoute : after.nextRoute = before.nextRoute + 1
  stats : after.stats = { before.stats with requestsRouted := before.stats.requestsRouted + 1 }

/-- Why a request to a cluster is refused, and with which code and text. `next` is the number of the
next route from then on. -/
inductive Refused (before : Router) (cluster : String) (next : UInt64) :
    ErrorCode → String → Prop where
  | noMembers (hcount : before.memberCount cluster = 0) (hnext : next = before.nextRoute) :
      Refused before cluster next .noMembers s!"no members in cluster {cluster}"
  | hungUp (target : MemberId) (outbox : Outbox) (hturn : before.turn? cluster = some target)
      (hregistered : (before.member? target).isSome = true)
      (hfound : before.outbox? target = some outbox) (hread : outbox.isRead = false)
      (hnext : next = before.nextRoute + 1) :
      Refused before cluster next .internalError s!"member {target} is gone"
  | full (target : MemberId) (outbox : Outbox) (hturn : before.turn? cluster = some target)
      (hregistered : (before.member? target).isSome = true)
      (hfound : before.outbox? target = some outbox) (hread : outbox.isRead = true)
      (hfull : outbox.capacity ≤ outbox.queued.length) (hnext : next = before.nextRoute + 1) :
      Refused before cluster next .internalError s!"member {target} outbound queue full"

/-- A request has been refused with an error. -/
structure Rejects (before : Router) (origin : MemberId) (id : RequestId) (cluster : String)
    (after : Router) (code : ErrorCode) (text : String) : Prop where
  turned : Turned before cluster after
  refused : Refused before cluster after.nextRoute code text
  routes : after.routes = before.routes
  others : ∀ other, other ≠ origin → after.outbox? other = before.outbox? other
  /-- The origin hears of it if it takes a message. -/
  heard : ∀ outbox, before.Accepts origin outbox →
    after.outbox? origin =
      some { outbox with queued := outbox.queued ++ [.errorReply id code text] } ∧
    after.stats = { before.stats with requestsRejected := before.stats.requestsRejected + 1 }
  unheard : (∀ outbox, ¬ before.Accepts origin outbox) →
    after.outbox? origin = before.outbox? origin ∧
    after.stats = { before.stats with
      requestsRejected := before.stats.requestsRejected + 1
      repliesDropped := before.stats.repliesDropped + 1 }

/-! ## Passing the turn on -/

theorem roster?_pick (router : Router) (cluster other : String) :
    (router.pick cluster).2.roster? other =
      if other = cluster then (router.roster? other).map Roster.advance
        else router.roster? other := by
  unfold pick
  cases hroster : router.roster? cluster with
  | none =>
      by_cases hother : other = cluster
      · rw [if_pos hother, hother, hroster]
        rfl
      · rw [if_neg hother]
  | some roster =>
      obtain rfl : roster.cluster = cluster := Lookup.key_of_find? hroster
      by_cases hother : other = roster.cluster
      · rw [if_pos hother, hother, hroster]
        refine (Lookup.find?_replace_self Roster.cluster roster.advance router.rosters).trans ?_
        exact congrArg (Option.map fun _ => roster.advance) hroster
      · rw [if_neg hother]
        exact Lookup.find?_replace_ne Roster.cluster roster.advance router.rosters hother

theorem turned_of_pick {before after : Router} {cluster : String} {rosters : List Roster}
    (hpick : (before.pick cluster).2 = { before with rosters })
    (hmembers : after.members = before.members) (hnextMember : after.nextMember = before.nextMember)
    (hrosters : after.rosters = rosters) : Turned before cluster after where
  members := hmembers
  nextMember := hnextMember
  rosters := by
    intro other
    have hother := roster?_pick before cluster other
    rw [hpick] at hother
    unfold roster? at hother ⊢
    rw [hrosters]
    exact hother

theorem Turned.of_sameRegistry {before router after : Router} {cluster : String}
    (h : Turned before cluster router) (hsame : SameRegistry router after) :
    Turned before cluster after where
  members := hsame.members.trans h.members
  nextMember := hsame.nextMember.trans h.nextMember
  rosters := by
    intro other
    rw [← h.rosters other]
    unfold roster?
    rw [hsame.rosters]

/-! ## Refusing -/

section Reject

variable {router before : Router} {origin : MemberId}

/-- Who takes a message is told by members and outboxes. -/
theorem Accepts.congr {id : MemberId} {outbox : Outbox} (h : before.Accepts id outbox)
    (hmembers : router.members = before.members) (houtboxes : router.outboxes = before.outboxes) :
    router.Accepts id outbox := by
  obtain ⟨hregistered, hfound, hread, hspare⟩ := h
  refine ⟨?_, ?_, hread, hspare⟩
  · unfold member?
    rw [hmembers]
    exact hregistered
  · unfold outbox?
    rw [houtboxes]
    exact hfound

theorem Accepts.reject_eq {outbox : Outbox} (h : router.Accepts origin outbox) (id : RequestId)
    (code : ErrorCode) (text : String) : router.reject origin id code text =
      router.countRejected.receive outbox (.errorReply id code text) := by
  have hcounted : router.countRejected.Accepts origin outbox := h.congr rfl rfl
  exact congrArg Prod.snd (hcounted.deliver_eq _)

theorem reject_of_not_accepts (h : ∀ outbox, ¬ router.Accepts origin outbox) (id : RequestId)
    (code : ErrorCode) (text : String) :
    router.reject origin id code text = router.countRejected.countDropped := by
  have hcounted : ∀ outbox, ¬ router.countRejected.Accepts origin outbox :=
    fun outbox haccepts => h outbox (haccepts.congr rfl rfl)
  exact congrArg Prod.snd (deliver_of_not_accepts hcounted _)

/-- The origin hears of the error if it takes a message. -/
theorem Accepts.outbox?_reject {outbox : Outbox} (h : router.Accepts origin outbox) (id : RequestId)
    (code : ErrorCode) (text : String) : (router.reject origin id code text).outbox? origin =
      some { outbox with queued := outbox.queued ++ [.errorReply id code text] } := by
  have hfound : router.countRejected.outbox? origin = some outbox := h.found
  rw [h.reject_eq]
  exact outbox?_receive_self hfound _

/-- An error of the router's own changes one outbox at most. -/
theorem outbox?_reject_ne {other : MemberId} (hother : other ≠ origin) (id : RequestId)
    (code : ErrorCode) (text : String) :
    (router.reject origin id code text).outbox? other = router.outbox? other := by
  by_cases haccepts : ∃ outbox, router.Accepts origin outbox
  · obtain ⟨outbox, haccepts⟩ := haccepts
    have hfound : router.countRejected.outbox? origin = some outbox := haccepts.found
    rw [haccepts.reject_eq, outbox?_receive_ne hfound _ hother]
    rfl
  · rw [reject_of_not_accepts (not_exists.1 haccepts)]
    rfl

/-- A request is refused by a router that has done nothing yet, but passed the turn on. -/
theorem rejects_of_reject {cluster : String} {text : String} {code : ErrorCode} (id : RequestId)
    (hturned : Turned before cluster router) (hroutes : router.routes = before.routes)
    (houtboxes : router.outboxes = before.outboxes) (hstats : router.stats = before.stats)
    (hrefused : Refused before cluster router.nextRoute code text) :
    Rejects before origin id cluster (router.reject origin id code text) code text := by
  have hsame := router.sameRegistry_reject origin id code text
  have houtbox? : ∀ other, router.outbox? other = before.outbox? other := by
    intro other
    unfold outbox?
    rw [houtboxes]
  constructor
  case turned => exact hturned.of_sameRegistry hsame
  case refused =>
    rw [hsame.nextRoute]
    exact hrefused
  case routes => rw [hsame.routes, hroutes]
  case others =>
    intro other hother
    rw [outbox?_reject_ne hother, houtbox?]
  case heard =>
    intro outbox haccepts
    have hcongr : router.Accepts origin outbox := haccepts.congr hturned.members houtboxes
    refine ⟨hcongr.outbox?_reject id code text, ?_⟩
    rw [hcongr.reject_eq, ← hstats]
    rfl
  case unheard =>
    intro hrefuses
    have hcongr : ∀ outbox, ¬ router.Accepts origin outbox :=
      fun outbox haccepts => hrefuses outbox (haccepts.congr hturned.members.symm houtboxes.symm)
    rw [reject_of_not_accepts hcongr, ← hstats]
    exact ⟨houtbox? origin, rfl⟩

end Reject

/-! ## Passing on -/

section Pass

variable {router : Router} {target : MemberId} {outbox : Outbox} (h : router.Accepts target outbox)
  (rosters : List Roster) (route : Route) (message : Message)

include h

/-- A request that is passed on comes last in the outbox of its target. -/
theorem Accepts.outbox?_passed :
    ((router.opened rosters route).receive outbox message).countRouted.outbox? target =
      some { outbox with queued := outbox.queued ++ [message] } := by
  have hfound := h.found
  rw [← outbox?_opened router rosters route] at hfound
  exact outbox?_receive_self hfound message

theorem Accepts.outbox?_passed_ne {other : MemberId} (hother : other ≠ target) :
    ((router.opened rosters route).receive outbox message).countRouted.outbox? other =
      router.outbox? other := by
  have hfound := h.found
  rw [← outbox?_opened router rosters route] at hfound
  exact outbox?_receive_ne hfound message hother

end Pass

/-! ## All or nothing -/

section Request

variable {joined : Nat} {drawn : List RequestId} {router : Router} (h : Reached joined drawn router)
  (origin : MemberId) (id : RequestId) (cluster : String) (timeout : Duration) (payload : ByteArray)
  (now : Instant)

include h

/-- The member whose turn it is is registered and has an outbox. -/
theorem Reached.exists_outbox_of_turn? (hjoined : joined < UInt64.size) {target : MemberId}
    (hturn : router.turn? cluster = some target) :
    (router.member? target).isSome = true ∧ ∃ outbox, router.outbox? target = some outbox := by
  have hmember := ((h.consistent hjoined).1.listed _ _).1 (inCluster_of_turn? hturn)
  refine ⟨?_, Option.isSome_iff_exists.1 (isSome_outbox?_iff.2 (h.housed.outboxes _ hmember))⟩
  unfold member?
  rw [List.find?_isSome]
  exact ⟨_, hmember, decide_eq_true rfl⟩

theorem Reached.forwards (hdrawn : drawn.length < UInt64.size) {rosters : List Roster}
    (hpick : (router.pick cluster).2 = { router with rosters }) {target : MemberId}
    {outbox : Outbox} (hturn : router.turn? cluster = some target)
    (haccepts : router.Accepts target outbox) :
    Forwards drawn router origin id cluster timeout payload now
      ((router.opened rosters (router.routeFor origin id target timeout now)).receive outbox
        (.request ⟨router.nextRoute⟩ cluster timeout.wireMillis payload)).countRouted target
          outbox where
  turned := turned_of_pick hpick rfl rfl rfl
  turn := hturn
  accepts := haccepts
  fresh := h.fresh hdrawn
  received :=
    ⟨timeout.wireMillis, timeout.toNat_wireMillis, haccepts.outbox?_passed rosters _ _⟩
  others := fun _ hother => haccepts.outbox?_passed_ne rosters _ _ hother
  routes := ⟨router.routeFor origin id target timeout now, rfl, rfl, rfl, rfl, rfl, rfl⟩
  nextRoute := rfl
  stats := rfl

/-- A request to a member that takes no message leaves no route. -/
theorem Reached.rejects (hjoined : joined < UInt64.size) (hdrawn : drawn.length < UInt64.size)
    {rosters : List Roster} (hpick : (router.pick cluster).2 = { router with rosters })
    {target : MemberId} (hturn : router.turn? cluster = some target) {route : Route}
    (hroute : route.id = ⟨router.nextRoute⟩) {fault : Undelivered} {message : Message}
    (hpush : (router.opened rosters route).push target message = .error fault) :
    Rejects router origin id cluster (((router.opened rosters route).eraseRoute
      ⟨router.nextRoute⟩).reject origin id .internalError fault.text) .internalError
        fault.text := by
  obtain ⟨hregistered, outbox, hfound⟩ := h.exists_outbox_of_turn? cluster hjoined hturn
  have hfresh : ∀ other ∈ router.routes, other.id ≠ ⟨router.nextRoute⟩ :=
    fun other hother hsame => h.fresh hdrawn (hsame ▸ h.numbered.routes other hother)
  refine rejects_of_reject id (turned_of_pick hpick rfl rfl rfl)
    (routes_eraseRoute_opened rosters hroute hfresh) rfl rfl ?_
  rw [← member?_opened router rosters route] at hregistered
  rw [← outbox?_opened router rosters route] at hfound
  rcases fault_of_push hregistered hfound hpush with ⟨hread, rfl⟩ | ⟨hread, hfull, rfl⟩
  · exact .hungUp target outbox hturn hregistered hfound hread rfl
  · exact .full target outbox hturn hregistered hfound hread hfull rfl

/-- Every request is passed on, or it is refused. -/
theorem Reached.forwards_or_rejects (hjoined : joined < UInt64.size)
    (hdrawn : drawn.length < UInt64.size) :
    (∃ target outbox, Forwards drawn router origin id cluster timeout payload now
        (router.routeRequest origin id cluster timeout payload now) target outbox) ∨
      ∃ code text, Rejects router origin id cluster
        (router.routeRequest origin id cluster timeout payload now) code text := by
  obtain ⟨rosters, hpick, hrequest⟩ :=
    router.routeRequest_eq origin id cluster timeout payload now
  rw [hrequest]
  cases hturn : router.turn? cluster with
  | none =>
      have hturned : Turned router cluster { router with rosters } :=
        turned_of_pick hpick rfl rfl rfl
      exact Or.inr ⟨_, _, rejects_of_reject id hturned rfl rfl rfl
        (.noMembers (memberCount_of_turn?_eq_none hturn) rfl)⟩
  | some target =>
      simp only
      by_cases haccepts : ∃ outbox, router.Accepts target outbox
      · obtain ⟨outbox, haccepts⟩ := haccepts
        have hopened : (router.opened rosters
            (router.routeFor origin id target timeout now)).Accepts target outbox :=
          haccepts.congr rfl rfl
        rw [hopened.push_eq]
        exact Or.inl ⟨target, outbox,
          h.forwards origin id cluster timeout payload now hdrawn hpick hturn haccepts⟩
      · have hopened : ∀ outbox, ¬ (router.opened rosters
            (router.routeFor origin id target timeout now)).Accepts target outbox :=
          fun outbox hopened => haccepts ⟨outbox, hopened.congr rfl rfl⟩
        obtain ⟨fault, hpush⟩ := push_eq_error_of_room
          (.request ⟨router.nextRoute⟩ cluster timeout.wireMillis payload)
            (room_eq_zero_iff.2 hopened)
        rw [hpush]
        exact Or.inr ⟨_, _, h.rejects origin id cluster hjoined hdrawn hpick hturn rfl hpush⟩

end Request

/-- What has been refused is not counted as passed on. -/
theorem Rejects.requestsRouted {before after : Router} {origin : MemberId} {id : RequestId}
    {cluster text : String} {code : ErrorCode}
    (h : Rejects before origin id cluster after code text) :
    after.stats.requestsRouted = before.stats.requestsRouted := by
  by_cases haccepts : ∃ outbox, before.Accepts origin outbox
  · obtain ⟨outbox, haccepts⟩ := haccepts
    rw [(h.heard outbox haccepts).2]
  · rw [(h.unheard (not_exists.1 haccepts)).2]

/-- As long as the numbers last, every request is either passed on or refused, whatever its
arguments and whatever has been done with the router before. -/
theorem request_settled_of_reached {joined : Nat} {drawn : List RequestId} {router : Router}
    (h : Reached joined drawn router) (hjoined : joined < UInt64.size)
    (hdrawn : drawn.length < UInt64.size) (origin : MemberId) (id : RequestId) (cluster : String)
    (timeout : Duration) (payload : ByteArray) (now : Instant) :
    Xor (∃ target outbox, Forwards drawn router origin id cluster timeout payload now
        (router.routeRequest origin id cluster timeout payload now) target outbox)
      (∃ code text, Rejects router origin id cluster
        (router.routeRequest origin id cluster timeout payload now) code text) := by
  have hnot : ¬ ((∃ target outbox, Forwards drawn router origin id cluster timeout payload now
        (router.routeRequest origin id cluster timeout payload now) target outbox) ∧
      ∃ code text, Rejects router origin id cluster
        (router.routeRequest origin id cluster timeout payload now) code text) := by
    rintro ⟨⟨target, outbox, hforwards⟩, code, text, hrejects⟩
    -- The counts tell the one from the other.
    have hrouted := hrejects.requestsRouted
    rw [hforwards.stats] at hrouted
    exact Nat.succ_ne_self _ hrouted
  rcases h.forwards_or_rejects origin id cluster timeout payload now hjoined hdrawn with
    hforwards | hrejects
  · exact Or.inl ⟨hforwards, fun hrejects => hnot ⟨hforwards, hrejects⟩⟩
  · exact Or.inr ⟨hrejects, fun hforwards => hnot ⟨hforwards, hrejects⟩⟩

/-- A member that is alone in its cluster, and takes one message, makes a request of its own
cluster. -/
def ownRun : List Step := [.join "svc" 1, .request 1 ⟨7⟩ "svc" (.ofMillis 1000) ⟨#[1]⟩ 0]

/-- It makes another. The first fills its outbox, so the second is refused, and there is no room for
the error either. -/
theorem request_settled_of_ownRun :
    Reached 1 [⟨1⟩] (run ownRun) ∧ 1 < UInt64.size ∧
      ([⟨1⟩] : List RequestId).length < UInt64.size ∧
      Xor (∃ target outbox, Forwards [⟨1⟩] (run ownRun) 1 ⟨8⟩ "svc" (.ofMillis 1000) ⟨#[2]⟩ 0
          ((run ownRun).routeRequest 1 ⟨8⟩ "svc" (.ofMillis 1000) ⟨#[2]⟩ 0) target outbox)
        (∃ code text, Rejects (run ownRun) 1 ⟨8⟩ "svc"
          ((run ownRun).routeRequest 1 ⟨8⟩ "svc" (.ofMillis 1000) ⟨#[2]⟩ 0) code text) ∧
      ((run ownRun).routeRequest 1 ⟨8⟩ "svc" (.ofMillis 1000) ⟨#[2]⟩ 0).stats =
        { requestsRouted := 1, requestsRejected := 1, repliesDropped := 1 } ∧
      ((run ownRun).routeRequest 1 ⟨8⟩ "svc" (.ofMillis 1000) ⟨#[2]⟩ 0).routes =
        [⟨⟨1⟩, 1, ⟨7⟩, 1, 1000000000⟩] := by
  have hreached : Reached 1 [⟨1⟩] (run ownRun) := by
    have hdrawn : Router.new.drawnIn ownRun = [⟨1⟩] := by decide +kernel
    rw [← hdrawn]
    exact reached_run ownRun
  have hjoined : 1 < UInt64.size := by decide
  have hdrawn : ([⟨1⟩] : List RequestId).length < UInt64.size := by decide
  exact ⟨hreached, hjoined, hdrawn,
    request_settled_of_reached hreached hjoined hdrawn 1 ⟨8⟩ "svc" (.ofMillis 1000) ⟨#[2]⟩ 0,
    by decide +kernel, by decide +kernel⟩

end Router

end Switchboard
