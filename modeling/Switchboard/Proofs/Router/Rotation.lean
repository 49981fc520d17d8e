import Mathlib.Data.Int.CardIntervalMod
import Mathlib.Data.List.Rotate
import Switchboard.Proofs.Router.Departure
import Switchboard.Proofs.Router.Forwarding

/-!
# Whose turn it is

The turn in a cluster is a count of picks that is reduced modulo the number of members at the time.
As long as nobody joins the cluster or leaves it, it is the turn of one member after the other, from
wherever the count stood (`Turning.foldl`), and each request goes to the member whose turn it is: it
is passed on to that member, or refused on its account (`directed_of_turn?`). Requests are therefore
shared out evenly, and nobody is asked twice before everybody has been asked (`rotation_fair`).
-/

namespace Switchboard

/-! ## Choices in turn -/

/-- Choices that are shared out evenly among the candidates: all are candidates, each of which is
chosen as often as any other, give or take one, and as many choices in a row as there are candidates
are different ones. -/
structure Fair {α : Type} [DecidableEq α] (candidates choices : List α) : Prop where
  members : ∀ choice ∈ choices, choice ∈ candidates
  shares : ∀ candidate ∈ candidates,
    choices.count candidate = choices.length / candidates.length ∨
      choices.count candidate = (choices.length + (candidates.length - 1)) / candidates.length
  windows : ∀ i, i + candidates.length ≤ choices.length →
    ((choices.drop i).take candidates.length).Nodup ∧
      ((choices.drop i).take candidates.length).Perm candidates

section Turns

variable {n : Nat} (hn : 0 < n)

include hn

/-- The turns at which the place `i` is reached from the place `p` are those of one remainder. -/
theorem count_turns (p i k : Nat) (hi : i < n) :
    (List.range k).countP (fun j => (p + j) % n = i) = k / n ∨
      (List.range k).countP (fun j => (p + j) % n = i) = (k + (n - 1)) / n := by
  -- The turns that come to place `i` are the members of one residue class.
  have hturn : ∀ j, (p + j) % n = i ↔ j ≡ i + (n - p % n) [MOD n] := by
    intro j
    have hstart : p + (i + (n - p % n)) ≡ i [MOD n] := by
      have hwhole : p + (i + (n - p % n)) = i + n * (p / n + 1) := by
        have hdiv := Nat.div_add_mod p n
        have hlt := Nat.mod_lt p hn
        rw [Nat.mul_add, Nat.mul_one]
        omega
      rw [hwhole]
      exact Nat.add_mul_mod_self_left i n _
    constructor
    · intro hplace
      have hmod : p + j ≡ i [MOD n] := hplace.trans (Nat.mod_eq_of_lt hi).symm
      exact Nat.ModEq.add_left_cancel' p (hmod.trans hstart.symm)
    · intro hturn
      have hmod : p + j ≡ i [MOD n] := (hturn.add_left p).trans hstart
      exact Eq.trans hmod (Nat.mod_eq_of_lt hi)
  have hcount : (List.range k).countP (fun j => (p + j) % n = i) =
      k.count (· ≡ i + (n - p % n) [MOD n]) := by
    rw [Nat.count]
    simp only [hturn]
  rw [hcount, Nat.count_modEq_card k hn]
  by_cases hrest : (i + (n - p % n)) % n < k % n
  · right
    rw [if_pos hrest]
    have hdiv := Nat.div_add_mod k n
    have hlt := Nat.mod_lt k hn
    refine (Nat.div_eq_of_lt_le ?_ ?_).symm
    · rw [Nat.add_mul, Nat.mul_comm]
      omega
    · rw [Nat.add_mul, Nat.add_mul, Nat.mul_comm]
      omega
  · left
    rw [if_neg hrest, Nat.add_zero]

omit hn in
/-- Candidates that are chosen one after the other, and again from the first one on, are treated
fairly. -/
theorem fair_of_turns {α : Type} [DecidableEq α] {candidates choices : List α}
    (hcandidates : candidates ≠ []) (hnodup : candidates.Nodup) (p : Nat)
    (hchoices : ∀ j < choices.length, choices[j]? = candidates[(p + j) % candidates.length]?) :
    Fair candidates choices := by
  have hn : 0 < candidates.length := List.length_pos_iff.2 hcandidates
  have hturn : ∀ j (hj : j < choices.length),
      choices[j] = candidates.get ⟨(p + j) % candidates.length, Nat.mod_lt _ hn⟩ := by
    intro j hj
    have h := hchoices j hj
    rw [List.getElem?_eq_getElem hj, List.getElem?_eq_getElem (Nat.mod_lt _ hn)] at h
    exact Option.some.inj h
  constructor
  · intro choice hchoice
    obtain ⟨j, hj, rfl⟩ := List.mem_iff_getElem.1 hchoice
    rw [hturn j hj]
    exact List.getElem_mem _
  · intro candidate hcandidate
    obtain ⟨i, hi, rfl⟩ := List.mem_iff_getElem.1 hcandidate
    have hmap : choices = (List.range choices.length).map fun j =>
        candidates.get ⟨(p + j) % candidates.length, Nat.mod_lt _ hn⟩ := by
      apply List.ext_getElem
      · simp
      · intro j hj _
        simp [hturn j hj]
    have hcount : choices.count candidates[i] =
        (List.range choices.length).countP fun j => (p + j) % candidates.length = i := by
      conv_lhs => rw [hmap]
      rw [List.count, List.countP_map]
      apply List.countP_congr
      intro j _
      simp [hnodup.getElem_inj_iff]
    rw [hcount]
    exact count_turns hn p i choices.length hi
  · intro i hi
    -- A window is the list of the candidates, begun at another place.
    have hwindow : (choices.drop i).take candidates.length = candidates.rotate (p + i) := by
      apply List.ext_getElem
      · simp
        omega
      · intro j hj _
        have hsum : p + (i + j) = j + (p + i) := by omega
        rw [List.getElem_take, List.getElem_drop, hturn, List.getElem_rotate]
        simp only [hsum, List.get_eq_getElem]
    rw [hwindow]
    exact ⟨List.nodup_rotate.2 hnodup, List.rotate_perm _ _⟩

end Turns

namespace Router

/-! ## The steps of a cluster -/

/-- Whether an operation is a request to a cluster. -/
def Step.asks (cluster : String) : Step → Bool
  | request _ _ named .. => cluster = named
  | _ => false

/-- Whether an operation lets somebody join a cluster or leave it. -/
def Step.changes (router : Router) (cluster : String) : Step → Bool
  | join named _ => named = cluster
  | leave id => (router.member? id).any fun member => member.cluster = cluster
  | _ => false

section Perform

variable {router : Router} (h : router.Housed) {cluster : String} {step : Step}

theorem roster?_congr {before after : Router} (hrosters : after.rosters = before.rosters)
    (cluster : String) : after.roster? cluster = before.roster? cluster := by
  rw [roster?, hrosters, roster?]

/-- A cluster that is not joined keeps its list. -/
theorem roster?_join_ne {named : String} (hnamed : named ≠ cluster) (capacity : Nat) :
    (router.join named capacity).2.roster? cluster = router.roster? cluster := by
  cases hroster : router.roster? named with
  | none =>
      have hrosters : (router.join named capacity).2.rosters =
          router.rosters ++ [{ cluster := named, ids := [router.nextMember] }] := by
        simp only [join, hroster]
      rw [roster?, hrosters, List.find?_append, roster?]
      simp [hnamed]
  | some roster =>
      have hrosters : (router.join named capacity).2.rosters =
          Lookup.replace Roster.cluster (roster.add router.nextMember) router.rosters := by
        simp only [join, hroster]
        rfl
      have hname : roster.cluster = named := Lookup.key_of_find? hroster
      have hother : cluster ≠ (roster.add router.nextMember).cluster :=
        fun hsame => hnamed (hname.symm.trans hsame.symm)
      rw [roster?, hrosters]
      exact Lookup.find?_replace_ne Roster.cluster _ router.rosters hother

/-- Who joins a cluster comes last in its list, or begins one. -/
theorem roster?_join_self (capacity : Nat) :
    (router.join cluster capacity).2.roster? cluster =
      match router.roster? cluster with
      | some roster => some (roster.add router.nextMember)
      | none => some { cluster, ids := [router.nextMember] } := by
  cases hroster : router.roster? cluster with
  | none =>
      have hrosters : (router.join cluster capacity).2.rosters =
          router.rosters ++ [{ cluster, ids := [router.nextMember] }] := by
        simp only [join, hroster]
      rw [roster?] at hroster
      rw [roster?, hrosters, List.find?_append, hroster]
      simp
  | some roster =>
      obtain rfl : roster.cluster = cluster := Lookup.key_of_find? hroster
      have hrosters : (router.join roster.cluster capacity).2.rosters =
          Lookup.replace Roster.cluster (roster.add router.nextMember) router.rosters := by
        simp only [join, hroster]
        rfl
      rw [roster?, hrosters]
      refine (Lookup.find?_replace_self Roster.cluster (roster.add router.nextMember) _).trans ?_
      exact congrArg (Option.map fun _ => roster.add router.nextMember) hroster

theorem roster?_leave_of_member {id : MemberId} {member : Member}
    (hmember : router.member? id = some member) :
    (router.leave id).2.roster? cluster = (router.unregister member).roster? cluster := by
  rw [leave_of_member hmember]
  exact roster?_congr (sameRegistry_reportLost _ _).rosters cluster

include h

/-- An operation that lets nobody join a cluster or leave it passes the turn on if it is a request
to the cluster, and does nothing else to its list. -/
theorem roster?_perform (hkeeps : step.changes router cluster = false) :
    (router.perform step).roster? cluster =
      if step.asks cluster then (router.roster? cluster).map Roster.advance
      else router.roster? cluster := by
  cases step with
  | join named capacity =>
      exact roster?_join_ne (by simpa [Step.changes] using hkeeps) capacity
  | leave id =>
      show (router.leave id).2.roster? cluster = router.roster? cluster
      cases hmember : router.member? id with
      | none => rw [leave_of_not_member hmember]
      | some member =>
          have hother : cluster ≠ member.cluster := by
            rintro rfl
            simp [Step.changes, hmember] at hkeeps
          rw [roster?_leave_of_member hmember]
          exact roster?_unregister_ne h.clusters member hother
  | request origin id named timeout payload now =>
      have hrosters := (router.registry_routeRequest origin id named timeout payload now).2.1
      refine (roster?_congr hrosters cluster).trans ?_
      simp [roster?_pick, Step.asks]
  | reply sender message =>
      exact roster?_congr (router.registry_routeReply sender message).2.1 cluster
  | sweep now => rfl
  | hangUp id => exact roster?_congr (sameRegistry_hangUp router id).rosters cluster
  | drain id limit => exact roster?_congr (sameRegistry_drain router id limit).rosters cluster
  | reorder order => exact apply_reorder (roster? · cluster) (fun _ _ => rfl) router order

/-- Where somebody joins a cluster or leaves it, the count of picks stays, and begins with zero in a
new list. -/
theorem picks_perform (hchanges : step.changes router cluster = true) {roster : Roster}
    (hroster : (router.perform step).roster? cluster = some roster) :
    roster.picks = ((router.roster? cluster).map Roster.picks).getD 0 := by
  cases step with
  | join named capacity =>
      obtain rfl : named = cluster := by simpa [Step.changes] using hchanges
      have hafter : (router.join named capacity).2.roster? named = some roster := hroster
      rw [roster?_join_self] at hafter
      cases hbefore : router.roster? named with
      | none =>
          rw [hbefore] at hafter
          cases hafter
          rfl
      | some old =>
          rw [hbefore] at hafter
          cases hafter
          rfl
  | leave id =>
      have hafter : (router.leave id).2.roster? cluster = some roster := hroster
      cases hmember : router.member? id with
      | none => simp [Step.changes, hmember] at hchanges
      | some member =>
          obtain rfl : member.cluster = cluster := by simpa [Step.changes, hmember] using hchanges
          rw [roster?_leave_of_member hmember] at hafter
          have hclusters := nodup_clusters_unregister h.clusters member
          obtain ⟨hmem, hown⟩ := (roster?_eq_some_iff hclusters).1 hafter
          rcases mem_rosters_unregister.1 hmem with ⟨-, hother⟩ | ⟨old, hold, hcluster, rfl, -⟩
          · exact absurd hown hother
          · rw [(roster?_eq_some_iff h.clusters).2 ⟨hold, hcluster⟩]
            rfl
  | request _ _ _ _ _ _ => cases hchanges
  | reply _ _ => cases hchanges
  | sweep _ => cases hchanges
  | hangUp _ => cases hchanges
  | drain _ _ => cases hchanges
  | reorder _ => cases hchanges

end Perform

/-! ## The life of a cluster -/

/-- How many picks there have been in the life of a cluster behind an operation, if there had been
`picked` before it. The life ends when the last member leaves. -/
def picksBehind (router : Router) (cluster : String) (picked : Nat) (step : Step) : Nat :=
  if ((router.perform step).roster? cluster).isNone then 0
  else picked + if step.asks cluster then 1 else 0

/-- A router that can be reached while `joined` members come, with `picked` picks in the life of a
cluster. -/
inductive Rotation (cluster : String) : Nat → Nat → Router → Prop where
  | new : Rotation cluster 0 0 .new
  | step {joined picked : Nat} {router : Router} (h : Rotation cluster joined picked router)
      (step : Step) :
      Rotation cluster (joined + if step.isJoin then 1 else 0)
        (router.picksBehind cluster picked step) (router.perform step)

section Life

variable {cluster : String} {joined picked : Nat} {router : Router}

/-- Every router that can be reached stands somewhere in the life of a cluster. -/
theorem Reached.exists_rotation {drawn : List RequestId} (h : Reached joined drawn router)
    (cluster : String) : ∃ picked, Rotation cluster joined picked router := by
  induction h with
  | new => exact ⟨0, .new⟩
  | step _ step ih =>
      obtain ⟨picked, hrotation⟩ := ih
      exact ⟨_, hrotation.step step⟩

theorem Rotation.exists_reached (h : Rotation cluster joined picked router) :
    ∃ drawn, Reached joined drawn router := by
  induction h with
  | new => exact ⟨[], .new⟩
  | step _ step ih =>
      obtain ⟨drawn, hreached⟩ := ih
      exact ⟨_, hreached.step step⟩

theorem Rotation.housed (h : Rotation cluster joined picked router) : router.Housed := by
  obtain ⟨drawn, hreached⟩ := h.exists_reached
  exact hreached.housed

/-- How many picks there have been in the life of a cluster behind a run. -/
def picksAfter (router : Router) (cluster : String) (picked : Nat) : List Step → Nat
  | [] => picked
  | step :: steps =>
      (router.perform step).picksAfter cluster (router.picksBehind cluster picked step) steps

theorem Rotation.foldl (h : Rotation cluster joined picked router) (steps : List Step) :
    Rotation cluster (joined + steps.countP Step.isJoin) (router.picksAfter cluster picked steps)
      (steps.foldl perform router) := by
  induction steps generalizing joined picked router with
  | nil => simpa [picksAfter] using h
  | cons step steps ih =>
      have hsteps := ih (h.step step)
      rw [Nat.add_assoc, Nat.add_comm (if step.isJoin then 1 else 0)] at hsteps
      rw [List.countP_cons]
      exact hsteps

/-- The counter of a cluster tells how many picks there have been in its life. -/
structure Counted (cluster : String) (picked : Nat) (router : Router) : Prop where
  counter : ∀ roster, router.roster? cluster = some roster → roster.picks = UInt64.ofNat picked
  unborn : router.roster? cluster = none → picked = 0

theorem Counted.perform (h : Counted cluster picked router) (hhoused : router.Housed)
    (step : Step) :
    Counted cluster (router.picksBehind cluster picked step) (router.perform step) := by
  have hbefore : ((router.roster? cluster).map Roster.picks).getD 0 = UInt64.ofNat picked := by
    cases hroster : router.roster? cluster with
    | none =>
        rw [h.unborn hroster]
        rfl
    | some roster => exact h.counter roster hroster
  constructor
  · intro roster hroster
    rw [picksBehind, hroster, if_neg (by simp)]
    cases hchanges : step.changes router cluster with
    | true =>
        have hasks : step.asks cluster = false := by cases step <;> first | rfl | cases hchanges
        rw [picks_perform hhoused hchanges hroster, hbefore, hasks]
        rfl
    | false =>
        rw [roster?_perform hhoused hchanges] at hroster
        cases hasks : step.asks cluster with
        | false =>
            rw [hasks] at hroster
            exact h.counter roster hroster
        | true =>
            rw [hasks] at hroster
            obtain ⟨old, hold, rfl⟩ := Option.map_eq_some_iff.1 hroster
            have hcounter := h.counter old hold
            show old.picks + 1 = UInt64.ofNat (picked + 1)
            rw [hcounter, UInt64.ofNat_add]
            rfl
  · intro hroster
    rw [picksBehind, hroster]
    rfl

theorem Rotation.counted (h : Rotation cluster joined picked router) :
    Counted cluster picked router := by
  induction h with
  | new => exact ⟨fun _ hroster => (nomatch hroster), fun _ => rfl⟩
  | step hrotation step ih => exact ih.perform hrotation.housed step

end Life

/-! ## Whom a request goes to -/

/-- A request has been passed on to `target`: the member takes a message, and finds the request at
the end of its outbox, under the number of a route that leads from it back to the origin. -/
structure Reaches (before : Router) (origin : MemberId) (id : RequestId) (cluster : String)
    (payload : ByteArray) (target : MemberId) (after : Router) : Prop where
  received : ∃ outbox millis, before.Accepts target outbox ∧
    after.outbox? target = some { outbox with
      queued := outbox.queued ++ [.request ⟨before.nextRoute⟩ cluster millis payload] }
  others : ∀ other, other ≠ target → after.outbox? other = before.outbox? other
  route : ∃ route ∈ after.routes, route.id = ⟨before.nextRoute⟩ ∧ route.target = target ∧
    route.origin = origin ∧ route.originId = id
  stats : after.stats = { before.stats with requestsRouted := before.stats.requestsRouted + 1 }

/-- A request has been refused on account of `target`: the member takes no message, no route is
left, and the error names the member if the origin hears of it. -/
structure Bounces (before : Router) (origin : MemberId) (id : RequestId) (target : MemberId)
    (after : Router) : Prop where
  refuses : ∀ outbox, ¬ before.Accepts target outbox
  unrouted : ∀ route ∈ after.routes, route.id ≠ ⟨before.nextRoute⟩
  others : ∀ other, other ≠ origin → after.outbox? other = before.outbox? other
  heard : ∀ outbox, before.Accepts origin outbox →
    ∃ fault : Undelivered, (fault = .gone target ∨ fault = .full target) ∧
      after.outbox? origin = some { outbox with
        queued := outbox.queued ++ [.errorReply id .internalError fault.text] }
  books : SameBooks before.countRejected after

/-- A step is a request that goes to `target`. -/
inductive Directed (router : Router) : Step → MemberId → Prop where
  | reached {origin : MemberId} {id : RequestId} {cluster : String} {timeout : Duration}
      {payload : ByteArray} {now : Instant} {target : MemberId}
      (h : Reaches router origin id cluster payload target
        (router.perform (.request origin id cluster timeout payload now))) :
      Directed router (.request origin id cluster timeout payload now) target
  | bounced {origin : MemberId} {id : RequestId} {cluster : String} {timeout : Duration}
      {payload : ByteArray} {now : Instant} {target : MemberId}
      (h : Bounces router origin id target
        (router.perform (.request origin id cluster timeout payload now))) :
      Directed router (.request origin id cluster timeout payload now) target

section Direct

variable {router : Router} {cluster : String} {target : MemberId}

/-- A request is refused by a router that has opened a route, and gives it up again. -/
theorem bounces_of_push (origin : MemberId) (id : RequestId) {rosters : List Roster} {route : Route}
    {message : Message} {fault : Undelivered} (hrefuses : ∀ outbox, ¬ router.Accepts target outbox)
    (hpush : (router.opened rosters route).push target message = .error fault) :
    Bounces router origin id target (((router.opened rosters route).eraseRoute
      ⟨router.nextRoute⟩).reject origin id .internalError fault.text) := by
  generalize hgiven : (router.opened rosters route).eraseRoute ⟨router.nextRoute⟩ = given
  have hmembers : given.members = router.members := by
    rw [← hgiven]
    rfl
  have houtboxes : given.outboxes = router.outboxes := by
    rw [← hgiven]
    rfl
  have hstats : given.stats = router.stats := by
    rw [← hgiven]
    rfl
  constructor
  case refuses => exact hrefuses
  case unrouted =>
    intro other hother
    rw [routes_reject, ← hgiven] at hother
    simpa using List.of_mem_filter hother
  case others =>
    intro other hother
    rw [outbox?_reject_ne hother, outbox?, houtboxes, outbox?]
  case heard =>
    intro outbox haccepts
    have hgives : given.Accepts origin outbox := haccepts.congr hmembers houtboxes
    exact ⟨fault, fault_eq_of_push hpush, hgives.outbox?_reject id _ _⟩
  case books =>
    have hcounted : SameBooks router.countRejected given.countRejected := by
      apply SameBooks.of_stats
      rw [countRejected, count, hstats]
      rfl
    exact hcounted.trans (sameBooks_deliver given.countRejected origin _)

/-- A request goes to the member whose turn it is. -/
theorem directed_of_turn? {step : Step} (hasks : step.asks cluster = true)
    (hturn : router.turn? cluster = some target) : router.Directed step target := by
  cases step with
  | request origin id named timeout payload now =>
      obtain rfl : cluster = named := by simpa [Step.asks] using hasks
      obtain ⟨rosters, -, hrequest⟩ :=
        router.routeRequest_eq origin id cluster timeout payload now
      rw [hturn] at hrequest
      by_cases haccepts : ∃ outbox, router.Accepts target outbox
      · obtain ⟨outbox, haccepts⟩ := haccepts
        have hopened : (router.opened rosters
            (router.routeFor origin id target timeout now)).Accepts target outbox :=
          haccepts.congr rfl rfl
        simp only [hopened.push_eq] at hrequest
        apply Directed.reached
        rw [perform, hrequest]
        constructor
        case received => exact ⟨outbox, timeout.wireMillis, haccepts, haccepts.outbox?_passed _ _ _⟩
        case others => exact fun other hother => haccepts.outbox?_passed_ne _ _ _ hother
        case route =>
          refine ⟨router.routeFor origin id target timeout now, ?_, rfl, rfl, rfl, rfl⟩
          exact List.mem_append_right _ List.mem_cons_self
        case stats => rfl
      · have hrefuses := not_exists.1 haccepts
        have hopened : ∀ outbox, ¬ (router.opened rosters
            (router.routeFor origin id target timeout now)).Accepts target outbox :=
          fun outbox hopened => hrefuses outbox (hopened.congr rfl rfl)
        obtain ⟨fault, hpush⟩ := push_eq_error_of_room
          (.request ⟨router.nextRoute⟩ cluster timeout.wireMillis payload)
            (room_eq_zero_iff.2 hopened)
        simp only [hpush] at hrequest
        apply Directed.bounced
        rw [perform, hrequest]
        exact bounces_of_push origin id hrefuses hpush
  | _ => cases hasks

end Direct

/-! ## Continuations -/

/-- Whether nobody joins a cluster or leaves it in a run. -/
def keeps (router : Router) (cluster : String) : List Step → Bool
  | [] => true
  | step :: steps => !step.changes router cluster && (router.perform step).keeps cluster steps

/-- The requests to a cluster in a run, each with the router that it comes to. -/
def asksIn (router : Router) (cluster : String) : List Step → List (Router × Step)
  | [] => []
  | step :: steps =>
      (if step.asks cluster then [(router, step)] else []) ++
        (router.perform step).asksIn cluster steps

/-- Whose turn it is at the requests to a cluster in a run. -/
def turnsIn (router : Router) (cluster : String) (steps : List Step) : List (Option MemberId) :=
  (router.asksIn cluster steps).map fun asking => asking.1.turn? cluster

theorem turnsIn_cons (router : Router) (cluster : String) (step : Step) (steps : List Step) :
    router.turnsIn cluster (step :: steps) =
      (if step.asks cluster then [router.turn? cluster] else []) ++
        (router.perform step).turnsIn cluster steps := by
  unfold turnsIn
  rw [asksIn, List.map_append]
  split <;> rfl

theorem length_turnsIn (router : Router) (cluster : String) (steps : List Step) :
    (router.turnsIn cluster steps).length = steps.countP (Step.asks cluster) := by
  induction steps generalizing router with
  | nil => rfl
  | cons step steps ih =>
      rw [turnsIn_cons, List.length_append, ih, List.countP_cons, Nat.add_comm]
      split <;> rfl

theorem asks_of_mem_asksIn {router : Router} {cluster : String} {steps : List Step}
    {asking : Router × Step} (h : asking ∈ router.asksIn cluster steps) :
    asking.2.asks cluster = true := by
  induction steps generalizing router with
  | nil => cases h
  | cons step steps ih =>
      rcases List.mem_append.1 h with hhere | hlater
      · split at hhere
        · rename_i hasks
          rwa [List.mem_singleton.1 hhere]
        · cases hhere
      · exact ih hlater

/-- Where it is the turn of some member at each request, the requests go to these members. -/
theorem forall₂_directed {cluster : String} {askings : List (Router × Step)}
    {targets : List MemberId}
    (hasks : ∀ asking ∈ askings, asking.2.asks cluster = true)
    (hturns : askings.map (fun asking => asking.1.turn? cluster) = targets.map some) :
    List.Forall₂ (fun asking target => asking.1.Directed asking.2 target) askings targets := by
  induction askings generalizing targets with
  | nil =>
      cases targets with
      | nil => exact .nil
      | cons target targets => cases hturns
  | cons asking askings ih =>
      cases targets with
      | nil => cases hturns
      | cons target targets =>
          obtain ⟨hturn, hrest⟩ := List.cons.inj hturns
          exact .cons (directed_of_turn? (hasks asking List.mem_cons_self) hturn)
            (ih (fun other hother => hasks other (List.mem_cons_of_mem _ hother)) hrest)

/-- What a continuation comes to in a cluster with the list `roster`: the counter has gone on by one
for each turn, and each turn is that of the member that the counter pointed at. -/
structure Turning (cluster : String) (roster : Roster) (turns : List (Option MemberId))
    (after : Router) : Prop where
  housed : after.Housed
  stands : after.roster? cluster =
    some { roster with picks := roster.picks + UInt64.ofNat turns.length }
  members : turns = (List.range turns.length).map fun j =>
    roster.ids[(roster.picks + UInt64.ofNat j).toNat % roster.ids.length]?

section Turning

variable {cluster : String} {roster : Roster} {turns : List (Option MemberId)} {next : Router}

theorem Turning.perform (h : Turning cluster roster turns next) {step : Step}
    (hkeeps : step.changes next cluster = false) :
    Turning cluster roster (turns ++ if step.asks cluster then [next.turn? cluster] else [])
      (next.perform step) := by
  have hroster := roster?_perform h.housed hkeeps
  rw [h.stands] at hroster
  cases hasks : step.asks cluster with
  | false =>
      rw [hasks] at hroster
      simp only [Bool.false_eq_true, if_false, List.append_nil] at hroster ⊢
      exact ⟨h.housed.perform step, hroster, h.members⟩
  | true =>
      rw [hasks] at hroster
      have hturn : next.turn? cluster =
          roster.ids[(roster.picks + UInt64.ofNat turns.length).toNat % roster.ids.length]? := by
        rw [turn?, h.stands]
        rfl
      refine ⟨h.housed.perform step, ?_, ?_⟩
      · rw [hroster]
        simp [Roster.advance, UInt64.ofNat_add, UInt64.add_assoc]
      · rw [if_pos rfl, List.length_append, List.length_singleton, List.range_succ, List.map_append,
          ← h.members, hturn]
        rfl

theorem Turning.foldl (h : Turning cluster roster turns next) (steps : List Step)
    (hkeeps : next.keeps cluster steps = true) :
    Turning cluster roster (turns ++ next.turnsIn cluster steps)
      (steps.foldl Router.perform next) := by
  induction steps generalizing turns next with
  | nil => simpa [turnsIn, asksIn] using h
  | cons step steps ih =>
      simp only [keeps, Bool.and_eq_true, Bool.not_eq_true'] at hkeeps
      have hsteps := ih (h.perform hkeeps.1) hkeeps.2
      rw [List.append_assoc, ← turnsIn_cons] at hsteps
      exact hsteps

/-- From any router the turns go through the list of the cluster, beginning where the counter
stands. -/
theorem turnsIn_eq {router : Router} (hhoused : router.Housed)
    (hroster : router.roster? cluster = some roster) {steps : List Step}
    (hkeeps : router.keeps cluster steps = true) :
    router.turnsIn cluster steps = (List.range (steps.countP (Step.asks cluster))).map fun j =>
      roster.ids[(roster.picks + UInt64.ofNat j).toNat % roster.ids.length]? := by
  have hnone : Turning cluster roster [] router := ⟨hhoused, by simpa using hroster, rfl⟩
  have hturning := (hnone.foldl steps hkeeps).members
  rwa [List.nil_append, length_turnsIn] at hturning

end Turning

/-- As long as nobody joins a cluster or leaves it, and the count of picks lasts, each request to
the cluster goes to a member of its list, and the requests are shared out evenly among the places of
the list, wherever the count stood before. The members at these places are different while the
numbers of members last. -/
theorem rotation_fair {cluster : String} {joined picked : Nat} {router : Router} {roster : Roster}
    (h : Rotation cluster joined picked router) (hroster : router.roster? cluster = some roster)
    (hmembers : roster.ids ≠ []) (steps : List Step) (hkeeps : router.keeps cluster steps = true)
    (hpicks : picked + steps.countP (Step.asks cluster) ≤ UInt64.size) :
    ∃ targets : List MemberId,
      List.Forall₂ (fun asking target => asking.1.Directed asking.2 target)
        (router.asksIn cluster steps) targets ∧
      router.turnsIn cluster steps = targets.map some ∧
      (∃ places, targets.map some = places.map (roster.ids[·]?) ∧
        Fair (List.range roster.ids.length) places) ∧
      (joined < UInt64.size → Fair roster.ids targets) := by
  have hlength : 0 < roster.ids.length := List.length_pos_iff.2 hmembers
  -- The counter does not start again, so it tells the picks in the life of the cluster.
  have hcount : ∀ j < steps.countP (Step.asks cluster),
      (roster.picks + UInt64.ofNat j).toNat = picked + j := by
    intro j hj
    rw [h.counted.counter roster hroster, ← UInt64.ofNat_add]
    exact UInt64.toNat_ofNat_of_lt' (by omega)
  have hmod : ∀ j, (picked + j) % roster.ids.length < roster.ids.length :=
    fun j => Nat.mod_lt _ hlength
  have hturns : router.turnsIn cluster steps =
      (List.range (steps.countP (Step.asks cluster))).map fun j =>
        some (roster.ids.get ⟨(picked + j) % roster.ids.length, hmod j⟩) := by
    rw [turnsIn_eq h.housed hroster hkeeps]
    apply List.map_congr_left
    intro j hj
    rw [hcount j (List.mem_range.1 hj)]
    exact List.getElem?_eq_getElem (hmod j)
  refine ⟨(List.range (steps.countP (Step.asks cluster))).map fun j =>
    roster.ids.get ⟨(picked + j) % roster.ids.length, hmod j⟩, ?_, ?_, ?_, ?_⟩
  · apply forall₂_directed fun asking hasking => asks_of_mem_asksIn hasking
    rw [List.map_map]
    exact hturns
  · rw [List.map_map]
    exact hturns
  · refine ⟨(List.range (steps.countP (Step.asks cluster))).map fun j =>
      (picked + j) % roster.ids.length, ?_, ?_⟩
    · rw [List.map_map, List.map_map]
      apply List.map_congr_left
      intro j _
      exact (List.getElem?_eq_getElem (hmod j)).symm
    · have hrange : List.range roster.ids.length ≠ [] := by
        simpa using hmembers
      apply fair_of_turns hrange List.nodup_range picked
      intro j hj
      rw [List.length_map, List.length_range] at hj
      simp [hj, hmod]
  · intro hjoined
    obtain ⟨drawn, hreached⟩ := h.exists_reached
    have hnodup := (hreached.consistent hjoined).1.once roster (List.mem_of_find?_eq_some hroster)
    apply fair_of_turns hmembers hnodup picked
    intro j hj
    rw [List.length_map, List.length_range] at hj
    simp [hj, hmod]

/-- A cluster whose first member, which took no message, has left after two picks, and which another
has joined. -/
def worn : List Step :=
  [.join "clients" 8, .join "svc" 0, .join "svc" 1, .join "svc" 1,
    .request 1 ⟨1⟩ "svc" (.ofMillis 5) ⟨#[]⟩ 0, .request 1 ⟨2⟩ "svc" (.ofMillis 5) ⟨#[]⟩ 0,
    .leave 2, .join "svc" 1]

/-- Four requests to the cluster. One outbox is full by then, nobody reads another, and a third
takes one request. -/
def wear : List Step :=
  [.request 1 ⟨3⟩ "svc" (.ofMillis 5) ⟨#[]⟩ 0, .hangUp 4,
    .request 1 ⟨4⟩ "svc" (.ofMillis 5) ⟨#[]⟩ 0,
    .join "web" 1, .request 1 ⟨5⟩ "svc" (.ofMillis 5) ⟨#[]⟩ 0, .sweep 0,
    .request 1 ⟨6⟩ "svc" (.ofMillis 5) ⟨#[]⟩ 0]

/-- The count stands at two when three members are left. Of the four requests one is passed on, and
the errors of the others name the members whose turn it was. -/
theorem rotation_fair_worn :
    Rotation "svc" 5 2 (run worn) ∧ (run worn).roster? "svc" = some ⟨"svc", [3, 4, 5], 2⟩ ∧
      (run worn).keeps "svc" wear = true ∧
      (run worn).turnsIn "svc" wear = [some 5, some 3, some 4, some 5] ∧
      ((wear.foldl perform (run worn)).queued 1).drop 1 =
        [.errorReply ⟨4⟩ .internalError "member 3 outbound queue full",
          .errorReply ⟨5⟩ .internalError "member 4 is gone",
          .errorReply ⟨6⟩ .internalError "member 5 outbound queue full"] ∧
      ∃ targets : List MemberId,
        List.Forall₂ (fun asking target => asking.1.Directed asking.2 target)
          ((run worn).asksIn "svc" wear) targets ∧
        (run worn).turnsIn "svc" wear = targets.map some ∧
        (∃ places, targets.map some = places.map (fun i => ([3, 4, 5] : List MemberId)[i]?) ∧
          Fair (List.range 3) places) ∧
        Fair [3, 4, 5] targets := by
  have hrotation : Rotation "svc" 5 2 (run worn) := by
    have hpicks : Router.new.picksAfter "svc" 0 worn = 2 := by decide +kernel
    have hnew : Rotation "svc" 0 0 .new := .new
    have hrun := hnew.foldl worn
    rw [hpicks] at hrun
    exact hrun
  have hroster : (run worn).roster? "svc" = some ⟨"svc", [3, 4, 5], 2⟩ := by decide +kernel
  have hkeeps : (run worn).keeps "svc" wear = true := by decide +kernel
  obtain ⟨targets, hdirected, hturns, hplaces, hfair⟩ :=
    rotation_fair hrotation hroster (by decide) wear hkeeps (by decide)
  exact ⟨hrotation, hroster, hkeeps, by decide +kernel, by decide +kernel, targets, hdirected,
    hturns, hplaces, hfair (by decide)⟩

end Router

end Switchboard
