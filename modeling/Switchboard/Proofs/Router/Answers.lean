import Switchboard.Proofs.Router.Run

/-!
# Every answer belongs to one request

In a run of a router, each reply and each error reply that is put into an outbox answers one request
of the run (`answers_authentic`): no request is answered twice, the answer waits for the member that
asked and carries its number, and what it says comes either from the router itself or from the
member that the request was passed to. Nothing is assumed about the operations: requests may repeat
numbers, members may quote any number, and any message may be passed off as a reply.
-/

namespace Switchboard

namespace Router

/-- The messages that a step has put into the outbox of a member. They stand behind those that were
there before. -/
def added (before after : Router) (id : MemberId) : List Message :=
  (after.queued id).drop (before.queued id).length

theorem added_of_append {before after : Router} {id : MemberId} {messages : List Message}
    (h : after.queued id = before.queued id ++ messages) : added before after id = messages := by
  unfold added
  rw [h, List.drop_left]

theorem added_of_eq {before after : Router} {id : MemberId}
    (h : after.queued id = before.queued id) : added before after id = [] :=
  added_of_append (by rw [h, List.append_nil])

theorem added_of_drop {before after : Router} {id : MemberId} {count : Nat}
    (h : after.queued id = (before.queued id).drop count) : added before after id = [] := by
  unfold added
  rw [h, List.drop_drop, List.drop_eq_nil_of_le]
  exact Nat.le_add_left _ _

/-- Something that a run has put into an outbox: by which step, for which member, and at which place
among all that the step has put there. -/
structure Put where
  step : Nat
  member : MemberId
  place : Nat

namespace Put

/-- The message that was put, if there was one. -/
def message? (steps : List Step) (p : Put) : Option Message :=
  (added (stateAt steps p.step) (stateAt steps (p.step + 1)) p.member)[p.place]?

/-- Whether what was put is an answer. -/
def IsAnswer (steps : List Step) (p : Put) : Prop :=
  ∃ message, p.message? steps = some message ∧ message.isAnswer = true

end Put

/-- Why a message was put where it was, in answer to the request made by the step `k`. -/
inductive Authentic (steps : List Step) (p : Put) (message : Message) (k : Nat) : Prop where
  /-- The router found no members. -/
  | noMembers (origin : MemberId) (id : RequestId) (cluster : String) (timeout : Duration)
      (payload : ByteArray) (now : Instant)
      (hcall : steps[k]? = some (.request origin id cluster timeout payload now))
      (hput : p = ⟨k, origin, 0⟩) (hcount : (stateAt steps k).memberCount cluster = 0)
      (hmessage : message = .errorReply id .noMembers s!"no members in cluster {cluster}")
  /-- The router found no room for the request. -/
  | undelivered (origin : MemberId) (id : RequestId) (cluster : String) (timeout : Duration)
      (payload : ByteArray) (now : Instant) (target : MemberId) (fault : Undelivered)
      (hcall : steps[k]? = some (.request origin id cluster timeout payload now))
      (hput : p = ⟨k, origin, 0⟩) (hturn : (stateAt steps k).turn? cluster = some target)
      (hroom : (stateAt steps k).room target = 0)
      (hmessage : message = .errorReply id .internalError fault.text)
  /-- The member that the request was passed to has left. -/
  | lost (route : Route) (cluster : String) (timeout : Duration) (payload : ByteArray)
      (now : Instant) (hforwarded : Forwarded steps k route cluster timeout payload now)
      (hlater : k < p.step) (hmember : p.member = route.origin)
      (hstep : steps[p.step]? = some (.leave route.target))
      (hregistered : ((stateAt steps p.step).member? route.target).isSome)
      (hplace : (((stateAt steps p.step).lostWith route.target).filter
        fun other => other.origin = p.member)[p.place]? = some route)
      (hknown : ∀ i, k < i → i ≤ p.step → route ∈ (stateAt steps i).routes)
      (hmessage : message = memberLost route)
  /-- The member that the request was passed to has replied. -/
  | replied (route : Route) (cluster : String) (timeout : Duration) (payload : ByteArray)
      (now : Instant) (hforwarded : Forwarded steps k route cluster timeout payload now)
      (hlater : k < p.step) (hput : p.member = route.origin ∧ p.place = 0) (answer : ByteArray)
      (hstep : steps[p.step]? = some (.reply route.target (.reply route.id answer)))
      (hknown : ∀ i, k < i → i ≤ p.step → route ∈ (stateAt steps i).routes)
      (hmessage : message = .reply route.originId answer)
  /-- The member that the request was passed to has reported an error. -/
  | failed (route : Route) (cluster : String) (timeout : Duration) (payload : ByteArray)
      (now : Instant) (hforwarded : Forwarded steps k route cluster timeout payload now)
      (hlater : k < p.step) (hput : p.member = route.origin ∧ p.place = 0) (error : ReplyError)
      (body : ByteArray)
      (hstep : steps[p.step]? = some (.reply route.target ⟨.errorReply route.id error, body⟩))
      (hknown : ∀ i, k < i → i ≤ p.step → route ∈ (stateAt steps i).routes)
      (hmessage : message = .errorReply route.originId error.code error.message)

/-! ## What a step adds -/

/-- A cluster in which it is nobody's turn has no members. -/
theorem memberCount_of_turn?_eq_none {router : Router} {cluster : String}
    (h : router.turn? cluster = none) : router.memberCount cluster = 0 := by
  unfold turn? at h
  unfold memberCount
  cases hroster : router.roster? cluster with
  | none => rfl
  | some roster =>
      rw [hroster, Option.bind_some] at h
      unfold Roster.current? at h
      rw [List.getElem?_eq_none_iff] at h
      rw [Option.map_some, Option.getD_some]
      by_contra hlength
      have := Nat.mod_lt roster.picks.toNat (Nat.pos_of_ne_zero hlength)
      omega

theorem eq_of_getElem?_take_ite {α : Type} {c : Prop} [Decidable c] {xs : List α} {n i : Nat}
    {y : α} (h : ((if c then xs else []).take n)[i]? = some y) : c ∧ xs[i]? = some y := by
  by_cases hc : c
  · rw [if_pos hc] at h
    rw [List.getElem?_take] at h
    split at h
    · exact ⟨hc, h⟩
    · cases h
  · rw [if_neg hc] at h
    simp at h

theorem eq_of_getElem?_singleton {α : Type} {x y : α} {i : Nat} (h : [x][i]? = some y) :
    i = 0 ∧ y = x := by
  cases i with
  | zero => exact ⟨rfl, (Option.some.inj h).symm⟩
  | succ i => cases h

/-- A message that answers a request of the given number brings an answer. -/
theorem answerTo_eq_some {id : RequestId} {message reply : Message}
    (h : answerTo id message = some reply) :
    (∃ quoted answer, message = .reply quoted answer ∧ reply = .reply id answer) ∨
      ∃ quoted error body, message = ⟨.errorReply quoted error, body⟩ ∧
        reply = .errorReply id error.code error.message := by
  obtain ⟨envelope, payload⟩ := message
  cases envelope with
  | reply quoted => exact Or.inl ⟨quoted, payload, rfl, (Option.some.inj h).symm⟩
  | errorReply quoted error =>
      exact Or.inr ⟨quoted, error, payload, rfl, (Option.some.inj h).symm⟩
  | hello version cluster name => cases h
  | welcome name => cases h
  | request quoted cluster timeoutMs => cases h
  | close reason => cases h

section Run

variable {steps : List Step} (hsteps : steps.countP Step.isRequest < UInt64.size)

include hsteps

omit hsteps in
/-- What a request adds: an error of the router's own, or the request itself. -/
theorem authentic_of_request {p : Put} {message : Message} {origin : MemberId} {id : RequestId}
    {cluster : String} {timeout : Duration} {payload : ByteArray} {now : Instant}
    (hcall : steps[p.step]? = some (.request origin id cluster timeout payload now))
    (hmessage : p.message? steps = some message) (hanswer : message.isAnswer = true) :
    Authentic steps p message p.step := by
  have heffect := routeRequest_effect (stateAt steps p.step) origin id cluster timeout payload now
  have hafter : stateAt steps (p.step + 1) =
      (stateAt steps p.step).routeRequest origin id cluster timeout payload now :=
    stateAt_succ hcall
  rw [← hafter] at heffect
  unfold Put.message? at hmessage
  cases heffect with
  | noMembers hturn hrefusal hroutes hnext =>
      rw [added_of_append (hrefusal p.member)] at hmessage
      obtain ⟨hmember, hmessage⟩ := eq_of_getElem?_take_ite hmessage
      obtain ⟨hplace, hmessage⟩ := eq_of_getElem?_singleton hmessage
      refine .noMembers origin id cluster timeout payload now hcall ?_
        (memberCount_of_turn?_eq_none hturn) hmessage
      rw [← hmember, ← hplace]
  | undelivered target fault hturn hroom hrefusal hroutes hnext =>
      rw [added_of_append (hrefusal p.member)] at hmessage
      obtain ⟨hmember, hmessage⟩ := eq_of_getElem?_take_ite hmessage
      obtain ⟨hplace, hmessage⟩ := eq_of_getElem?_singleton hmessage
      refine .undelivered origin id cluster timeout payload now target fault hcall ?_ hturn hroom
        hmessage
      rw [← hmember, ← hplace]
  | forwarded target hturn hroom hroutes hqueued hnext =>
      rw [added_of_append (hqueued p.member)] at hmessage
      -- The request itself is added to one outbox, and is no answer.
      by_cases htarget : p.member = target
      · rw [if_pos htarget] at hmessage
        rw [(eq_of_getElem?_singleton hmessage).2] at hanswer
        cases hanswer
      · rw [if_neg htarget] at hmessage
        cases hmessage

/-- What a departure adds: reports to the origins of routes. -/
theorem authentic_of_leave {p : Put} {message : Message} {id : MemberId}
    (hstep : steps[p.step]? = some (.leave id)) (hmessage : p.message? steps = some message) :
    ∃ k, Authentic steps p message k := by
  have hafter : stateAt steps (p.step + 1) = ((stateAt steps p.step).leave id).2 :=
    stateAt_succ hstep
  unfold Put.message? at hmessage
  cases hmember : (stateAt steps p.step).member? id with
  | none =>
      rw [leave_of_not_member hmember] at hafter
      rw [added_of_eq (by rw [hafter])] at hmessage
      cases hmessage
  | some member =>
      rw [added_of_append (by rw [hafter, queued_leave hmember]), List.getElem?_take] at hmessage
      split at hmessage
      · rw [List.getElem?_map, Option.map_eq_some_iff] at hmessage
        obtain ⟨route, hplace, hreport⟩ := hmessage
        -- The report is of a route that went to the member that has left.
        obtain ⟨hlost, horigin⟩ := List.mem_filter.1 (List.mem_of_getElem? hplace)
        obtain ⟨hroute, htarget⟩ := List.mem_filter.1 hlost
        simp only [ne_eq, Bool.decide_and, Bool.and_eq_true, decide_eq_true_eq] at htarget horigin
        obtain ⟨rfl, -⟩ := htarget
        obtain ⟨k, hk, cluster, timeout, payload, now, hforwarded⟩ :=
          exists_forwarded_of_mem hsteps hroute
        refine ⟨k, .lost route cluster timeout payload now hforwarded hk horigin.symm hstep ?_
          hplace ?_ hreport.symm⟩
        · rw [hmember]
          rfl
        · intro i hki hi
          exact mem_routes_of_le hsteps hforwarded hroute hki hi
      · cases hmessage

/-- What a message in reply adds: the answer that it brings. -/
theorem authentic_of_reply {p : Put} {message answer : Message} {sender : MemberId}
    (hstep : steps[p.step]? = some (.reply sender answer))
    (hmessage : p.message? steps = some message) : ∃ k, Authentic steps p message k := by
  have heffect := routeReply_effect (stateAt steps p.step) sender answer
  have hafter : stateAt steps (p.step + 1) = (stateAt steps p.step).routeReply sender answer :=
    stateAt_succ hstep
  rw [← hafter] at heffect
  unfold Put.message? at hmessage
  cases heffect with
  | ignored hroutes hqueued =>
      rw [added_of_eq (hqueued p.member)] at hmessage
      cases hmessage
  | closed route hquoted hroute htarget hroutes hqueued =>
      subst htarget
      rw [added_of_append (hqueued p.member)] at hmessage
      obtain ⟨hmember, hmessage⟩ := eq_of_getElem?_take_ite hmessage
      have hknown : route ∈ (stateAt steps p.step).routes := List.mem_of_find?_eq_some hroute
      obtain ⟨k, hk, cluster, timeout, payload, now, hforwarded⟩ :=
        exists_forwarded_of_mem hsteps hknown
      -- The route has been known from the step that opened it on.
      have hsince : ∀ i, k < i → i ≤ p.step → route ∈ (stateAt steps i).routes := fun i hki hi =>
        mem_routes_of_le hsteps hforwarded hknown hki hi
      cases hanswer : answerTo route.originId answer with
      | none =>
          rw [hanswer] at hmessage
          cases hmessage
      | some reply =>
          rw [hanswer, Option.toList_some] at hmessage
          obtain ⟨hplace, rfl⟩ := eq_of_getElem?_singleton hmessage
          rcases answerTo_eq_some hanswer with
            ⟨quoted, body, rfl, rfl⟩ | ⟨quoted, error, body, rfl, rfl⟩
          · have hid : quoted = route.id := Option.some.inj hquoted
            subst hid
            exact ⟨k, .replied route cluster timeout payload now hforwarded hk ⟨hmember,
              hplace⟩ body hstep hsince rfl⟩
          · have hid : quoted = route.id := Option.some.inj hquoted
            subst hid
            exact ⟨k, .failed route cluster timeout payload now hforwarded hk ⟨hmember,
              hplace⟩ error body hstep hsince rfl⟩

/-- Every answer that is put into an outbox answers a request of the run. -/
theorem exists_authentic {p : Put} {message : Message} (hmessage : p.message? steps = some message)
    (hanswer : message.isAnswer = true) : ∃ k, Authentic steps p message k := by
  have hnothing : added (stateAt steps p.step) (stateAt steps (p.step + 1)) p.member = [] →
      ∃ k, Authentic steps p message k := by
    intro hadded
    unfold Put.message? at hmessage
    rw [hadded] at hmessage
    cases hmessage
  cases hstep : steps[p.step]? with
  | none =>
      refine hnothing (added_of_eq ?_)
      rw [stateAt_succ_of_none hstep]
  | some step =>
      have hafter := stateAt_succ hstep
      cases step with
      | request origin id cluster timeout payload now =>
          exact ⟨p.step, authentic_of_request hstep hmessage hanswer⟩
      | leave id => exact authentic_of_leave hsteps hstep hmessage
      | reply sender message => exact authentic_of_reply hsteps hstep hmessage
      | join cluster capacity =>
          -- Nothing but requests, departures and replies adds to outboxes.
          refine hnothing (added_of_eq ?_)
          rw [hafter]
          exact queued_join _ cluster capacity _
      | sweep now =>
          refine hnothing (added_of_eq ?_)
          rw [hafter]
          rfl
      | hangUp id =>
          refine hnothing ?_
          unfold added
          rw [hafter]
          show List.drop _ (((stateAt steps p.step).hangUp id).queued p.member) = []
          rw [queued_hangUp]
          by_cases hid : p.member = id
          · rw [if_pos hid, List.drop_nil]
          · rw [if_neg hid, List.drop_length]
      | drain id limit =>
          obtain ⟨count, hcount⟩ := queued_drain (stateAt steps p.step) id limit p.member
          rw [← perform, ← hafter] at hcount
          exact hnothing (added_of_drop hcount)
      | reorder order =>
          refine hnothing (added_of_eq ?_)
          rw [hafter]
          exact apply_reorder (queued · p.member) (fun _ _ => rfl) (stateAt steps p.step) order

/-! ## No request is answered twice -/

omit hsteps in
/-- The routes that a step closes with an answer to a member, in the order of the answers. -/
def answeredBy (router : Router) (id : MemberId) : Step → List Route
  | .leave target => (router.lostWith target).filter fun route => route.origin = id
  | .reply _ message => ((message.envelope.requestId?.bind router.route?).filter
      fun route => route.origin = id).toList
  | _ => []

theorem nodup_answeredBy (i : Nat) (id : MemberId) (step : Step) :
    (answeredBy (stateAt steps i) id step).Nodup := by
  have hroutes : (stateAt steps i).routes.Nodup :=
    List.Nodup.of_map Route.id (orderly_stateAt hsteps i).1.distinct
  cases step with
  | leave target => exact (hroutes.filter _).filter _
  | reply sender message =>
      simp only [answeredBy]
      cases Option.filter _ _ with
      | none => exact List.nodup_nil
      | some route => exact List.nodup_singleton route
  | _ => exact List.nodup_nil

/-- An answer of the router's own: the request was not passed on. -/
def OwnAnswer (steps : List Step) (p : Put) (k : Nat) : Prop :=
  ∃ origin id cluster timeout payload now,
    steps[k]? = some (.request origin id cluster timeout payload now) ∧ p = ⟨k, origin, 0⟩ ∧
      ∀ target, (stateAt steps k).turn? cluster = some target → (stateAt steps k).room target = 0

/-- An answer that closes the route under which the request was passed on. -/
def RoutedAnswer (steps : List Step) (p : Put) (k : Nat) : Prop :=
  ∃ route cluster timeout payload now step,
    Forwarded steps k route cluster timeout payload now ∧ k < p.step ∧
      steps[p.step]? = some step ∧ p.member = route.origin ∧
      (answeredBy (stateAt steps p.step) route.origin step)[p.place]? = some route ∧
      route ∈ (stateAt steps p.step).routes ∧ route ∉ (stateAt steps (p.step + 1)).routes

/-- A reply to a route closes it. -/
theorem routedAnswer_of_reply {p : Put} {k : Nat} {route : Route} {cluster : String}
    {timeout : Duration} {payload : ByteArray} {now : Instant} {message : Message}
    (hforwarded : Forwarded steps k route cluster timeout payload now) (hlater : k < p.step)
    (hput : p.member = route.origin ∧ p.place = 0)
    (hstep : steps[p.step]? = some (.reply route.target message))
    (hid : message.envelope.requestId? = some route.id)
    (hknown : route ∈ (stateAt steps p.step).routes) : RoutedAnswer steps p k := by
  have hroute := (orderly_stateAt hsteps p.step).1.route?_of_mem hknown
  refine ⟨route, cluster, timeout, payload, now, _, hforwarded, hlater, hstep, hput.1, ?_,
    hknown, ?_⟩
  · simp only [answeredBy]
    rw [hid, Option.bind_some, hroute, hput.2, Option.filter_some, if_pos (decide_eq_true rfl)]
    rfl
  · rw [stateAt_succ hstep]
    show route ∉ ((stateAt steps p.step).routeReply route.target message).routes
    rw [routeReply_of_route? hid hroute, if_pos rfl, (sameRegistry_answer _ _ _).routes]
    intro hmem
    simpa using List.of_mem_filter hmem

/-- An answer is the router's own, or it closes a route. -/
theorem Authentic.own_or_routed {p : Put} {message : Message} {k : Nat}
    (h : Authentic steps p message k) : OwnAnswer steps p k ∨ RoutedAnswer steps p k := by
  cases h with
  | noMembers origin id cluster timeout payload now hcall hput hcount hmessage =>
      refine Or.inl ⟨origin, id, cluster, timeout, payload, now, hcall, hput, ?_⟩
      intro target hturn
      -- Where it is somebody's turn there are members.
      unfold turn? at hturn
      unfold memberCount at hcount
      cases hroster : (stateAt steps k).roster? cluster with
      | none =>
          rw [hroster] at hturn
          cases hturn
      | some roster =>
          rw [hroster, Option.bind_some, Roster.current?] at hturn
          rw [hroster, Option.map_some, Option.getD_some] at hcount
          rw [List.eq_nil_of_length_eq_zero hcount] at hturn
          cases hturn
  | undelivered origin id cluster timeout payload now target fault hcall hput hturn hroom
    hmessage =>
      refine Or.inl ⟨origin, id, cluster, timeout, payload, now, hcall, hput, ?_⟩
      intro other hother
      rw [hturn] at hother
      rw [← Option.some.inj hother]
      exact hroom
  | lost route cluster timeout payload now hforwarded hlater hmember hstep hregistered hplace hknown
      hmessage =>
      refine Or.inr ⟨route, cluster, timeout, payload, now, _, hforwarded, hlater, hstep,
        hmember, ?_, hknown p.step hlater (Nat.le_refl _), ?_⟩
      · rw [← hmember]
        exact hplace
      · obtain ⟨member, hmember⟩ := Option.isSome_iff_exists.1 hregistered
        rw [stateAt_succ hstep]
        show route ∉ ((stateAt steps p.step).leave route.target).2.routes
        rw [routes_leave hmember]
        intro hmem
        simpa [Route.touches] using List.of_mem_filter hmem
  | replied route cluster timeout payload now hforwarded hlater hput answer hstep hknown hmessage =>
      exact Or.inr (routedAnswer_of_reply hsteps hforwarded hlater hput hstep rfl
        (hknown p.step hlater (Nat.le_refl _)))
  | failed route cluster timeout payload now hforwarded hlater hput error body hstep hknown
      hmessage =>
      exact Or.inr (routedAnswer_of_reply hsteps hforwarded hlater hput hstep rfl
        (hknown p.step hlater (Nat.le_refl _)))

omit hsteps in
theorem OwnAnswer.not_forwarded {p : Put} {k : Nat} (h : OwnAnswer steps p k) {route : Route}
    {cluster : String} {timeout : Duration} {payload : ByteArray} {now : Instant} :
    ¬ Forwarded steps k route cluster timeout payload now := by
  intro hforwarded
  obtain ⟨origin, id, cluster', timeout', payload', now', hcall, -, hroom⟩ := h
  have hsame := hcall.symm.trans hforwarded.call
  simp only [Option.some.injEq, Step.request.injEq] at hsame
  obtain ⟨-, -, rfl, -, -, -⟩ := hsame
  have := hroom _ hforwarded.turn
  have := hforwarded.room
  omega

/-- Two answers that close the same route are one. -/
theorem RoutedAnswer.unique {p q : Put} {k : Nat} (hp : RoutedAnswer steps p k)
    (hq : RoutedAnswer steps q k) : p = q := by
  obtain ⟨route, _, _, _, _, step, hforwarded, hlater, hstep, hmember, hplace, hknown, hclosed⟩ :=
    hp
  obtain ⟨other, _, _, _, _, step', hforwarded', hlater', hstep', hmember', hplace', hknown',
    hclosed'⟩ := hq
  obtain rfl := hforwarded.route_unique hsteps hforwarded'
  have hsteps_eq : p.step = q.step := by
    rcases Nat.lt_trichotomy p.step q.step with hlt | heq | hlt
    · exact absurd (mem_routes_of_le hsteps hforwarded hknown' (Nat.lt_succ_of_lt hlater) hlt)
        hclosed
    · exact heq
    · exact absurd (mem_routes_of_le hsteps hforwarded hknown (Nat.lt_succ_of_lt hlater') hlt)
        hclosed'
  rw [hsteps_eq, hstep'] at hstep
  obtain rfl := Option.some.inj hstep
  rw [hsteps_eq] at hplace
  have hplaces : p.place = q.place := by
    obtain ⟨hlt, -⟩ := List.getElem?_eq_some_iff.1 hplace
    exact (List.getElem?_inj hlt (nodup_answeredBy hsteps _ _ _)).1 (hplace.trans hplace'.symm)
  obtain ⟨i, m, j⟩ := p
  obtain ⟨i', m', j'⟩ := q
  simp only at hsteps_eq hplaces hmember hmember'
  rw [hsteps_eq, hplaces, hmember, hmember']

theorem Authentic.unique {p q : Put} {message message' : Message} {k : Nat}
    (hp : Authentic steps p message k) (hq : Authentic steps q message' k) : p = q := by
  rcases hp.own_or_routed hsteps with hp | hp
  · rcases hq.own_or_routed hsteps with hq | hq
    · obtain ⟨origin, id, cluster, timeout, payload, now, hcall, rfl, -⟩ := hp
      obtain ⟨origin', id', cluster', timeout', payload', now', hcall', rfl, -⟩ := hq
      have hsame := hcall.symm.trans hcall'
      simp only [Option.some.injEq, Step.request.injEq] at hsame
      rw [hsame.1]
    · obtain ⟨route, _, _, _, _, _, hforwarded, -⟩ := hq
      exact absurd hforwarded (hp.not_forwarded)
  · rcases hq.own_or_routed hsteps with hq | hq
    · obtain ⟨route, _, _, _, _, _, hforwarded, -⟩ := hp
      exact absurd hforwarded (hq.not_forwarded)
    · exact hp.unique hsteps hq

omit hsteps in
/-- An answer waits for the member that made the request, and carries the number of the request. -/
theorem Authentic.addressed {p : Put} {message : Message} {k : Nat}
    (h : Authentic steps p message k) :
    ∃ id cluster timeout payload now,
      steps[k]? = some (.request p.member id cluster timeout payload now) ∧
        message.envelope.requestId? = some id := by
  cases h with
  | noMembers origin id cluster timeout payload now hcall hput hcount hmessage =>
      subst hput hmessage
      exact ⟨id, cluster, timeout, payload, now, hcall, rfl⟩
  | undelivered origin id cluster timeout payload now target fault hcall hput hturn hroom
    hmessage =>
      subst hput hmessage
      exact ⟨id, cluster, timeout, payload, now, hcall, rfl⟩
  | lost route cluster timeout payload now hforwarded hlater hmember hstep hregistered hplace hknown
      hmessage =>
      subst hmessage
      rw [hmember]
      exact ⟨route.originId, cluster, timeout, payload, now, hforwarded.call, rfl⟩
  | replied route cluster timeout payload now hforwarded hlater hput answer hstep hknown hmessage =>
      subst hmessage
      rw [hput.1]
      exact ⟨route.originId, cluster, timeout, payload, now, hforwarded.call, rfl⟩
  | failed route cluster timeout payload now hforwarded hlater hput error body hstep hknown
      hmessage =>
      subst hmessage
      rw [hput.1]
      exact ⟨route.originId, cluster, timeout, payload, now, hforwarded.call, rfl⟩

end Run

/-- How the answers of a run belong to its requests: `call` gives the step that made the request. -/
structure Attribution (steps : List Step) (call : Put → Nat) : Prop where
  /-- What an answer says comes from the router or from the member that the request was passed
  to. -/
  authentic : ∀ p message, p.message? steps = some message → message.isAnswer = true →
    Authentic steps p message (call p)
  /-- An answer waits for the member that made the request, and carries the number of the
  request. -/
  addressed : ∀ p message, p.message? steps = some message → message.isAnswer = true →
    ∃ id cluster timeout payload now,
      steps[call p]? = some (.request p.member id cluster timeout payload now) ∧
        message.envelope.requestId? = some id
  /-- No request is answered twice. -/
  injective : ∀ p q, p.IsAnswer steps → q.IsAnswer steps → call p = call q → p = q

/-- In every run of fewer than 2^64 requests, each answer that is ever put into an outbox belongs to
a request of its own, and is authentic. -/
theorem answers_authentic (steps : List Step)
    (hsteps : steps.countP Step.isRequest < UInt64.size) :
    ∃ call : Put → Nat, Attribution steps call := by
  classical
  have hcall : ∀ p : Put, ∃ k, ∀ message, p.message? steps = some message →
      message.isAnswer = true → Authentic steps p message k := by
    intro p
    by_cases h : p.IsAnswer steps
    · obtain ⟨message, hmessage, hanswer⟩ := h
      obtain ⟨k, hk⟩ := exists_authentic hsteps hmessage hanswer
      refine ⟨k, fun other hother _ => ?_⟩
      rw [hmessage] at hother
      rw [← Option.some.inj hother]
      exact hk
    · exact ⟨0, fun message hmessage hanswer => absurd ⟨message, hmessage, hanswer⟩ h⟩
  choose call hauthentic using hcall
  refine ⟨call, hauthentic, ?_, ?_⟩
  · intro p message hmessage hanswer
    exact (hauthentic p message hmessage hanswer).addressed
  · rintro p q ⟨message, hmessage, hanswer⟩ ⟨message', hmessage', hanswer'⟩ hpq
    have hp := hauthentic p message hmessage hanswer
    have hq := hauthentic q message' hmessage' hanswer'
    rw [hpq] at hp
    exact hp.unique hsteps hq

/-- A run in which one number is used twice, a reply is forged and the serving member leaves. -/
def disputedRun : List Step :=
  [.join "clients" 8, .join "svc" 8, .request 1 ⟨7⟩ "svc" (.ofMillis 1000) ⟨#[1]⟩ 0,
    .request 1 ⟨7⟩ "svc" (.ofMillis 1000) ⟨#[2]⟩ 0, .reply 1 (.reply ⟨1⟩ ⟨#[9]⟩),
    .reply 2 (.reply ⟨1⟩ ⟨#[3]⟩), .reply 2 (.reply ⟨1⟩ ⟨#[4]⟩), .leave 2]

/-- The first request is answered by the member that was asked, the second by the router. -/
theorem answers_authentic_of_disputedRun :
    disputedRun.countP Step.isRequest < UInt64.size ∧
      (Put.mk 5 1 0).message? disputedRun = some (.reply ⟨7⟩ ⟨#[3]⟩) ∧
      (Put.mk 7 1 0).message? disputedRun =
        some (.errorReply ⟨7⟩ .memberLost "serving member disconnected") ∧
      ∃ call : Put → Nat, Attribution disputedRun call :=
  ⟨by decide, by decide +kernel, by decide +kernel, answers_authentic disputedRun (by decide)⟩

end Router

end Switchboard
