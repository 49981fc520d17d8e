import Switchboard.Proofs.Router.Forwarding

/-!
# What closes a route

A message in reply closes the route that it quotes, if the request was passed to its sender, and no
other. The origin of the route hears the answer that the message brings, if it takes a message. A
message that is no answer closes the route as well, and then nobody hears anything
(`reply_of_reached`, `unanswered_of_askedRun`).
-/

namespace Switchboard

namespace Router

/-! ## Routes of different numbers -/

section Numbers

variable {joined : Nat} {drawn : List RequestId} {router : Router} (h : Reached joined drawn router)
  (hdrawn : drawn.length < UInt64.size)

include h hdrawn

/-- A route has a number that was drawn, and they were drawn from one on. -/
theorem Reached.number_le :
    ∀ route ∈ router.routes, route.id.value.toNat ≤ router.routesOpened := by
  intro route hroute
  obtain ⟨hnext, hnumbers, hroutes⟩ := h.numbered
  have hopened : router.routesOpened = drawn.length := by
    have hminus : UInt64.ofNat (drawn.length + 1) - 1 = UInt64.ofNat drawn.length := by
      rw [UInt64.ofNat_add]
      exact UInt64.add_sub_cancel _ _
    rw [routesOpened, hnext, hminus]
    exact UInt64.toNat_ofNat_of_lt' hdrawn
  have hmem := hroutes route hroute
  rw [hnumbers] at hmem
  obtain ⟨k, hk, hid⟩ := List.mem_map.1 hmem
  have hlt := List.mem_range.1 hk
  have hnumber : (UInt64.ofNat (k + 1)).toNat = k + 1 := UInt64.toNat_ofNat_of_lt' (by omega)
  rw [hopened, ← hid, hnumber]
  exact hlt

/-- As long as the numbers last, the routes of a router that can be reached have different ones. -/
theorem Reached.orderly : Orderly router := by
  refine ⟨h.number_le hdrawn, ?_⟩
  induction h with
  | new => exact List.nodup_nil
  | @step joined drawn router h step ih =>
      have hbefore : drawn.length < UInt64.size := by
        rw [List.length_append] at hdrawn
        omega
      have horderly : Orderly router := ⟨h.number_le hbefore, ih hbefore⟩
      apply horderly.distinct_perform
      intro _ route hroute hid
      exact h.fresh hbefore (hid ▸ h.numbered.routes route hroute)

end Numbers

/-! ## Messages in reply -/

/-- A route that a message in reply closes: the message quotes it, and it leads to the sender. -/
structure Closes (router : Router) (sender : MemberId) (message : Message) (route : Route) :
    Prop where
  known : route ∈ router.routes
  quoted : message.envelope.requestId? = some route.id
  target : route.target = sender

/-- One route is gone, and nothing else has changed but outboxes and counts. -/
structure Removed (before : Router) (route : Route) (after : Router) : Prop where
  routes : after.routes = before.routes.erase route
  members : after.members = before.members
  rosters : after.rosters = before.rosters
  nextMember : after.nextMember = before.nextMember
  nextRoute : after.nextRoute = before.nextRoute

/-- An answer has been brought to a member, and is counted. It is put into the outbox if the member
takes a message, and dropped otherwise. -/
structure Brought (before : Router) (id : MemberId) (answer : Message) (after : Router) : Prop where
  others : ∀ other, other ≠ id → after.outbox? other = before.outbox? other
  heard : ∀ outbox, before.Accepts id outbox →
    after.outbox? id = some { outbox with queued := outbox.queued ++ [answer] } ∧
    after.stats = { before.stats with repliesRouted := before.stats.repliesRouted + 1 }
  unheard : (∀ outbox, ¬ before.Accepts id outbox) →
    after.outbox? id = before.outbox? id ∧
    after.stats = { before.stats with repliesDropped := before.stats.repliesDropped + 1 }

/-- The answer that a message brings, under the number of the request that it answers. -/
inductive Brings (id : RequestId) : Message → Message → Prop where
  | reply (quoted : RequestId) (payload : ByteArray) :
      Brings id (.reply quoted payload) (.reply id payload)
  | error (quoted : RequestId) (error : ReplyError) (payload : ByteArray) :
      Brings id ⟨.errorReply quoted error, payload⟩ (.errorReply id error.code error.message)

/-- What a message in reply comes to. -/
inductive Concludes (before : Router) (sender : MemberId) (message : Message) (after : Router) :
    Prop where
  /-- An answer closes its route, and is brought to the origin under the number of the request. -/
  | answered (route : Route) (answer : Message) (hcloses : before.Closes sender message route)
      (hanswer : message.isAnswer = true) (hbrings : Brings route.originId message answer)
      (hremoved : Removed before route after) (hbrought : Brought before route.origin answer after)
  /-- Another message closes its route, and the origin hears nothing. -/
  | swallowed (route : Route) (hcloses : before.Closes sender message route)
      (hanswer : message.isAnswer = false) (hremoved : Removed before route after)
      (houtboxes : after.outboxes = before.outboxes) (hstats : after.stats = before.stats)
  /-- Without a route that it closes, a message changes nothing but a count. -/
  | ignored (hnone : ∀ route, ¬ before.Closes sender message route)
      (hafter : after = before ∨ after = before.countDropped)

theorem brings_of_answerTo {id : RequestId} {message answer : Message}
    (h : answerTo id message = some answer) : Brings id message answer := by
  rcases answerTo_eq_some h with ⟨quoted, payload, rfl, rfl⟩ | ⟨quoted, error, payload, rfl, rfl⟩
  · exact .reply quoted payload
  · exact .error quoted error payload

/-- A message brings an answer exactly if it is one. -/
theorem isSome_answerTo (id : RequestId) (message : Message) :
    (answerTo id message).isSome = message.isAnswer := by
  obtain ⟨envelope, payload⟩ := message
  cases envelope <;> rfl

section Answer

variable {router : Router} {route : Route} {message answer : Message}

theorem Orderly.routes_eraseRoute (h : Orderly router) (hroute : route ∈ router.routes) :
    (router.eraseRoute route.id).routes = router.routes.erase route := by
  rw [(List.Nodup.of_map Route.id h.distinct).erase_eq_filter]
  apply List.filter_congr
  intro other hother
  by_cases hsame : other = route
  · simp [hsame]
  · have hid : other.id ≠ route.id :=
      fun hid => hsame (Lookup.eq_of_key h.distinct hother hroute hid)
    simp [hsame, hid]

/-- An answer is brought to the origin of a route that has been closed. -/
theorem brought_answer {before : Router} (hanswer : answerTo route.originId message = some answer)
    (hmembers : router.members = before.members) (houtboxes : router.outboxes = before.outboxes)
    (hstats : router.stats = before.stats) :
    Brought before route.origin answer (router.answer route message) := by
  have houtbox? : ∀ other, router.outbox? other = before.outbox? other := by
    intro other
    rw [outbox?, houtboxes, outbox?]
  by_cases haccepts : ∃ outbox, before.Accepts route.origin outbox
  · obtain ⟨outbox, haccepts⟩ := haccepts
    have hclosed : router.Accepts route.origin outbox := haccepts.congr hmembers houtboxes
    have hafter : router.answer route message = (router.receive outbox answer).countReplied := by
      simp only [Router.answer, hanswer, hclosed.deliver_eq]
      rfl
    have hfound : router.outbox? route.origin = some outbox := hclosed.found
    rw [hafter]
    constructor
    · intro other hother
      rw [← houtbox? other]
      exact outbox?_receive_ne hfound answer hother
    · intro found hfoundAccepts
      obtain rfl : outbox = found :=
        Option.some.inj (haccepts.found.symm.trans hfoundAccepts.found)
      refine ⟨outbox?_receive_self hfound answer, ?_⟩
      rw [← hstats]
      rfl
    · intro hrefuses
      exact absurd haccepts (hrefuses outbox)
  · have hrefuses := not_exists.1 haccepts
    have hafter : router.answer route message = router.countDropped := by
      simp only [Router.answer, hanswer]
      rw [deliver_of_not_accepts fun outbox hclosed =>
        hrefuses outbox (hclosed.congr hmembers.symm houtboxes.symm)]
    rw [hafter]
    constructor
    · exact fun other _ => houtbox? other
    · exact fun outbox hfound => absurd hfound (hrefuses outbox)
    · intro _
      refine ⟨houtbox? route.origin, ?_⟩
      rw [← hstats]
      rfl

end Answer

/-- As long as the numbers last, a message in reply closes one route or none, whatever the message
is and whoever has sent it. An answer that closes a route is brought to the origin, and counted
once; a message that is none closes its route, and nobody hears of it. -/
theorem reply_of_reached {joined : Nat} {drawn : List RequestId} {router : Router}
    (h : Reached joined drawn router) (hdrawn : drawn.length < UInt64.size) (sender : MemberId)
    (message : Message) : Concludes router sender message (router.routeReply sender message) := by
  have horderly := h.orderly hdrawn
  cases hid : message.envelope.requestId? with
  | none =>
      refine .ignored ?_ (Or.inl (by simp only [routeReply, hid]))
      intro route hcloses
      cases hid.symm.trans hcloses.quoted
  | some id =>
      cases hroute : router.route? id with
      | none =>
          refine .ignored ?_ (Or.inr (by simp only [routeReply, hid, hroute]))
          intro route hcloses
          obtain rfl : id = route.id := Option.some.inj (hid.symm.trans hcloses.quoted)
          rw [horderly.route?_of_mem hcloses.known] at hroute
          cases hroute
      | some route =>
          obtain rfl : route.id = id := Lookup.key_of_find? hroute
          have hknown : route ∈ router.routes := List.mem_of_find?_eq_some hroute
          rw [routeReply_of_route? hid hroute]
          by_cases htarget : route.target = sender
          · rw [if_pos htarget]
            have hcloses : router.Closes sender message route := ⟨hknown, hid, htarget⟩
            have hsame := sameRegistry_answer (router.eraseRoute route.id) route message
            have hremoved : Removed router route
                ((router.eraseRoute route.id).answer route message) :=
              ⟨hsame.routes.trans (horderly.routes_eraseRoute hknown), hsame.members, hsame.rosters,
                hsame.nextMember, hsame.nextRoute⟩
            have hkind := isSome_answerTo route.originId message
            cases hanswer : answerTo route.originId message with
            | none =>
                rw [hanswer] at hkind
                have hsilent : (router.eraseRoute route.id).answer route message =
                    router.eraseRoute route.id := by simp only [answer, hanswer]
                rw [hsilent] at hremoved ⊢
                exact .swallowed route hcloses hkind.symm hremoved rfl rfl
            | some answer =>
                rw [hanswer] at hkind
                exact .answered route answer hcloses hkind.symm
                  (brings_of_answerTo hanswer) hremoved
                  (brought_answer hanswer rfl rfl rfl)
          · rw [if_neg htarget]
            refine .ignored ?_ (Or.inr rfl)
            intro other hcloses
            have hquoted : other.id = route.id :=
              (Option.some.inj (hid.symm.trans hcloses.quoted)).symm
            obtain rfl := Lookup.eq_of_key horderly.distinct hcloses.known hknown hquoted
            exact htarget hcloses.target

/-- A member of one cluster asks one of another. -/
def askedRun : List Step :=
  [.join "clients" 8, .join "svc" 8, .request 1 ⟨7⟩ "svc" (.ofMillis 1000) ⟨#[1]⟩ 0]

/-- The answer of the member that was asked is brought to the member that asked. -/
theorem reply_of_askedRun :
    Reached 2 [⟨1⟩] (run askedRun) ∧ ([⟨1⟩] : List RequestId).length < UInt64.size ∧
      ((run askedRun).routeReply 2 (.reply ⟨1⟩ ⟨#[2]⟩)).stats.repliesRouted = 1 ∧
      Concludes (run askedRun) 2 (.reply ⟨1⟩ ⟨#[2]⟩)
        ((run askedRun).routeReply 2 (.reply ⟨1⟩ ⟨#[2]⟩)) := by
  have hreached : Reached 2 [⟨1⟩] (run askedRun) := by
    have hdrawn : Router.new.drawnIn askedRun = [⟨1⟩] := by decide +kernel
    rw [← hdrawn]
    exact reached_run askedRun
  have hdrawn : ([⟨1⟩] : List RequestId).length < UInt64.size := by decide
  exact ⟨hreached, hdrawn, by decide +kernel,
    reply_of_reached hreached hdrawn 2 (.reply ⟨1⟩ ⟨#[2]⟩)⟩

/-- A request that the same member sends under the number of the route takes the route away. Nothing
is counted, no outbox changes, and the answer that follows is dropped. -/
theorem unanswered_of_askedRun :
    let asked := run askedRun
    let closed := asked.routeReply 2 (.request ⟨1⟩ "svc" 1000 ⟨#[3]⟩)
    asked.routes = [⟨⟨1⟩, 1, ⟨7⟩, 2, 1000000000⟩] ∧ closed.routes = [] ∧
      closed.outboxes = asked.outboxes ∧ closed.stats = asked.stats ∧
      (closed.routeReply 2 (.reply ⟨1⟩ ⟨#[2]⟩)).stats.repliesRouted = 0 ∧
      (closed.routeReply 2 (.reply ⟨1⟩ ⟨#[2]⟩)).outbox? 1 = asked.outbox? 1 := by
  decide +kernel

end Router

end Switchboard
