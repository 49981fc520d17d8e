import Switchboard.Proofs.EnvelopeSize
import Switchboard.Proofs.Relay.Run
import Switchboard.Proofs.Router.Answers

/-!
# Which messages of a relay can be written

A relay writes a message of its own, and the messages that it has put into outboxes, as frames. What
it says on its own account always fits into one. A request or an error that it passes on comes with
another number, and the name of a cluster without members comes back inside an error text: either
may be too long where the message that came in was not. `writes_fit` says exactly when. In a run
without such messages no link ends because of a message that does not fit.
-/

namespace Switchboard

open Json (quotedSize digitCount)

namespace Router

/-! ## What is put into outboxes -/

/-- Between two routers messages with a property have been put at the ends of outboxes, and nothing
else has happened to the outboxes. -/
def Appends (P : Message → Prop) (before after : Router) : Prop :=
  ∀ id, ∃ new, after.queued id = before.queued id ++ new ∧ ∀ message ∈ new, P message

namespace Appends

variable {P : Message → Prop}

theorem of_queued_eq {before after : Router} (h : ∀ id, after.queued id = before.queued id) :
    Appends P before after :=
  fun id => ⟨[], by rw [h, List.append_nil], fun _ hmessage => nomatch hmessage⟩

theorem refl (router : Router) : Appends P router router := of_queued_eq fun _ => rfl

theorem trans {a b c : Router} (hab : Appends P a b) (hbc : Appends P b c) : Appends P a c := by
  intro id
  obtain ⟨first, hfirst, hpfirst⟩ := hab id
  obtain ⟨second, hsecond, hpsecond⟩ := hbc id
  refine ⟨first ++ second, ?_, ?_⟩
  · rw [hsecond, hfirst, List.append_assoc]
  · intro message hmessage
    rcases List.mem_append.1 hmessage with h | h
    · exact hpfirst message h
    · exact hpsecond message h

theorem mono {Q : Message → Prop} {before after : Router} (h : Appends P before after)
    (hpq : ∀ message, P message → Q message) : Appends Q before after := by
  intro id
  obtain ⟨new, hnew, hp⟩ := h id
  exact ⟨new, hnew, fun message hmessage => hpq message (hp message hmessage)⟩

theorem added {before after : Router} (h : Appends P before after) (id : MemberId) :
    ∀ message ∈ Router.added before after id, P message := by
  obtain ⟨new, hnew, hp⟩ := h id
  rw [added_of_append hnew]
  exact hp

end Appends

theorem appends_join (router : Router) (cluster : String) (capacity : Nat) :
    Appends Message.Fits router (router.join cluster capacity).2 :=
  .of_queued_eq (queued_join router cluster capacity)

theorem fits_memberLost (route : Route) : (memberLost route).Fits :=
  Message.fits_errorReply (by decide) _ _

/-- What the members hear of a departure fits. -/
theorem appends_leave (router : Router) (id : MemberId) :
    Appends Message.Fits router (router.leave id).2 := by
  intro other
  cases hmember : router.member? id with
  | none =>
      rw [leave_of_not_member hmember]
      exact Appends.refl router other
  | some member =>
      refine ⟨_, queued_leave hmember other, ?_⟩
      intro message hmessage
      obtain ⟨route, -, rfl⟩ := List.mem_map.1 (List.mem_of_mem_take hmessage)
      exact fits_memberLost route

theorem appends_routerWithout (router : Router) (member : Option MemberId) :
    Appends Message.Fits router (Relay.routerWithout router member) := by
  cases member with
  | none => exact .refl router
  | some id => exact appends_leave router id

/-! ## Requests -/

/-- The text of a failure to deliver is short. -/
theorem quotedSize_undelivered (fault : Undelivered) : quotedSize fault.text ≤ 65000 := by
  have hstart : quotedSize "member " = 9 := by decide
  have hnumber : ∀ id : MemberId, quotedSize (toString id) ≤ 22 := by
    intro id
    have hdigits := Json.digitCount_le_twenty id
    have hsize : quotedSize (toString id) = digitCount id.toNat + 2 :=
      Json.quotedSize_toString id.toNat
    omega
  have hparts : ∀ (id : MemberId) (tail : String), quotedSize tail ≤ 1000 →
      quotedSize ("member " ++ toString id ++ tail) ≤ 65000 := by
    intro id tail htail
    have hwhole := Json.quotedSize_append ("member " ++ toString id) tail
    have hfirst := Json.quotedSize_append "member " (toString id)
    have hdigits := hnumber id
    omega
  cases fault with
  | full id => exact hparts id " outbound queue full" (by decide)
  | gone id => exact hparts id " is gone" (by decide)

/-- The text that names a cluster without members. -/
theorem quotedSize_noMembers (cluster : String) :
    quotedSize s!"no members in cluster {cluster}" = 22 + quotedSize cluster := by
  have hstart : quotedSize "no members in cluster " = 24 := by decide
  have hwhole := Json.quotedSize_append "no members in cluster " cluster
  show quotedSize ("no members in cluster " ++ cluster) = _
  omega

theorem appends_routeRequest (router : Router) (origin : MemberId) (id : RequestId)
    (cluster : String) (timeout : Duration) (payload : ByteArray) (now : Instant) :
    Appends (fun _ => True) router
      (router.routeRequest origin id cluster timeout payload now) := by
  intro other
  cases router.routeRequest_effect origin id cluster timeout payload now with
  | noMembers hturn hrefusal hroutes hnext => exact ⟨_, hrefusal other, fun _ _ => trivial⟩
  | undelivered target fault hturn hroom hrefusal hroutes hnext =>
      exact ⟨_, hrefusal other, fun _ _ => trivial⟩
  | forwarded target hturn hroom hroutes hqueued hnext =>
      exact ⟨_, hqueued other, fun _ _ => trivial⟩

/-- Whether what a router makes of a request fits into a frame, if there is room for it: the request
itself under the number of its route, or the error that names a cluster without members. -/
def RequestFits (router : Router) (origin : MemberId) (id : RequestId) (cluster : String)
    (timeout : Duration) : Prop :=
  match router.turn? cluster with
  | some target => 0 < router.room target →
      49 + digitCount router.nextRoute.toNat + quotedSize cluster +
        digitCount timeout.wireMillis.toNat ≤ maxHeaderSize
  | none => 0 < router.room origin →
      91 + digitCount id.value.toNat + quotedSize cluster ≤ maxHeaderSize

/-- An error reply of the router's own is all that is added, if there is room. -/
theorem forall_added_of_refusal {before after : Router} {origin : MemberId} {message : Message}
    (h : Refusal before after origin message) :
    (∀ id, ∀ m ∈ added before after id, m.Fits) ↔ (0 < before.room origin → message.Fits) := by
  constructor
  · intro hadded hroom
    refine hadded origin message ?_
    rw [added_of_append (h origin), if_pos rfl, List.take_of_length_le hroom]
    exact List.mem_singleton_self message
  · intro hfits id m hm
    rw [added_of_append (h id)] at hm
    by_cases hid : id = origin
    · rw [if_pos hid, hid] at hm
      have hroom : 0 < before.room origin := by
        by_contra hnone
        rw [Nat.eq_zero_of_not_pos hnone, List.take_zero] at hm
        cases hm
      rw [List.mem_singleton.1 (List.mem_of_mem_take hm)]
      exact hfits hroom
    · rw [if_neg hid, List.take_nil] at hm
      cases hm

/-- What a request adds to the outboxes fits exactly if its texts are short enough. -/
theorem forall_added_routeRequest (router : Router) (origin : MemberId) (id : RequestId)
    (cluster : String) (timeout : Duration) {payload : ByteArray}
    (hpayload : payload.size ≤ maxPayloadSize) (now : Instant) :
    (∀ other, ∀ m ∈ added router
        (router.routeRequest origin id cluster timeout payload now) other, m.Fits) ↔
      router.RequestFits origin id cluster timeout := by
  unfold RequestFits
  cases router.routeRequest_effect origin id cluster timeout payload now with
  | noMembers hturn hrefusal hroutes hnext =>
      have hname : quotedSize ErrorCode.noMembers.name = 12 := by decide
      rw [forall_added_of_refusal hrefusal, Message.fits_errorReply_iff, hname,
        quotedSize_noMembers, hturn]
      -- The text around the name of the cluster has a fixed length.
      have hsum : 57 + digitCount id.value.toNat + 12 + (22 + quotedSize cluster) =
          91 + digitCount id.value.toNat + quotedSize cluster := by omega
      rw [hsum]
  | undelivered target fault hturn hroom hrefusal hroutes hnext =>
      rw [forall_added_of_refusal hrefusal, hturn]
      refine ⟨fun _ hpos => absurd hpos (by omega), fun _ _ => ?_⟩
      exact Message.fits_errorReply (quotedSize_undelivered fault) _ _
  | forwarded target hturn hroom hroutes hqueued hnext =>
      have hiff := Message.fits_request_iff hpayload ⟨router.nextRoute⟩ cluster timeout.wireMillis
      rw [hturn]
      constructor
      · intro hadded _
        refine hiff.1 (hadded target _ ?_)
        rw [added_of_append (hqueued target), if_pos rfl]
        exact List.mem_singleton_self _
      · intro hfits other m hm
        rw [added_of_append (hqueued other)] at hm
        by_cases hother : other = target
        · rw [if_pos hother, List.mem_singleton] at hm
          rw [hm]
          exact hiff.2 (hfits hroom)
        · rw [if_neg hother] at hm
          cases hm

/-! ## Answers -/

theorem appends_routeReply (router : Router) (sender : MemberId) (message : Message) :
    Appends (fun _ => True) router (router.routeReply sender message) := by
  intro other
  cases routeReply_effect router sender message with
  | ignored hroutes hqueued => exact Appends.of_queued_eq hqueued other
  | closed route hquoted hroute htarget hroutes hqueued =>
      exact ⟨_, hqueued other, fun _ _ => trivial⟩

/-- Whether what a router makes of an answer fits into a frame, if there is room for it: an error
comes to the origin under the number of its request. -/
def AnswerFits (router : Router) (sender : MemberId) (message : Message) : Prop :=
  ∀ id error route, message.envelope = .errorReply id error → router.route? id = some route →
    route.target = sender → 0 < router.room route.origin →
      57 + digitCount route.originId.value.toNat + quotedSize error.code.name +
        quotedSize error.message ≤ maxHeaderSize

/-- What an answer adds to the outboxes fits exactly if its text is short enough. -/
theorem forall_added_routeReply (router : Router) (sender : MemberId) {message : Message}
    (hpayload : message.payload.size ≤ maxPayloadSize) :
    (∀ other, ∀ m ∈ added router (router.routeReply sender message) other, m.Fits) ↔
      router.AnswerFits sender message := by
  by_cases hquoted : ∃ id route, message.envelope.requestId? = some id ∧
      router.route? id = some route ∧ route.target = sender
  · obtain ⟨id, route, hid, hroute, htarget⟩ := hquoted
    have hqueued : ∀ other, (router.routeReply sender message).queued other =
        router.queued other ++ (if other = route.origin then
          (answerTo route.originId message).toList else []).take (router.room other) := by
      intro other
      rw [routeReply_of_route? hid hroute, if_pos htarget, queued_answer]
      rfl
    constructor
    · intro hadded id' error route' herror hroute' htarget' hroom
      obtain rfl : id = id' := by
        rw [herror] at hid
        exact (Option.some.inj hid).symm
      obtain rfl : route = route' := by
        rw [hroute] at hroute'
        exact Option.some.inj hroute'
      have hanswer : answerTo route.originId message =
          some (.errorReply route.originId error.code error.message) := by
        unfold answerTo
        rw [herror]
      refine (Message.fits_errorReply_iff _ _ _).1 (hadded route.origin _ ?_)
      rw [added_of_append (hqueued route.origin), if_pos rfl, hanswer,
        List.take_of_length_le hroom]
      exact List.mem_singleton_self _
    · intro hfits other m hm
      rw [added_of_append (hqueued other)] at hm
      by_cases hother : other = route.origin
      · -- Without room nothing is added; with room it is the answer under the origin's own number.
        subst hother
        have hroom : 0 < router.room route.origin := by
          by_contra hnone
          rw [Nat.eq_zero_of_not_pos hnone, List.take_zero] at hm
          cases hm
        rw [if_pos rfl] at hm
        have hanswer := Option.mem_toList.1 (List.mem_of_mem_take hm)
        rcases answerTo_eq_some hanswer with
          ⟨quoted, body, rfl, rfl⟩ | ⟨quoted, error, body, rfl, rfl⟩
        · exact Message.fits_reply hpayload _
        · obtain rfl : quoted = id := Option.some.inj hid
          exact (Message.fits_errorReply_iff _ _ _).2
            (hfits quoted error route rfl hroute htarget hroom)
      · rw [if_neg hother, List.take_nil] at hm
        cases hm
  · -- An answer that quotes no route of its sender adds nothing.
    have hqueued : ∀ other, (router.routeReply sender message).queued other =
        router.queued other := by
      cases routeReply_effect router sender message with
      | ignored hroutes hqueued => exact hqueued
      | closed route hid hroute htarget hroutes hqueued =>
          exact absurd ⟨route.id, route, hid, hroute, htarget⟩ hquoted
    constructor
    · intro _ id error route herror hroute htarget _
      refine absurd ⟨id, route, ?_, hroute, htarget⟩ hquoted
      rw [herror]
      rfl
    · intro _ other
      exact (Appends.of_queued_eq hqueued).added other

end Router

namespace Relay

open Router (Appends added)

/-! ## What a relay says on its own account -/

/-- What a link writes itself on account of a message: that the session is welcome, why its opening
is refused, or that the message makes no sense where it stands. -/
def ownReply? (link : Link) (message : Message) : Option Message :=
  match link.session.member with
  | none =>
      if message.envelope.kind = .close then none
      else
        match openingFault? message with
        | none => some (.welcome link.name)
        | some error => some (.errorReply .none error.toReply.code error.toReply.message)
  | some _ =>
      if message.envelope.kind = .hello ∨ message.envelope.kind = .welcome then
        some (.errorReply .none .badRequest
          s!"unexpected {message.envelope.kind.name} after handshake")
      else none

theorem quotedSize_openingFault {message : Message} {error : RelayError}
    (h : openingFault? message = some error) : quotedSize error.toReply.message ≤ 65000 := by
  unfold openingFault? at h
  split at h
  · rename_i version cluster clientName henvelope
    split at h
    · cases h
      have hstart : quotedSize "unsupported protocol version: " = 32 := by decide
      have hwhole := Json.quotedSize_append "unsupported protocol version: " (toString version)
      have hversion : quotedSize (toString version) = digitCount version.toNat + 2 :=
        Json.quotedSize_toString version.toNat
      have hdigits : digitCount version.toNat ≤ 20 :=
        Json.Numeral.length_toDigits_le_twenty (Nat.lt_trans version.toNat_lt_size (by decide))
      show quotedSize ("unsupported protocol version: " ++ toString version) ≤ 65000
      omega
    · split at h
      · cases h
        decide
      · cases h
  · cases h
    generalize message.envelope.kind = kind
    cases kind <;> decide

/-- What a link writes itself fits, if the name does under which the session is welcomed. -/
theorem fits_ownReply {link : Link} (hname : (Message.welcome link.name).Fits)
    {message reply : Message}
    (h : ownReply? link message = some reply) : reply.Fits := by
  unfold ownReply? at h
  split at h
  · split at h
    · cases h
    · split at h
      · cases h
        exact hname
      · rename_i error hopening
        cases h
        exact Message.fits_errorReply (quotedSize_openingFault hopening) _ _
  · split at h
    · cases h
      refine Message.fits_errorReply ?_ _ _
      generalize message.envelope.kind = kind
      cases kind <;> decide
    · cases h

/-- A client that takes what is written to it gets all that its link says itself. -/
theorem Handled.sent_eq {options : RelayOptions} {router router' : Router} {link link' : Link}
    {message : Message} {now : Instant} (h : Handled options router link message now router' link')
    (hname : (Message.welcome link.name).Fits) (hwritable : link.isWritable = true) :
    link'.sent = link.sent ++ (ownReply? link message).toList := by
  have hfits : ∀ reply, ownReply? link message = some reply → reply.Fits := fun _ =>
    fits_ownReply hname
  have hnothing : ownReply? link message = none →
      link.sent = link.sent ++ (ownReply? link message).toList := by
    intro hnone
    rw [hnone, Option.toList_none, List.append_nil]
  cases h with
  | closed reason hmessage =>
      refine hnothing ?_
      have hkind : message.envelope.kind = .close := by rw [hmessage]; rfl
      cases hmember : link.session.member with
      | none => simp [ownReply?, hmember, hkind]
      | some member => simp [ownReply?, hmember, hkind]
  | welcomed version cluster clientName link' hmember hmessage hopening hwrite =>
      have hkind : message.envelope.kind = .hello := by rw [hmessage]; rfl
      have hreply : ownReply? link message = some (.welcome link.name) := by
        simp [ownReply?, hmember, hkind, hopening]
      obtain ⟨-, -, rfl⟩ := Link.write_eq_some.1 hwrite
      rw [hreply]
      rfl
  -- A welcome fits and its client takes it, so it is not lost.
  | unwelcomed version cluster clientName session hmember hmessage hopening hsession hwrite =>
      have hwritten : Link.write { link with session } (.welcome link.name) = some _ :=
        Link.write_of_fits hname hwritable
      rw [hwritten] at hwrite
      cases hwrite
  | refused error hmember hopening hmessage =>
      have hkind : message.envelope.kind ≠ .close := by
        cases henvelope : message.envelope with
        | close reason => exact absurd henvelope (hmessage reason)
        | _ =>
            intro hclose
            cases hclose
      have hreply : ownReply? link message =
          some (.errorReply .none error.toReply.code error.toReply.message) := by
        simp [ownReply?, hmember, hkind, hopening]
      have htry : link.tryWrite (.errorReply .none error.toReply.code error.toReply.message) =
          { link with sent := link.sent ++
              [.errorReply .none error.toReply.code error.toReply.message] } := by
        unfold Link.tryWrite
        rw [Link.write_of_fits (hfits _ hreply) hwritable]
        rfl
      rw [hreply, htry]
      rfl
  | request member id cluster timeoutMs hmember hmessage =>
      refine hnothing ?_
      have hkind : message.envelope.kind = .request := by rw [hmessage]; rfl
      simp [ownReply?, hmember, hkind]
  | answer member hmember hmessage =>
      refine hnothing ?_
      have hkind : message.envelope.kind ≠ .hello ∧ message.envelope.kind ≠ .welcome := by
        cases henvelope : message.envelope with
        | hello version cluster clientName =>
            rw [Message.isAnswer, henvelope] at hmessage
            cases hmessage
        | welcome connectionId =>
            rw [Message.isAnswer, henvelope] at hmessage
            cases hmessage
        | _ => constructor <;> intro hkind <;> cases hkind
      simp [ownReply?, hmember, hkind]
  | misplaced member link' hmember hmessage hwrite =>
      have hreply : ownReply? link message = some (.errorReply .none .badRequest
          s!"unexpected {message.envelope.kind.name} after handshake") := by
        simp only [ownReply?, hmember, if_pos hmessage]
      obtain ⟨-, -, rfl⟩ := Link.write_eq_some.1 hwrite
      rw [hreply]
      rfl
  -- Nor is the answer to a message out of place.
  | unheard member hmember hmessage hwrite =>
      have hreply : ownReply? link message = some (.errorReply .none .badRequest
          s!"unexpected {message.envelope.kind.name} after handshake") := by
        simp only [ownReply?, hmember, if_pos hmessage]
      rw [Link.write_of_fits (hfits _ hreply) hwritable] at hwrite
      cases hwrite

/-! ## One step -/

/-- Whether what the router makes of a message of a session fits into a frame, if there is room for
it. -/
def Passable (router : Router) (sender : MemberId) (message : Message) : Prop :=
  (∀ id cluster timeoutMs, message.envelope = .request id cluster timeoutMs →
    router.RequestFits sender id cluster (timeoutOfWire timeoutMs)) ∧
  router.AnswerFits sender message

/-- What a message adds to the outboxes fits exactly if it is passable. -/
theorem Handled.forall_added {options : RelayOptions} {router router' : Router} {link link' : Link}
    {message : Message} {now : Instant} (h : Handled options router link message now router' link')
    (hpayload : message.payload.size ≤ maxPayloadSize) :
    (∀ other, ∀ m ∈ added router router' other, m.Fits) ↔
      ∀ member, link.session.member = some member → Passable router member message := by
  have hanswer : ∀ member, (∀ quoted error, message.envelope ≠ .errorReply quoted error) →
      router.AnswerFits member message :=
    fun member hne quoted error _ herror => absurd herror (hne quoted error)
  -- Messages that are neither requests nor errors are passable, and what they add to outboxes fits.
  have hneither : Appends Message.Fits router router' →
      (∀ id cluster timeoutMs, message.envelope ≠ .request id cluster timeoutMs) →
      (∀ quoted error, message.envelope ≠ .errorReply quoted error) →
      ((∀ other, ∀ m ∈ added router router' other, m.Fits) ↔
        ∀ member, link.session.member = some member → Passable router member message) := by
    intro happends hrequest herror
    refine ⟨fun _ member _ => ⟨?_, hanswer member herror⟩, fun _ other => happends.added other⟩
    intro id cluster timeoutMs henvelope
    exact absurd henvelope (hrequest id cluster timeoutMs)
  -- A session that has not joined sends nothing that would have to be passable.
  have hoffside : Appends Message.Fits router router' → link.session.member = none →
      ((∀ other, ∀ m ∈ added router router' other, m.Fits) ↔
        ∀ member, link.session.member = some member → Passable router member message) := by
    intro happends hmember
    refine ⟨fun _ member hsome => ?_, fun _ other => happends.added other⟩
    rw [hmember] at hsome
    cases hsome
  cases h with
  | closed reason hmessage =>
      exact hneither (Router.appends_routerWithout _ _) (by simp [hmessage]) (by simp [hmessage])
  | welcomed version cluster clientName link' hmember hmessage hopening hwrite =>
      exact hoffside (Router.appends_join _ _ _) hmember
  | unwelcomed version cluster clientName session hmember hmessage hopening hsession hwrite =>
      exact hoffside ((Router.appends_join _ _ _).trans (Router.appends_leave _ _)) hmember
  | refused error hmember hopening hmessage => exact hoffside (.refl router) hmember
  | request member id cluster timeoutMs hmember hmessage =>
      rw [Router.forall_added_routeRequest router member id cluster _ hpayload now]
      constructor
      · intro hfits other hother
        rw [hmember] at hother
        cases hother
        refine ⟨?_, hanswer member (by simp [hmessage])⟩
        intro id' cluster' timeoutMs' henvelope
        rw [hmessage] at henvelope
        cases henvelope
        exact hfits
      · intro hpassable
        exact (hpassable member hmember).1 id cluster timeoutMs hmessage
  | answer member hmember hmessage =>
      rw [Router.forall_added_routeReply router member hpayload]
      constructor
      · intro hfits other hother
        rw [hmember] at hother
        cases hother
        refine ⟨?_, hfits⟩
        intro id cluster timeoutMs henvelope
        rw [Message.isAnswer, henvelope] at hmessage
        cases hmessage
      · intro hpassable
        exact (hpassable member hmember).2
  | misplaced member link' hmember hmessage hwrite =>
      refine hneither (.refl router) ?_ ?_
      · intro id cluster timeoutMs henvelope
        simp [henvelope, Envelope.kind] at hmessage
      · intro id error henvelope
        simp [henvelope, Envelope.kind] at hmessage
  | unheard member hmember hmessage hwrite =>
      refine hneither (Router.appends_leave _ _) ?_ ?_
      · intro id cluster timeoutMs henvelope
        simp [henvelope, Envelope.kind] at hmessage
      · intro id error henvelope
        simp [henvelope, Envelope.kind] at hmessage

theorem Handled.appends {options : RelayOptions} {router router' : Router} {link link' : Link}
    {message : Message} {now : Instant}
    (h : Handled options router link message now router' link') :
    Appends (fun _ => True) router router' := by
  have hweaken :
      ∀ {after}, Appends Message.Fits router after → Appends (fun _ => True) router after :=
    fun happends => happends.mono fun _ _ => trivial
  cases h with
  | closed reason hmessage => exact hweaken (Router.appends_routerWithout _ _)
  | welcomed version cluster clientName link' hmember hmessage hopening hwrite =>
      exact hweaken (Router.appends_join _ _ _)
  | unwelcomed version cluster clientName session hmember hmessage hopening hsession hwrite =>
      exact hweaken ((Router.appends_join _ _ _).trans (Router.appends_leave _ _))
  | refused error hmember hopening hmessage => exact .refl router
  | request member id cluster timeoutMs hmember hmessage =>
      exact Router.appends_routeRequest _ _ _ _ _ _ _
  | answer member hmember hmessage => exact Router.appends_routeReply _ _ _
  | misplaced member link' hmember hmessage hwrite => exact .refl router
  | unheard member hmember hmessage hwrite => exact hweaken (Router.appends_leave _ _)

/-- A link has taken a message off what it has received, and deals with it next. -/
def Takes (relay : Relay) (id : LinkId) (link : Link) (message : Message) : Prop :=
  relay.link? id = some link ∧ link.phase = .reading ∧
    ∃ decoder, link.decoder.nextMessage = (.item message, decoder)

/-- What the turn of a link does when it takes a message. -/
theorem Takes.handled {relay : Relay} {id : LinkId} {link : Link} {message : Message}
    (h : Takes relay id link message) (now : Instant) :
    ∃ decoder link', link.decoder.nextMessage = (.item message, decoder) ∧
      Handled relay.options relay.router { link with decoder } message now
        (relay.readNext id now).router link' ∧
      (relay.readNext id now).links = Lookup.replace Link.id link' relay.links := by
  obtain ⟨hlink, hphase, decoder, hnext⟩ := h
  have hread : relay.readNext id now = (relay.count fun stats =>
      { stats with messagesReceived := stats.messagesReceived + 1 }).handle { link with decoder }
        message now := by
    unfold readNext
    simp only [hlink, if_pos hphase, hnext]
  obtain ⟨router', link', hhandled, hbecame⟩ := handle_effect (relay.count fun stats =>
    { stats with messagesReceived := stats.messagesReceived + 1 }) { link with decoder } message now
  rw [hread]
  exact ⟨decoder, link', hnext, hbecame.router ▸ hhandled, hbecame.links⟩

/-- The messages in the outboxes are those that were there before, apart from some that fit. -/
def Keeps (before after : Router) : Prop :=
  ∀ id, ∀ message ∈ after.queued id, message ∈ before.queued id ∨ message.Fits

theorem keeps_of_appends {before after : Router} (h : Appends Message.Fits before after) :
    Keeps before after := by
  intro id message hmessage
  obtain ⟨new, hnew, hfits⟩ := h id
  rw [hnew, List.mem_append] at hmessage
  exact hmessage.imp_right (hfits message)

theorem Keeps.trans {a b c : Router} (hab : Keeps a b) (hbc : Keeps b c) : Keeps a c := by
  intro id message hmessage
  rcases hbc id message hmessage with h | h
  · exact hab id message h
  · exact Or.inr h

theorem keeps_drain (router : Router) (id : MemberId) (limit : Option Nat) :
    Keeps router (router.drain id limit).2 := by
  intro other message hmessage
  obtain ⟨count, hcount⟩ := Router.queued_drain router id limit other
  rw [hcount] at hmessage
  exact Or.inl (List.mem_of_mem_drop hmessage)

theorem keeps_hangUp (router : Router) (id : MemberId) : Keeps router (router.hangUp id) := by
  intro other message hmessage
  rw [Router.queued_hangUp] at hmessage
  split at hmessage
  · cases hmessage
  · exact Or.inl hmessage

/-- A turn of a link keeps the outboxes free of messages that do not fit, if what it takes is
passable. -/
theorem keeps_turn {options : RelayOptions} {router router' : Router} {link link' : Link}
    {step : Step}
    (h : Turn options router link step router' link')
    (hpassable : ∀ now message, step = .readNext link.id now → link.phase = .reading →
      (∃ decoder, link.decoder.nextMessage = (.item message, decoder)) →
        ∀ member, link.session.member = some member → Passable router member message) :
    Keeps router router' := by
  have hstill : Keeps router router := keeps_of_appends (.refl router)
  have hleaves : ∀ member, Keeps router (routerWithout router member) :=
    fun member => keeps_of_appends (Router.appends_routerWithout router member)
  have hdrains : ∀ {member message rest}, router.drain member (some 1) = (some [message], rest) →
      Keeps router rest := by
    intro member message rest hdrain
    have hkeeps := keeps_drain router member (some 1)
    rw [hdrain] at hkeeps
    exact hkeeps
  cases h with
  | received data now hphase => exact hstill
  | waited decoder now hphase hnext => exact hstill
  | skipped fault decoder now hphase hnext hfault => exact hstill
  | failed fault decoder now hphase hnext hfault => exact hleaves _
  | handled message decoder now hphase hnext hhandled =>
      have hpayload := Decoder.payload_of_nextMessage hnext
      have hfits := (hhandled.forall_added hpayload).2
        (hpassable now message rfl hphase ⟨decoder, hnext⟩)
      intro id m hm
      obtain ⟨new, hnew, -⟩ := hhandled.appends id
      rw [hnew, List.mem_append] at hm
      refine hm.imp_right fun hm => hfits id m ?_
      rwa [Router.added_of_append hnew]
  | foundEnd broken hphase => exact hleaves _
  | forwarded member message now router' link' hphase hmember hdrain hwrite => exact hdrains hdrain
  | unwritten member message now router' hphase hmember hdrain hwrite =>
      exact (hdrains hdrain).trans (keeps_of_appends (Router.appends_leave _ _))
  | idled now hphase => exact hleaves _
  | heeded hphase hnotified => exact hleaves _
  | blocked => exact hstill

/-- A step keeps the outboxes free of messages that do not fit, if what a link takes is passable. -/
theorem keeps_perform (relay : Relay) (step : Step)
    (hpassable : ∀ id now link message, step = .readNext id now → Takes relay id link message →
      ∀ member, link.session.member = some member → Passable relay.router member message) :
    Keeps relay.router (relay.perform step).router := by
  have hstill : ∀ {router : Router}, router = relay.router → Keeps relay.router router := by
    intro router h
    rw [h]
    exact keeps_of_appends (.refl relay.router)
  cases perform_effect relay step with
  | still hrouter hlinks hnext => exact hstill hrouter
  | announced hrouter hlinks hnext => exact hstill hrouter
  | accepted name remote now hstep hrouter hlinks hnext => exact hstill hrouter
  | turn link link' hlink hturn hlinks hnext =>
      refine keeps_turn hturn fun now message hstep hphase hmessage member hmember => ?_
      exact hpassable link.id now link message hstep ⟨hlink, hphase, hmessage⟩ member hmember
  | hungUp member hstep hrouter hlinks hnext =>
      rw [hrouter]
      exact keeps_hangUp _ _
  | swept now hstep hrouter hlinks hnext =>
      rw [hrouter]
      exact keeps_of_appends (.of_queued_eq fun _ => rfl)

/-- A link that waits, and whose client takes what is written to it, ends with a message from its
outbox exactly if that message does not fit. -/
theorem ended_forward_iff {relay : Relay} {id : LinkId} {link : Link}
    (hlink : relay.link? id = some link)
    (hphase : link.phase = .waiting) (hwritable : link.isWritable = true) (now : Instant) :
    (∃ link', (relay.forward id now).link? id = some link' ∧ link'.phase = .ended) ↔
      ∃ member message router', link.session.member = some member ∧
        relay.router.drain member (some 1) = (some [message], router') ∧ ¬ message.Fits := by
  obtain rfl := id_of_link? hlink
  -- A link that waits, and of which nothing is taken, does not end.
  have hstays : relay.forward link.id now = relay →
      ¬ ∃ link', (relay.forward link.id now).link? link.id = some link' ∧ link'.phase = .ended := by
    rintro hforward ⟨link', hlink', hended⟩
    rw [hforward, hlink] at hlink'
    cases hlink'
    rw [hphase] at hended
    cases hended
  cases hmember : link.session.member with
  | none =>
      have hforward : relay.forward link.id now = relay := by
        unfold forward
        simp only [hlink, hphase, hmember]
      refine ⟨fun h => absurd h (hstays hforward), ?_⟩
      rintro ⟨member, message, router', hsome, -⟩
      cases hsome
  | some member =>
      -- Only a session that has joined has an outbox, and what is taken from it is its first
      -- message.
      by_cases hfront : ∃ message router',
          relay.router.drain member (some 1) = (some [message], router')
      · obtain ⟨message, router', hdrain⟩ := hfront
        have hforward : relay.forward link.id now =
            ({ relay with router := router' } : Relay).writeOrEnd (link.touch now) message := by
          unfold forward
          simp only [hlink, hphase, hmember, hdrain]
        by_cases hfits : message.Fits
        · have hwrite : (link.touch now).write message = some _ :=
            Link.write_of_fits hfits hwritable
          have hwritten : relay.forward link.id now =
              ({ relay with router := router' } : Relay).setLink
                { link.touch now with sent := link.sent ++ [message] } := by
            rw [hforward, writeOrEnd, hwrite]
            rfl
          constructor
          · rintro ⟨link', hlink', hended⟩
            rw [hwritten,
              link?_of_links { link.touch now with sent := link.sent ++ [message] } hlink
              rfl rfl] at hlink'
            cases hlink'
            have hwaiting : (link.touch now).phase = .waiting := hphase
            rw [hwaiting] at hended
            cases hended
          · rintro ⟨member', message', router'', hsome, hdrain', hnot⟩
            cases hsome
            rw [hdrain] at hdrain'
            cases hdrain'
            exact absurd hfits hnot
        · have hwrite : (link.touch now).write message = none := by
            cases h : (link.touch now).write message with
            | none => rfl
            | some link' => exact absurd (Link.write_eq_some.1 h).1 hfits
          have hended : relay.forward link.id now =
              ({ relay with router := router' } : Relay).endLink (link.touch now) true := by
            rw [hforward, writeOrEnd, hwrite]
          refine ⟨fun _ => ⟨member, message, router', rfl, hdrain, hfits⟩, fun _ => ?_⟩
          refine ⟨ended (link.touch now), ?_, rfl⟩
          rw [hended]
          exact link?_of_links _ hlink rfl (links_endLink _ _ _)
      · have hforward : relay.forward link.id now = relay := by
          unfold forward
          simp only [hlink, hphase, hmember]
          split
          · rename_i message router' hdrain
            exact absurd ⟨message, router', hdrain⟩ hfront
          · rfl
        refine ⟨fun h => absurd h (hstays hforward), ?_⟩
        rintro ⟨member', message, router', hsome, hdrain, -⟩
        cases hsome
        exact absurd ⟨message, router', hdrain⟩ hfront

/-- What is taken from an outbox has waited there. -/
theorem mem_queued_of_drain {router router' : Router} {member : MemberId} {message : Message}
    (h : router.drain member (some 1) = (some [message], router')) :
    message ∈ router.queued member := by
  unfold Router.drain at h
  unfold Router.queued
  split at h
  · cases h
  · rename_i outbox houtbox
    split at h
    · simp only [Option.getD_some, Prod.mk.injEq, Option.some.injEq] at h
      rw [houtbox]
      exact List.mem_of_mem_take (h.1 ▸ List.mem_singleton_self message)
    · cases h

/-! ## A whole run -/

section Run

variable {options : RelayOptions} {steps : List Step}

/-- The names under which sessions are welcomed fit into frames. -/
def Named (steps : List Step) : Prop :=
  ∀ name remote now, Step.accept name remote now ∈ steps → (Message.welcome name).Fits

theorem fits_name_stateAt (hnamed : Named steps) (i : Nat) :
    ∀ link ∈ (stateAt options steps i).links, (Message.welcome link.name).Fits := by
  induction i with
  | zero => intro link hlink; cases hlink
  | succ i ih =>
      intro link' hlink'
      cases hstep : steps[i]? with
      | none =>
          rw [stateAt_succ_of_none hstep] at hlink'
          exact ih link' hlink'
      | some step =>
          rw [stateAt_succ hstep] at hlink'
          rcases continues_of_mem_links hlink' with
            ⟨link, hlink, hcontinues⟩ | ⟨name, remote, now, rfl, hcontinues⟩
          · rw [hcontinues.name]
            exact ih link hlink
          · rw [hcontinues.name]
            exact hnamed name remote now (List.mem_of_getElem? hstep)

/-- In a run, all that links take from their sessions is passable where they take it. -/
def Smooth (options : RelayOptions) (steps : List Step) : Prop :=
  ∀ i id now link message, steps[i]? = some (.readNext id now) →
    Takes (stateAt options steps i) id link message →
      ∀ sender, link.session.member = some sender →
        Passable (stateAt options steps i).router sender message

theorem fits_queued_stateAt (hsmooth : Smooth options steps) (i : Nat) :
    ∀ member, ∀ message ∈ (stateAt options steps i).router.queued member, message.Fits := by
  induction i with
  | zero => intro member message hmessage; cases hmessage
  | succ i ih =>
      intro member message hmessage
      cases hstep : steps[i]? with
      | none =>
          rw [stateAt_succ_of_none hstep] at hmessage
          exact ih member message hmessage
      | some step =>
          rw [stateAt_succ hstep] at hmessage
          have hkeeps := keeps_perform (stateAt options steps i) step
            (fun id now link taken hread htakes sender hsender =>
              hsmooth i id now link taken (hread ▸ hstep) htakes sender hsender)
          exact (hkeeps member message hmessage).elim (ih member message) id

end Run

/-- Which messages of a relay can be written. What a link says itself on account of a message fits
into a frame. What the router makes of the message, and puts into outboxes, fits exactly if the
message is passable. A link whose client takes what is written to it ends with a message from its
outbox exactly if that message does not fit; so where all that links take is passable, none ever
does. -/
theorem writes_fit (options : RelayOptions) (steps : List Step) (hnamed : Named steps) :
    (∀ i id now link message, steps[i]? = some (.readNext id now) →
      Takes (stateAt options steps i) id link message →
        (∀ reply, ownReply? link message = some reply → reply.Fits) ∧
        (link.isWritable = true → ∃ link', (stateAt options steps (i + 1)).link? id = some link' ∧
          link'.sent = link.sent ++ (ownReply? link message).toList) ∧
        ((∀ member, ∀ put ∈ added (stateAt options steps i).router
            (stateAt options steps (i + 1)).router member, put.Fits) ↔
          ∀ sender, link.session.member = some sender →
            Passable (stateAt options steps i).router sender message)) ∧
    (∀ i id now link, (stateAt options steps i).link? id = some link → link.phase = .waiting →
      link.isWritable = true →
        ((∃ link', ((stateAt options steps i).forward id now).link? id = some link' ∧
            link'.phase = .ended) ↔
          ∃ member message router', link.session.member = some member ∧
            (stateAt options steps i).router.drain member (some 1) = (some [message], router') ∧
              ¬ message.Fits)) ∧
    (Smooth options steps →
      (∀ i member, ∀ message ∈ (stateAt options steps i).router.queued member, message.Fits) ∧
      ∀ i id now link, (stateAt options steps i).link? id = some link → link.phase = .waiting →
        link.isWritable = true →
          ¬ ∃ link', ((stateAt options steps i).forward id now).link? id = some link' ∧
            link'.phase = .ended) := by
  refine ⟨?_, ?_, ?_⟩
  · intro i id now link message hstep htakes
    have hname := fits_name_stateAt hnamed i link (mem_of_link? htakes.1)
    obtain ⟨decoder, link', -, hhandled, hlinks⟩ := htakes.handled now
    have hafter : stateAt options steps (i + 1) = (stateAt options steps i).readNext id now :=
      stateAt_succ hstep
    have hpayload : message.payload.size ≤ maxPayloadSize := by
      obtain ⟨-, -, decoder, hnext⟩ := htakes
      exact Decoder.payload_of_nextMessage hnext
    rw [hafter]
    refine ⟨fun reply => fits_ownReply hname, fun hwritable => ⟨link', ?_, ?_⟩,
      hhandled.forall_added hpayload⟩
    · obtain rfl : link.id = id := id_of_link? htakes.1
      exact link?_of_links link' htakes.1 hhandled.continues.id hlinks
    · exact hhandled.sent_eq hname hwritable
  · intro i id now link hlink hphase hwritable
    exact ended_forward_iff hlink hphase hwritable now
  · intro hsmooth
    have hqueued := fun i => fits_queued_stateAt hsmooth i
    refine ⟨hqueued, fun i id now link hlink hphase hwritable hended => ?_⟩
    -- A link that ended would have had a message in its outbox that does not fit.
    obtain ⟨member, message, router', hmember, hdrain, hnot⟩ :=
      (ended_forward_iff hlink hphase hwritable now).1 hended
    exact hnot (hqueued i member message (mem_queued_of_drain hdrain))

/-! ## A request to a cluster without members -/

/-- A request to a cluster. -/
def requestTo (cluster : String) : Message := .request ⟨7⟩ cluster 1000 ByteArray.empty

/-- A run of one link that takes two messages off what it receives. -/
def twoMessages (data : ByteArray) : List Step :=
  [.start, .accept "conn-1" (.v4 .loopback 0) 0, .receive 0 data 0, .readNext 0 0, .readNext 0 0]

/-- A run in which a session joins a cluster of its own and makes a request to another. -/
def requestRun (cluster : String) : List Step :=
  twoMessages ((Message.hello "clients" none).bytes ++ (requestTo cluster).bytes)

/-- The link of such a run, behind what it has received. -/
def receivingLink (data : ByteArray) : Link :=
  { Link.new 0 "conn-1" (.v4 .loopback 0) 0 with
    phase := .reading
    decoder := ⟨ByteArray.empty ++ data⟩ }

theorem stateAt_twoMessages (data : ByteArray) :
    (stateAt {} (twoMessages data) 3).links = [receivingLink data] ∧
      (stateAt {} (twoMessages data) 3).router = .new ∧
      (stateAt {} (twoMessages data) 3).options = {} ∧
      stateAt {} (twoMessages data) 4 = (stateAt {} (twoMessages data) 3).readNext 0 0 :=
  ⟨rfl, rfl, rfl, rfl⟩

/-- The session has not joined before its first message. -/
theorem takes_hello (cluster : String) :
    ∃ link, Takes (stateAt {} (requestRun cluster) 3) 0 link (.hello "clients" none) ∧
      link = receivingLink ((Message.hello "clients" none).bytes ++ (requestTo cluster).bytes) ∧
      link.decoder.nextMessage = (.item (.hello "clients" none), ⟨(requestTo cluster).bytes⟩) := by
  have hhello : (Message.hello "clients" none).Fits := by decide
  have hlinks := (stateAt_twoMessages
    ((Message.hello "clients" none).bytes ++ (requestTo cluster).bytes)).1
  generalize hlink :
    receivingLink ((Message.hello "clients" none).bytes ++ (requestTo cluster).bytes) = link
      at hlinks
  have hnext : link.decoder.nextMessage =
      (.item (.hello "clients" none), ⟨(requestTo cluster).bytes⟩) := by
    rw [← hlink, receivingLink, ByteArray.empty_append]
    unfold Decoder.nextMessage
    rw [Message.decode_bytes hhello]
    rfl
  have hfound : (stateAt {} (requestRun cluster) 3).link? 0 = some link := by
    unfold link? requestRun
    rw [hlinks, ← hlink]
    rfl
  exact ⟨link, ⟨hfound, by rw [← hlink]; rfl, _, hnext⟩, rfl, hnext⟩

/-- Behind the first of its messages, the session has joined and is about to make the request. -/
theorem takes_requestTo {cluster : String} (hfits : (requestTo cluster).Fits) :
    ∃ link, Takes (stateAt {} (requestRun cluster) 4) 0 link (requestTo cluster) ∧
      link.session.member = some 1 ∧
      (stateAt {} (requestRun cluster) 4).router = (Router.new.join "clients" 1024).2 := by
  have hwelcome : (Message.welcome "conn-1").Fits := by decide
  obtain ⟨hlinks3, hrouter3, hoptions3, hafter⟩ :=
    stateAt_twoMessages ((Message.hello "clients" none).bytes ++ (requestTo cluster).bytes)
  obtain ⟨link, htakes, hlink, hfirst⟩ := takes_hello cluster
  rw [← hlink] at hlinks3
  obtain ⟨decoder, link', hnext, hhandled, hlinks⟩ := htakes.handled 0
  rw [hfirst] at hnext
  cases hnext
  unfold requestRun at hhandled hlinks
  rw [← hafter, hrouter3, hoptions3] at hhandled
  rw [← hafter, hlinks3] at hlinks
  have hmember : link.session.member = none := by rw [hlink]; rfl
  have hwrite : ∀ session, Link.write { link with decoder := ⟨(requestTo cluster).bytes⟩, session }
      (.welcome link.name) = some { link with
        decoder := ⟨(requestTo cluster).bytes⟩
        session
        sent := link.sent ++ [.welcome link.name] } := by
    intro session
    refine Link.write_of_fits ?_ ?_
    · rw [hlink]
      exact hwelcome
    · rw [hlink]
      rfl
  have hsecond : Decoder.nextMessage ⟨(requestTo cluster).bytes⟩ =
      (.item (requestTo cluster), ⟨ByteArray.empty⟩) := by
    have hdecode := Message.decode_bytes hfits ByteArray.empty
    rw [ByteArray.append_empty] at hdecode
    unfold Decoder.nextMessage
    rw [hdecode]
    rfl
  unfold requestRun
  -- Of all that may happen to a message, only the welcome is possible for this hello.
  generalize (stateAt {} (twoMessages _) 4).router = router at hhandled ⊢
  cases hhandled with
  | welcomed version cluster clientName link' _ hmessage hopening hwritten =>
      cases hmessage
      rw [hwrite, Option.some.injEq] at hwritten
      have hqueue : ({} : RelayOptions).outboundQueue = 1024 := rfl
      refine ⟨link', ⟨?_, ?_, ⟨ByteArray.empty⟩, ?_⟩, ?_, by rw [hqueue]⟩
      · unfold link?
        rw [hlinks, ← hwritten, hlink]
        rfl
      · rw [← hwritten, hlink]
        rfl
      · rw [← hwritten]
        exact hsecond
      · rw [← hwritten]
        rfl
  | closed reason hmessage => cases hmessage
  | unwelcomed version cluster clientName session _ hmessage hopening hsession hwritten =>
      rw [hwrite] at hwritten
      cases hwritten
  | refused error _ hopening hmessage =>
      have haccepted : openingFault? (.hello "clients" none) = none := by decide
      rw [haccepted] at hopening
      cases hopening
  | request member id cluster timeoutMs hsome hmessage => cases hmessage
  | answer member hsome hmessage => cases hmessage
  | misplaced member link' hsome hmessage hwritten =>
      rw [hmember] at hsome
      cases hsome
  | unheard member hsome hmessage hwritten =>
      rw [hmember] at hsome
      cases hsome

/-- Then the router deals with the request. -/
theorem router_requestRun {cluster : String} (hfits : (requestTo cluster).Fits) :
    (stateAt {} (requestRun cluster) 5).router =
      (Router.new.join "clients" 1024).2.routeRequest 1 ⟨7⟩ cluster (timeoutOfWire 1000)
        ByteArray.empty 0 := by
  have hstep : (requestRun cluster)[4]? = some (.readNext 0 0) := rfl
  have hafter : stateAt {} (requestRun cluster) 5 =
      perform (stateAt {} (requestRun cluster) 4) (.readNext 0 0) := stateAt_succ hstep
  obtain ⟨link, htakes, hmember, hrouter⟩ := takes_requestTo hfits
  obtain ⟨decoder, link', hnext, hhandled, hlinks⟩ := htakes.handled 0
  rw [hrouter] at hhandled
  rw [hafter, perform]
  generalize ((stateAt {} (requestRun cluster) 4).readNext 0 0).router = router at hhandled ⊢
  cases hhandled with
  | request member id cluster timeoutMs hsome hmessage =>
      cases hmessage
      cases hmember.symm.trans hsome
      rfl
  | closed reason hmessage => cases hmessage
  | welcomed version cluster clientName link' hnone hmessage hopening hwritten => cases hmessage
  | unwelcomed version cluster clientName session hnone hmessage hopening hsession hwritten =>
      cases hmessage
  | refused error hnone hopening hmessage => cases hmember.symm.trans hnone
  | answer member hsome hmessage => cases hmessage
  | misplaced member link' hsome hmessage hwritten => rcases hmessage with h | h <;> cases h
  | unheard member hsome hmessage hwritten => rcases hmessage with h | h <;> cases h

theorem turn?_join_of_ne {cluster : String} (hne : ¬ "clients" = cluster) :
    (Router.new.join "clients" 1024).2.turn? cluster = none := by
  have hroster : (Router.new.join "clients" 1024).2.roster? cluster = none := by
    show [({ cluster := "clients", ids := [1] } : Roster)].find? _ = none
    rw [List.find?_cons, decide_eq_false hne]
    rfl
  rw [Router.turn?, hroster]
  rfl

theorem fits_requestTo_iff (cluster : String) :
    (requestTo cluster).Fits ↔ 54 + quotedSize cluster ≤ maxHeaderSize := by
  have hid : digitCount (7 : UInt64).toNat = 1 := by decide
  have htimeout : digitCount (1000 : UInt64).toNat = 4 := by decide
  rw [requestTo, Message.fits_request_iff (Nat.zero_le _), hid, htimeout]
  have hsum : 49 + 1 + quotedSize cluster + 4 = 54 + quotedSize cluster := by omega
  rw [hsum]

/-- Whether the request is passable depends on the error that names its cluster. -/
theorem passable_requestTo_iff {cluster : String} (hne : ¬ "clients" = cluster) :
    Passable (Router.new.join "clients" 1024).2 1 (requestTo cluster) ↔
      92 + quotedSize cluster ≤ maxHeaderSize := by
  have hdigit : digitCount (7 : UInt64).toNat = 1 := by decide
  have hroom : 0 < (Router.new.join "clients" 1024).2.room 1 := by decide
  have hrequest : ∀ timeout, (Router.new.join "clients" 1024).2.RequestFits 1 ⟨7⟩ cluster timeout ↔
      92 + quotedSize cluster ≤ maxHeaderSize := by
    intro timeout
    rw [Router.RequestFits, turn?_join_of_ne hne, hdigit]
    exact forall_prop_of_true hroom
  constructor
  · intro hpassable
    exact (hrequest _).1 (hpassable.1 ⟨7⟩ cluster 1000 rfl)
  · intro hsize
    refine ⟨?_, ?_⟩
    · rintro id cluster timeoutMs hmessage
      cases hmessage
      exact (hrequest _).2 hsize
    · rintro id error route hmessage
      cases hmessage

/-- A message that is not passable makes the relay put one into an outbox that fits into no
frame. -/
theorem Takes.exists_overflow {relay : Relay} {id : LinkId} {link : Link} {message : Message}
    {sender : MemberId} (htakes : relay.Takes id link message)
    (hsender : link.session.member = some sender)
    (hnot : ¬ Passable relay.router sender message) (now : Instant) :
    ∃ (member : MemberId) (put : Message) (fault : ProtocolError),
      put ∈ added relay.router (perform relay (.readNext id now)).router member ∧
        put.encode = .error fault := by
  obtain ⟨decoder, link', hnext, hhandled, -⟩ := htakes.handled now
  have hpayload := Decoder.payload_of_nextMessage hnext
  by_contra hnone
  refine hnot ((hhandled.forall_added hpayload).1 ?_ sender hsender)
  intro member put hput
  by_contra hfits
  obtain ⟨fault, hfault⟩ := Message.encode_of_not_fits hfits
  exact hnone ⟨member, put, fault, hput, hfault⟩

/-- The name of a cluster without members may fit into a request and not into the error that names
it. -/
theorem overflows_of_quotedSize {cluster : String} (hfits : 54 + quotedSize cluster ≤ maxHeaderSize)
    (hlong : maxHeaderSize < 92 + quotedSize cluster) :
    ∃ (link : Link) (member : MemberId) (put : Message) (fault : ProtocolError),
      Takes (stateAt {} (requestRun cluster) 4) 0 link (requestTo cluster) ∧
        (requestRun cluster)[4]? = some (.readNext 0 0) ∧
        (∃ bytes, (requestTo cluster).encode = .ok bytes) ∧
        put ∈ added (stateAt {} (requestRun cluster) 4).router
          (stateAt {} (requestRun cluster) 5).router member ∧
        put.encode = .error fault := by
  have hrequest : (requestTo cluster).Fits := (fits_requestTo_iff cluster).2 hfits
  have hne : ¬ "clients" = cluster := by
    rintro rfl
    exact absurd hlong (by decide)
  have hstep : (requestRun cluster)[4]? = some (.readNext 0 0) := rfl
  have hafter : stateAt {} (requestRun cluster) 5 =
      perform (stateAt {} (requestRun cluster) 4) (.readNext 0 0) := stateAt_succ hstep
  obtain ⟨link, htakes, hmember, hrouter⟩ := takes_requestTo hrequest
  rw [hafter]
  generalize stateAt {} (requestRun cluster) 4 = relay at htakes hrouter ⊢
  have hnot : ¬ Passable relay.router 1 (requestTo cluster) := by
    intro hpassable
    rw [hrouter, passable_requestTo_iff hne] at hpassable
    omega
  obtain ⟨member, put, fault, hput, hfault⟩ := htakes.exists_overflow hmember hnot 0
  exact ⟨link, member, put, fault, htakes, hstep, ⟨_, Message.encode_of_fits hrequest⟩, hput,
    hfault⟩

/-- A cluster whose name nearly fills a frame. -/
def longCluster : String := String.ofList (List.replicate 65460 'x')

theorem quotedSize_longCluster : quotedSize longCluster = 65462 :=
  Json.quotedSize_replicate (by decide) (by decide) 65460

/-- A request that fits into a frame makes the relay put an error that fits into none into the
outbox of the session. -/
theorem noMembers_overflows :
    ∃ (link : Link) (member : MemberId) (put : Message) (fault : ProtocolError),
      Takes (stateAt {} (requestRun longCluster) 4) 0 link (requestTo longCluster) ∧
        (requestRun longCluster)[4]? = some (.readNext 0 0) ∧
        (∃ bytes, (requestTo longCluster).encode = .ok bytes) ∧
        put ∈ added (stateAt {} (requestRun longCluster) 4).router
          (stateAt {} (requestRun longCluster) 5).router member ∧
        put.encode = .error fault :=
  overflows_of_quotedSize (by rw [quotedSize_longCluster]; decide)
    (by rw [quotedSize_longCluster]; decide)

theorem named_requestRun (cluster : String) : Named (requestRun cluster) := by
  intro name remote now hstep
  have hname : name = "conn-1" := by
    simp only [requestRun, twoMessages, List.mem_cons, List.not_mem_nil, or_false, reduceCtorEq,
      false_or, Step.accept.injEq] at hstep
    exact hstep.1
  rw [hname]
  decide

/-- A link takes one message at a time. -/
theorem Takes.unique {relay : Relay} {id : LinkId} {link link' : Link} {message message' : Message}
    (h : Takes relay id link message) (h' : Takes relay id link' message') :
    link' = link ∧ message' = message := by
  obtain ⟨hlink, -, decoder, hnext⟩ := h
  obtain ⟨hlink', -, decoder', hnext'⟩ := h'
  obtain rfl : link' = link := Option.some.inj (hlink'.symm.trans hlink)
  cases hnext'.symm.trans hnext
  exact ⟨rfl, rfl⟩

/-- Nothing else in the run would have to be passable. -/
theorem smooth_requestRun {cluster : String} (hfits : (requestTo cluster).Fits)
    (hpassable : Passable (Router.new.join "clients" 1024).2 1 (requestTo cluster)) :
    Smooth {} (requestRun cluster) := by
  intro i id now link message hstep htakes sender hsender
  have hread : id = 0 ∧ (i = 3 ∨ i = 4) := by
    rcases i with _ | _ | _ | _ | _ | i <;>
      simp [requestRun, twoMessages] at hstep <;> simp [hstep]
  obtain ⟨rfl, rfl | rfl⟩ := hread
  · -- The hello comes from a session that has not joined.
    obtain ⟨link', htakes', hlink', -⟩ := takes_hello cluster
    obtain ⟨rfl, -⟩ := htakes'.unique htakes
    rw [hlink'] at hsender
    cases hsender
  · obtain ⟨link', htakes', hmember, hrouter⟩ := takes_requestTo hfits
    obtain ⟨rfl, rfl⟩ := htakes'.unique htakes
    cases hmember.symm.trans hsender
    rw [hrouter]
    exact hpassable

/-- In this run the session is welcomed, and the error that answers its request fits into a
frame. -/
theorem writes_fit_of_requestRun :
    Named (requestRun "void") ∧ Smooth {} (requestRun "void") ∧
      (∃ link link', Takes (stateAt {} (requestRun "void") 3) 0 link (.hello "clients" none) ∧
        (stateAt {} (requestRun "void") 4).link? 0 = some link' ∧
          link'.sent = [.welcome "conn-1"]) ∧
      (∃ link, Takes (stateAt {} (requestRun "void") 4) 0 link (requestTo "void")) ∧
      (stateAt {} (requestRun "void") 5).router.queued 1 =
        [.errorReply ⟨7⟩ .noMembers "no members in cluster void"] ∧
      (∀ member, ∀ put ∈ added (stateAt {} (requestRun "void") 4).router
        (stateAt {} (requestRun "void") 5).router member, put.Fits) ∧
      ∀ i member, ∀ message ∈ (stateAt {} (requestRun "void") i).router.queued member,
        message.Fits := by
  have hnamed := named_requestRun "void"
  have hfits : (requestTo "void").Fits := by decide
  have hpassable : Passable (Router.new.join "clients" 1024).2 1 (requestTo "void") :=
    (passable_requestTo_iff (by decide)).2 (by decide)
  obtain ⟨htaken, -, hsmooth⟩ := writes_fit {} (requestRun "void") hnamed
  obtain ⟨link, htakes, hlink, -⟩ := takes_hello "void"
  obtain ⟨link', hlink', hsent⟩ := (htaken 3 0 0 link _ rfl htakes).2.1 (by rw [hlink]; rfl)
  obtain ⟨asking, hasks, hmember, hrouter⟩ := takes_requestTo hfits
  have hrun := smooth_requestRun hfits hpassable
  refine ⟨hnamed, hrun, ⟨link, link', htakes, hlink', ?_⟩, ⟨asking, hasks⟩, ?_, ?_,
    (hsmooth hrun).1⟩
  · rw [hsent, hlink]
    rfl
  · rw [router_requestRun hfits]
    decide
  · apply (htaken 4 0 0 asking _ rfl hasks).2.2.2
    intro sender hsender
    cases hmember.symm.trans hsender
    rw [hrouter]
    exact hpassable

end Relay

end Switchboard
