import Switchboard.Proofs.Relay.Run
import Switchboard.Proofs.Router.Passage

/-!
# The course of a turn

When it is the turn of a link, one of four things happens to the requests and replies that a relay
handles: nothing is told to anybody, the session joins a cluster, a request comes to the member
whose turn it is, or a reply comes back to whoever asked (`Course`, `course_of_turn`). What waits
for a link and what has been written on it go on in step: nothing that is told is lost sight of, and
nothing comes to it but the news (`Flow`).
-/

namespace Switchboard

namespace Router

/-- The messages that wait for a session, which may have joined as a member. -/
def queuedFor (router : Router) (member : Option MemberId) : List Message :=
  (member.map router.queued).getD []

/-- The first message of an outbox is taken from the front. -/
theorem queued_of_drain {router router' : Router} {member : MemberId} {message : Message}
    (h : router.drain member (some 1) = (some [message], router')) :
    router.queued member = message :: router'.queued member := by
  unfold drain at h
  cases houtbox : router.outbox? member with
  | none =>
      rw [houtbox] at h
      cases h
  | some outbox =>
      simp only [houtbox, Option.getD_some] at h
      by_cases hread : outbox.isRead = true
      · rw [if_pos hread, Prod.mk.injEq, Option.some.injEq] at h
        obtain ⟨hfront, rfl⟩ := h
        have hkey : outbox.member = member := member_of_outbox? houtbox
        have hrest := queued_setOutbox (outbox.drop 1) hkey houtbox member
        rw [if_pos rfl] at hrest
        have hall : router.queued member = outbox.queued := by
          unfold queued
          rw [houtbox]
          rfl
        rw [hrest, hall]
        show outbox.queued = message :: outbox.queued.drop 1
        rw [← List.singleton_append, ← hfront, List.take_append_drop]
      · rw [if_neg hread] at h
        cases h

end Router

namespace Relay

open Router (Passes Quiet)

theorem quiet_routerWithout (router : Router) (member : Option MemberId) :
    Quiet router (routerWithout router member) := by
  cases member with
  | none => exact .refl router
  | some id => exact router.quiet_leave id

/-! ## Links on which nothing is told -/

/-- A link on which messages have been written that tell of nothing. The session is the one that it
was. -/
structure Murmurs (link link' : Link) : Prop where
  id : link'.id = link.id
  member : link'.session.member = link.session.member
  cluster : link'.session.cluster = link.session.cluster
  sent : ∃ written, link'.sent = link.sent ++ written ∧
    ∀ message ∈ written, message.Fits ∧ message.isTelling = false

namespace Murmurs

theorem of_sent {link link' : Link} (hid : link'.id = link.id)
    (hmember : link'.session.member = link.session.member)
    (hcluster : link'.session.cluster = link.session.cluster) (hsent : link'.sent = link.sent) :
    Murmurs link link' :=
  ⟨hid, hmember, hcluster, [], by rw [hsent, List.append_nil], fun _ h => (nomatch h)⟩

theorem trans {a b c : Link} (hab : Murmurs a b) (hbc : Murmurs b c) : Murmurs a c := by
  obtain ⟨first, hfirst, hplain⟩ := hab.sent
  obtain ⟨second, hsecond, hplain'⟩ := hbc.sent
  refine ⟨hbc.id.trans hab.id, hbc.member.trans hab.member, hbc.cluster.trans hab.cluster,
    first ++ second, ?_, ?_⟩
  · rw [hsecond, hfirst, List.append_assoc]
  · intro message hmessage
    rcases List.mem_append.1 hmessage with h | h
    · exact hplain message h
    · exact hplain' message h

theorem append (link : Link) {message : Message} (hfits : message.Fits)
    (hplain : message.isTelling = false) :
    Murmurs link { link with sent := link.sent ++ [message] } := by
  refine ⟨rfl, rfl, rfl, [message], rfl, ?_⟩
  intro other hother
  rw [List.mem_singleton.1 hother]
  exact ⟨hfits, hplain⟩

theorem of_write {link link' : Link} {message : Message} (h : link.write message = some link')
    (hplain : message.isTelling = false) : Murmurs link link' := by
  obtain ⟨hfits, -, rfl⟩ := Link.write_eq_some.1 h
  exact append link hfits hplain

theorem of_tryWrite (link : Link) {message : Message} (hplain : message.isTelling = false) :
    Murmurs link (link.tryWrite message) := by
  rcases Link.tryWrite_eq link message with h | ⟨hfits, h⟩
  · rw [h]
    exact of_sent rfl rfl rfl rfl
  · rw [h]
    exact append link hfits hplain

theorem of_ended (link : Link) : Murmurs link (ended link) := of_sent rfl rfl rfl rfl

end Murmurs

/-! ## What waits for a link and what has been written on it -/

/-- What becomes of a link and of what waits for its session: what has been written since, with what
still waits, has waited before or is news. -/
structure Flow (news : MemberId → List Message) (router router' : Router) (link link' : Link) :
    Prop where
  id : link'.id = link.id
  member : ∀ member, link.session.member = some member → link'.session.member = some member
  sent : ∃ written, link'.sent = link.sent ++ written ∧ (∀ message ∈ written, message.Fits) ∧
    (telling (written ++ router'.queuedFor link'.session.member)).Sublist
      (telling (router.queuedFor link.session.member) ++ (link.session.member.map news).getD [])

/-- Where nothing is told on a link itself, what waits for its session is as it was, but for the
news. -/
theorem flow_of_murmurs {news : MemberId → List Message} {router router' : Router}
    {link link' : Link}
    (hqueued : ∀ id, (telling (router'.queued id)).Sublist (telling (router.queued id) ++ news id))
    (hmurmurs : Murmurs link link') : Flow news router router' link link' := by
  obtain ⟨written, hsent, hplain⟩ := hmurmurs.sent
  refine ⟨hmurmurs.id, fun member h => hmurmurs.member.trans h, written, hsent,
    fun message hmessage => (hplain message hmessage).1, ?_⟩
  have hnone : telling written = [] := telling_eq_nil fun message hmessage =>
    (hplain message hmessage).2
  rw [telling_append, hnone, List.nil_append, hmurmurs.member]
  cases link.session.member with
  | none => exact List.Sublist.refl _
  | some member => exact hqueued member

/-- What a turn of a link does to the requests and replies that a relay handles. -/
inductive Course (options : RelayOptions) (router : Router) (link : Link) (step : Step) :
    Router → Link → Prop
  /-- Nothing is told to anybody. -/
  | quiet {router' : Router} {link' : Link} (hquiet : Quiet router router')
      (hmember : link'.session.member = link.session.member)
      (hcluster : link'.session.cluster = link.session.cluster)
      (hflow : Flow (fun _ => []) router router' link link')
      (hnext : router'.nextRoute = router.nextRoute ∨ router'.nextRoute = router.nextRoute + 1) :
      Course options router link step router' link'
  /-- The session joins a cluster. It may end at once. -/
  | joined {router' : Router} {link' : Link} (cluster : String) (clientName : Option String)
      (hnone : link.session.member = none)
      (hquiet : Quiet (router.join cluster options.outboundQueue).2 router')
      (hmurmurs : Murmurs
        { link with
          session := link.session.completeHandshake cluster clientName router.nextMember } link')
      (hnext : router'.nextRoute = router.nextRoute) :
      Course options router link step router' link'
  /-- A request comes to the member whose turn it is. -/
  | routed {router' : Router} {link' : Link} (message : Message) (id : RequestId) (cluster : String)
      (timeoutMs : UInt64) (origin target : MemberId) (now : Instant)
      (hstep : step = .readNext link.id now) (hdecoder : link'.decoder = link.decoder.nextMessage.2)
      (htaken : link.decoder.nextMessage.1 = .item message)
      (hmessage : message.envelope = .request id cluster timeoutMs)
      (hmember : link.session.member = some origin) (hcluster : router.InCluster target cluster)
      (hpasses : Passes
        (fun member => if member = target then
          [.request ⟨router.nextRoute⟩ cluster (timeoutOfWire timeoutMs).wireMillis message.payload]
            else [])
        [router.routeFor origin id target (timeoutOfWire timeoutMs) now] router router')
      (hroutes : router'.routes =
        router.routes ++ [router.routeFor origin id target (timeoutOfWire timeoutMs) now])
      (hnext : router'.nextRoute = router.nextRoute + 1) (hmurmurs : Murmurs link link') :
      Course options router link step router' link'
  /-- An answer comes back to whoever asked. -/
  | told {router' : Router} {link' : Link} (message : Message) (member : MemberId) (route : Route)
      (htaken : link.decoder.nextMessage.1 = .item message)
      (hmember : link.session.member = some member) (hroute : route ∈ router.routes)
      (hquoted : message.envelope.requestId? = some route.id) (htarget : route.target = member)
      (hpasses : Passes
        (fun member => if member = route.origin then
          telling (Router.answerTo route.originId message).toList else [])
        [] router router')
      (hnext : router'.nextRoute = router.nextRoute) (hmurmurs : Murmurs link link') :
      Course options router link step router' link'

namespace Course

variable {options : RelayOptions} {router router' : Router} {link link' : Link} {step : Step}

/-- A turn in which nothing is told, neither by the router nor on the link. -/
theorem of_murmurs (hquiet : Quiet router router') (hnext : router'.nextRoute = router.nextRoute)
    (hmurmurs : Murmurs link link') : Course options router link step router' link' :=
  .quiet hquiet hmurmurs.member hmurmurs.cluster (flow_of_murmurs hquiet.queued hmurmurs)
    (Or.inl hnext)

/-- The session of a link leaves, if it had joined. -/
theorem of_leave (hmurmurs : Murmurs link link') :
    Course options router link step (routerWithout router link.session.member) link' := by
  refine of_murmurs (quiet_routerWithout router _) ?_ hmurmurs
  cases link.session.member with
  | none => rfl
  | some member => exact router.nextRoute_leave member

end Course

section Turn

variable {options : RelayOptions} {router router' : Router} {link link' : Link} {step : Step}

/-- What a message does that a link has taken off. -/
theorem course_of_handled {message : Message} {decoder : Decoder} {now : Instant}
    (hstep : step = .readNext link.id now)
    (htaken : link.decoder.nextMessage = (.item message, decoder))
    (h : Handled options router { link with decoder } message now router' link')
    (hfresh : router'.nextRoute = router.nextRoute + 1 →
      ∀ route ∈ router.routes, route.id ≠ ⟨router.nextRoute⟩) :
    Course options router link step router' link' := by
  have hitem : link.decoder.nextMessage.1 = .item message := congrArg Prod.fst htaken
  have hbehind : decoder = link.decoder.nextMessage.2 := (congrArg Prod.snd htaken).symm
  have hsame : ∀ session : Session, session.member = link.session.member →
      session.cluster = link.session.cluster → Murmurs link { link with decoder, session } :=
    fun _ hmember hcluster => .of_sent rfl hmember hcluster rfl
  have hjoined : ∀ session : Session,
      Murmurs { link with session } { link with decoder, session } :=
    fun _ => .of_sent rfl rfl rfl rfl
  cases h with
  | closed reason hmessage => exact .of_leave (.of_sent rfl rfl rfl rfl)
  | welcomed version cluster clientName link' hmember hmessage hopening hwrite =>
      exact .joined cluster clientName hmember (.refl _)
        ((hjoined _).trans (.of_write hwrite rfl)) rfl
  | unwelcomed version cluster clientName session hmember hmessage hopening hsession hwrite =>
      subst hsession
      -- The welcome cannot be written, so the session leaves again at once.
      exact .joined cluster clientName hmember (Router.quiet_leave _ _)
        ((hjoined _).trans (.of_ended _)) (Router.nextRoute_leave _ _)
  | refused error hmember hopening hmessage =>
      exact .of_murmurs (.refl router) rfl
        (((hsame _ rfl rfl).trans (.of_tryWrite _ rfl)).trans (.of_ended _))
  | request member id cluster timeoutMs hmember hmessage =>
      have hmurmurs : Murmurs link { link with decoder, session := link.session.recordRequest } :=
        hsame _ rfl rfl
      cases router.routeRequest_passes member id cluster (timeoutOfWire timeoutMs) message.payload
        now hfresh with
      | refused hquiet hnext =>
          exact .quiet hquiet rfl rfl (flow_of_murmurs hquiet.queued hmurmurs) hnext
      | routed target hcluster hpasses hroutes hnext =>
          exact .routed message id cluster timeoutMs member target now hstep hbehind hitem hmessage
            hmember
            hcluster hpasses hroutes hnext hmurmurs
  | answer member hmember hmessage =>
      have hnext := router.nextRoute_routeReply member message
      rcases router.routeReply_passes member message with
        hquiet | ⟨route, hroute, hquoted, htarget, hpasses⟩
      · exact .of_murmurs hquiet hnext (hsame _ rfl rfl)
      · exact .told message member route hitem hmember hroute hquoted htarget hpasses hnext
          (hsame _ rfl rfl)
  | misplaced member link' hmember hmessage hwrite =>
      exact .of_murmurs (.refl router) rfl ((hsame _ rfl rfl).trans (.of_write hwrite rfl))
  | unheard member hmember hmessage hwrite =>
      exact .of_murmurs (router.quiet_leave member) (router.nextRoute_leave member)
        ((hsame _ rfl rfl).trans (.of_ended _))

/-- A message of an outbox is written, or it is lost with the link. Nothing else of what waits is
touched. -/
theorem course_of_forward {member : MemberId} {message : Message} {now : Instant} {next : Router}
    (hmember : link.session.member = some member)
    (hdrain : router.drain member (some 1) = (some [message], next))
    (hwrite : (link.touch now).write message = some link') :
    Course options router link step next link' := by
  obtain ⟨hfits, -, rfl⟩ := Link.write_eq_some.1 hwrite
  have hnext : next = (router.drain member (some 1)).2 := by rw [hdrain]
  have hquiet : Quiet router next := hnext ▸ router.quiet_drain member (some 1)
  have hroute : next.nextRoute = router.nextRoute :=
    hnext ▸ (Router.sameRegistry_drain router member (some 1)).nextRoute
  refine .quiet hquiet rfl rfl ⟨rfl, fun _ h => h, [message], rfl, ?_, ?_⟩ (Or.inl hroute)
  · intro other hother
    rw [List.mem_singleton.1 hother]
    exact hfits
  · show (telling ([message] ++ next.queuedFor link.session.member)).Sublist _
    rw [hmember]
    show (telling (message :: next.queued member)).Sublist (telling (router.queued member) ++ [])
    rw [Router.queued_of_drain hdrain, List.append_nil]

/-- Every turn has one of the courses listed, if the number of a route that it opens is not in
use. -/
theorem course_of_turn (h : Turn options router link step router' link')
    (hfresh : router'.nextRoute = router.nextRoute + 1 →
      ∀ route ∈ router.routes, route.id ≠ ⟨router.nextRoute⟩) :
    Course options router link step router' link' := by
  have hsame : ∀ phase decoder lastActive isWritable,
      Murmurs link { link with phase, decoder, lastActive, isWritable } :=
    fun _ _ _ _ => .of_sent rfl rfl rfl rfl
  cases h with
  | received data now hphase => exact .of_murmurs (.refl router) rfl (hsame _ _ _ _)
  | waited decoder now hphase hnext =>
      exact .of_murmurs (.refl router) rfl (hsame _ decoder _ _)
  | skipped fault decoder now hphase hnext hfault =>
      exact .of_murmurs (.refl router) rfl (hsame _ decoder _ _)
  | failed fault decoder now hphase hnext hfault =>
      exact .of_leave ((hsame _ decoder _ _).trans (.of_ended _))
  | handled message decoder now hphase hnext hhandled =>
      exact course_of_handled rfl hnext hhandled hfresh
  | foundEnd broken hphase => exact .of_leave (.of_ended link)
  | forwarded member message now router' link' hphase hmember hdrain hwrite =>
      exact course_of_forward hmember hdrain hwrite
  | unwritten member message now next hphase hmember hdrain hwrite =>
      have hnext : next = (router.drain member (some 1)).2 := by rw [hdrain]
      have hquiet : Quiet router next := hnext ▸ router.quiet_drain member (some 1)
      have hroute : next.nextRoute = router.nextRoute :=
        hnext ▸ (Router.sameRegistry_drain router member (some 1)).nextRoute
      exact .of_murmurs (hquiet.trans_quiet (next.quiet_leave member))
        ((next.nextRoute_leave member).trans hroute) ((hsame _ _ now _).trans (.of_ended _))
  | idled now hphase => exact .of_leave ((Murmurs.of_tryWrite link rfl).trans (.of_ended _))
  | heeded hphase hnotified =>
      have hheeded : Murmurs (link.tryWrite shuttingDown)
          (ended { link.tryWrite shuttingDown with isNotified := false }) :=
        .of_sent rfl rfl rfl rfl
      exact .of_leave ((Murmurs.of_tryWrite link rfl).trans hheeded)
  | blocked => exact .of_murmurs (.refl router) rfl (hsame _ _ _ false)

/-! ## What is left to be taken off -/

theorem decoder_ended (link : Link) : (ended link).decoder = link.decoder := rfl

theorem decoder_tryWrite (link : Link) (message : Message) :
    (link.tryWrite message).decoder = link.decoder := by
  rcases Link.tryWrite_eq link message with h | ⟨-, h⟩ <;> rw [h]

theorem decoder_of_write {message : Message} (h : link.write message = some link') :
    link'.decoder = link.decoder := by
  obtain ⟨-, -, rfl⟩ := Link.write_eq_some.1 h
  rfl

theorem Handled.decoder {message : Message} {now : Instant}
    (h : Handled options router link message now router' link') : link'.decoder = link.decoder := by
  cases h with
  | closed reason hmessage => rfl
  | welcomed version cluster clientName link' hmember hmessage hopening hwrite =>
      have hsame := decoder_of_write hwrite
      exact hsame
  | unwelcomed version cluster clientName session hmember hmessage hopening hsession hwrite => rfl
  | refused error hmember hopening hmessage =>
      rw [decoder_ended, decoder_tryWrite]
  | request member id cluster timeoutMs hmember hmessage => rfl
  | answer member hmember hmessage => rfl
  | misplaced member link' hmember hmessage hwrite => exact decoder_of_write hwrite
  | unheard member hmember hmessage hwrite => rfl

/-- A link whose turn it is takes one message off at most, unless it receives bytes. -/
theorem Turn.decoder (h : Turn options router link step router' link') :
    link'.decoder = link.decoder ∨ link'.decoder = link.decoder.nextMessage.2 ∨
      ∃ data now, step = .receive link.id data now := by
  cases h with
  | received data now hphase => exact Or.inr (Or.inr ⟨data, now, rfl⟩)
  | waited decoder now hphase hnext => exact Or.inr (Or.inl (congrArg Prod.snd hnext).symm)
  | skipped fault decoder now hphase hnext hfault =>
      exact Or.inr (Or.inl (congrArg Prod.snd hnext).symm)
  | failed fault decoder now hphase hnext hfault =>
      exact Or.inr (Or.inl (congrArg Prod.snd hnext).symm)
  | handled message decoder now hphase hnext hhandled =>
      exact Or.inr (Or.inl (hhandled.decoder.trans (congrArg Prod.snd hnext).symm))
  | foundEnd broken hphase => exact Or.inl rfl
  | forwarded member message now router' link' hphase hmember hdrain hwrite =>
      have hsame := decoder_of_write hwrite
      exact Or.inl hsame
  | unwritten member message now next hphase hmember hdrain hwrite => exact Or.inl rfl
  | idled now hphase => exact Or.inl (decoder_tryWrite link idleTimeout)
  | heeded hphase hnotified => exact Or.inl (decoder_tryWrite link shuttingDown)
  | blocked => exact Or.inl rfl

end Turn

end Relay

end Switchboard
