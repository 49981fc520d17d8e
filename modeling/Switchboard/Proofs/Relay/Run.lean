import Switchboard.Proofs.Router.Run
import Switchboard.Proofs.Streams
import Switchboard.Relay.Basic

/-!
# Runs of a relay

A run is any sequence of steps of a relay and of the tasks of its links. What a step can do is said
once (`perform_effect`): it leaves router and links alone, it adds a link, or it is the turn of one
link, which may change the router in one of a few ways (`Turn`, `Handled`).

A step is taken whole, and with it what it does to the router. Tasks of several links run at the
same time, and may come between two parts of what another one does to the router; runs say nothing
of that. Where a task waits in the middle of a step, it is cut there: see `Interleaved`.
-/

namespace Switchboard

namespace Link

/-- A message is written if it fits into a frame and the client still takes it. -/
theorem write_eq_some {link link' : Link} {message : Message} :
    link.write message = some link' ↔
      message.Fits ∧ link.isWritable = true ∧
        link' = { link with sent := link.sent ++ [message] } := by
  unfold write
  by_cases hfits : message.Fits
  · simp only [Message.encode_of_fits hfits, hfits, true_and]
    by_cases hwritable : link.isWritable = true
    · rw [if_pos hwritable, Option.some.injEq]
      exact ⟨fun h => ⟨hwritable, h.symm⟩, fun h => h.2.symm⟩
    · rw [if_neg hwritable]
      exact ⟨fun h => (nomatch h), fun h => absurd h.1 hwritable⟩
  · obtain ⟨fault, hfault⟩ := Message.encode_of_not_fits hfits
    simp only [hfault, hfits, false_and, reduceCtorEq]

theorem write_of_fits {link : Link} {message : Message} (hfits : message.Fits)
    (hwritable : link.isWritable = true) :
    link.write message = some { link with sent := link.sent ++ [message] } :=
  write_eq_some.2 ⟨hfits, hwritable, rfl⟩

/-- What an attempt to write does: it adds a message that fits, or nothing. -/
theorem tryWrite_eq (link : Link) (message : Message) :
    link.tryWrite message = link ∨
      (message.Fits ∧ link.tryWrite message = { link with sent := link.sent ++ [message] }) := by
  unfold tryWrite
  cases hwrite : link.write message with
  | none => exact Or.inl rfl
  | some link' =>
      obtain ⟨hfits, -, rfl⟩ := write_eq_some.1 hwrite
      exact Or.inr ⟨hfits, rfl⟩

/-- A link behind which nothing but messages of its own have been written, and nothing else of who
it is has changed. -/
structure Continues (link link' : Link) : Prop where
  id : link'.id = link.id
  name : link'.name = link.name
  sent : ∃ written, link'.sent = link.sent ++ written ∧ ∀ message ∈ written, message.Fits

theorem Continues.trans {a b c : Link} (hab : a.Continues b) (hbc : b.Continues c) :
    a.Continues c := by
  obtain ⟨first, hfirst, hfits⟩ := hab.sent
  obtain ⟨second, hsecond, hfits'⟩ := hbc.sent
  refine ⟨hbc.id.trans hab.id, hbc.name.trans hab.name, first ++ second, ?_, ?_⟩
  · rw [hsecond, hfirst, List.append_assoc]
  · intro message hmessage
    rcases List.mem_append.1 hmessage with h | h
    · exact hfits message h
    · exact hfits' message h

/-- A link on which nothing is written. -/
theorem continues_of_sent {link link' : Link} (hid : link'.id = link.id)
    (hname : link'.name = link.name) (hsent : link'.sent = link.sent) : link.Continues link' :=
  ⟨hid, hname, [], by rw [hsent, List.append_nil], fun _ h => nomatch h⟩

theorem continues_append (link : Link) {message : Message} (hfits : message.Fits) :
    link.Continues { link with sent := link.sent ++ [message] } := by
  refine ⟨rfl, rfl, [message], rfl, ?_⟩
  intro other hother
  rw [List.mem_singleton.1 hother]
  exact hfits

theorem continues_of_write {link link' : Link} {message : Message}
    (h : link.write message = some link') : link.Continues link' := by
  obtain ⟨hfits, -, rfl⟩ := write_eq_some.1 h
  exact continues_append link hfits

theorem continues_tryWrite (link : Link) (message : Message) :
    link.Continues (link.tryWrite message) := by
  rcases tryWrite_eq link message with h | ⟨hfits, h⟩
  · rw [h]
    exact continues_of_sent rfl rfl rfl
  · rw [h]
    exact continues_append link hfits

end Link

namespace Relay

/-- One step of a relay, or of the task of one of its links. -/
inductive Step where
  | start
  | announceEnd
  | stop
  | accept (name : String) (remote : SocketAddress) (now : Instant)
  | receive (id : LinkId) (data : ByteArray) (now : Instant)
  | readNext (id : LinkId) (now : Instant)
  | receiveEnd (id : LinkId) (broken : Bool)
  | forward (id : LinkId) (now : Instant)
  | endIdle (id : LinkId) (now : Instant)
  | heedEnd (id : LinkId)
  | blockWrites (id : LinkId)
  /-- The task of a link has come to its end, and does not read its outbox any more. -/
  | hangUp (member : MemberId)
  | sweep (now : Instant)

/-- The relay behind a step. -/
def perform (relay : Relay) : Step → Relay
  | .start => relay.start
  | .announceEnd => relay.announceEnd
  | .stop => relay.stop
  | .accept name remote now => (relay.accept name remote now).2
  | .receive id data now => relay.receive id data now
  | .readNext id now => relay.readNext id now
  | .receiveEnd id broken => relay.receiveEnd id broken
  | .forward id now => relay.forward id now
  | .endIdle id now => relay.endIdle id now
  | .heedEnd id => relay.heedEnd id
  | .blockWrites id => relay.blockWrites id
  | .hangUp member => { relay with router := relay.router.hangUp member }
  | .sweep now => relay.sweep now

/-- The relay behind a run. -/
def run (options : RelayOptions) (steps : List Step) : Relay :=
  steps.foldl perform (.new options)

/-- The relay behind the first `i` steps of a run. -/
def stateAt (options : RelayOptions) (steps : List Step) (i : Nat) : Relay :=
  run options (steps.take i)

theorem stateAt_succ {options : RelayOptions} {steps : List Step} {i : Nat} {step : Step}
    (h : steps[i]? = some step) :
    stateAt options steps (i + 1) = (stateAt options steps i).perform step := by
  unfold stateAt run
  rw [List.take_add_one, h, List.foldl_append]
  rfl

theorem stateAt_succ_of_none {options : RelayOptions} {steps : List Step} {i : Nat}
    (h : steps[i]? = none) : stateAt options steps (i + 1) = stateAt options steps i := by
  unfold stateAt
  rw [List.take_add_one, h, Option.toList_none, List.append_nil]

/-! ## Links -/

theorem links_setLink (relay : Relay) (link : Link) :
    (relay.setLink link).links = Lookup.replace Link.id link relay.links := rfl

theorem id_of_link? {relay : Relay} {id : LinkId} {link : Link} (h : relay.link? id = some link) :
    link.id = id := Lookup.key_of_find? h

theorem mem_of_link? {relay : Relay} {id : LinkId} {link : Link} (h : relay.link? id = some link) :
    link ∈ relay.links := List.mem_of_find?_eq_some h

/-- A link that has taken the place of another of its name is found instead of it. -/
theorem link?_of_links {relay after : Relay} {link : Link} (link' : Link)
    (hlink : relay.link? link.id = some link) (hid : link'.id = link.id)
    (hlinks : after.links = Lookup.replace Link.id link' relay.links) :
    after.link? link.id = some link' := by
  have hself := Lookup.find?_replace_self Link.id link' relay.links
  unfold link? at hlink ⊢
  rw [hid, hlink] at hself
  rw [hlinks]
  exact hself

/-- Links of other names are found as before. -/
theorem link?_of_links_ne {relay after : Relay} {link' : Link} {id : LinkId} (hid : id ≠ link'.id)
    (hlinks : after.links = Lookup.replace Link.id link' relay.links) :
    after.link? id = relay.link? id := by
  unfold link?
  rw [hlinks]
  exact Lookup.find?_replace_ne Link.id link' relay.links hid

/-- Where all links keep their names, a link is found as what it has become. -/
theorem link?_of_map {relay after : Relay} {g : Link → Link}
    (hlinks : after.links = relay.links.map g)
    (hid : ∀ link, (g link).id = link.id) (id : LinkId) :
    after.link? id = (relay.link? id).map g := by
  unfold link?
  rw [hlinks]
  exact Lookup.find?_map hid relay.links id

/-- The router without the member that a session has joined as. -/
def routerWithout (router : Router) : Option MemberId → Router
  | some member => (router.leave member).2
  | none => router

/-- A link that has ended. -/
def ended (link : Link) : Link := { link with phase := .ended }

section End

variable (relay : Relay) (link : Link) (withError : Bool)

theorem router_endLink :
    (relay.endLink link withError).router = routerWithout relay.router link.session.member := by
  unfold endLink
  cases withError <;> cases link.session.member <;> rfl

theorem links_endLink :
    (relay.endLink link withError).links = Lookup.replace Link.id (ended link) relay.links := by
  unfold endLink
  cases withError <;> rfl

theorem nextLink_endLink : (relay.endLink link withError).nextLink = relay.nextLink := by
  unfold endLink
  cases withError <;> rfl

end End

/-! ## Turns of a link -/

/-- What becomes of a router and of a link that has taken a message off what it has received. -/
inductive Handled (options : RelayOptions) (router : Router) (link : Link) (message : Message)
    (now : Instant) : Router → Link → Prop
  /-- The client ends the session. -/
  | closed (reason : Option String) (hmessage : message.envelope = .close reason) :
      Handled options router link message now (routerWithout router link.session.member)
        (ended { link with session := { link.session with state := .closing } })
  /-- The session joins its cluster and is welcomed. -/
  | welcomed (version : UInt16) (cluster : String) (clientName : Option String) (link' : Link)
      (hmember : link.session.member = none)
      (hmessage : message.envelope = .hello version cluster clientName)
      (hopening : openingFault? message = none)
      (hwrite : Link.write { link with
        session := link.session.completeHandshake cluster clientName router.nextMember }
          (.welcome link.name) = some link') :
      Handled options router link message now (router.join cluster options.outboundQueue).2 link'
  /-- The session joins its cluster, but the client is gone. -/
  | unwelcomed (version : UInt16) (cluster : String) (clientName : Option String)
      (session : Session)
      (hmember : link.session.member = none)
      (hmessage : message.envelope = .hello version cluster clientName)
      (hopening : openingFault? message = none)
      (hsession : session = link.session.completeHandshake cluster clientName router.nextMember)
      (hwrite : Link.write { link with session } (.welcome link.name) = none) :
      Handled options router link message now
        ((router.join cluster options.outboundQueue).2.leave router.nextMember).2
        (ended { link with session })
  /-- The opening is refused. -/
  | refused (error : RelayError) (hmember : link.session.member = none)
      (hopening : openingFault? message = some error)
      (hmessage : ∀ reason, message.envelope ≠ .close reason) :
      Handled options router link message now router
        (ended (link.tryWrite (.errorReply .none error.toReply.code error.toReply.message)))
  /-- A request passes through the router. -/
  | request (member : MemberId) (id : RequestId) (cluster : String) (timeoutMs : UInt64)
      (hmember : link.session.member = some member)
      (hmessage : message.envelope = .request id cluster timeoutMs) :
      Handled options router link message now
        (router.routeRequest member id cluster (timeoutOfWire timeoutMs) message.payload now)
        { link with session := link.session.recordRequest }
  /-- An answer passes through the router. -/
  | answer (member : MemberId) (hmember : link.session.member = some member)
      (hmessage : message.isAnswer = true) :
      Handled options router link message now (router.routeReply member message)
        { link with session := link.session.recordReply }
  /-- The client hears that its message makes no sense. -/
  | misplaced (member : MemberId) (link' : Link) (hmember : link.session.member = some member)
      (hmessage : message.envelope.kind = .hello ∨ message.envelope.kind = .welcome)
      (hwrite : link.write (.errorReply .none .badRequest
        s!"unexpected {message.envelope.kind.name} after handshake") = some link') :
      Handled options router link message now router link'
  /-- The client would hear that its message makes no sense, but it is gone. -/
  | unheard (member : MemberId) (hmember : link.session.member = some member)
      (hmessage : message.envelope.kind = .hello ∨ message.envelope.kind = .welcome)
      (hwrite : link.write (.errorReply .none .badRequest
        s!"unexpected {message.envelope.kind.name} after handshake") = none) :
      Handled options router link message now (router.leave member).2 (ended link)

/-- What a step does whose turn it is for `link`. -/
inductive Turn (options : RelayOptions) (router : Router) (link : Link) :
    Step → Router → Link → Prop
  | received (data : ByteArray) (now : Instant) (hphase : link.phase = .waiting) :
      Turn options router link (.receive link.id data now) router
        { link.touch now with phase := .reading, decoder := link.decoder.extend data }
  | waited (decoder : Decoder) (now : Instant) (hphase : link.phase = .reading)
      (hnext : link.decoder.nextMessage = (.needMore, decoder)) :
      Turn options router link (.readNext link.id now) router
        { link with phase := .waiting, decoder }
  /-- A frame that cannot be read is passed over. -/
  | skipped (fault : ProtocolError) (decoder : Decoder) (now : Instant)
      (hphase : link.phase = .reading)
      (hnext : link.decoder.nextMessage = (.failed fault, decoder))
      (hfault : fault.isRecoverable = true) :
      Turn options router link (.readNext link.id now) router { link with decoder }
  /-- The stream is out of step. -/
  | failed (fault : ProtocolError) (decoder : Decoder) (now : Instant)
      (hphase : link.phase = .reading)
      (hnext : link.decoder.nextMessage = (.failed fault, decoder))
      (hfault : fault.isRecoverable = false) :
      Turn options router link (.readNext link.id now) (routerWithout router link.session.member)
        (ended { link with decoder })
  | handled (message : Message) (decoder : Decoder) (now : Instant)
      (hphase : link.phase = .reading)
      (hnext : link.decoder.nextMessage = (.item message, decoder)) {router' : Router}
      {link' : Link}
      (hhandled : Handled options router { link with decoder } message now router' link') :
      Turn options router link (.readNext link.id now) router' link'
  | foundEnd (broken : Bool) (hphase : link.phase = .waiting) :
      Turn options router link (.receiveEnd link.id broken)
        (routerWithout router link.session.member) (ended link)
  /-- A message from the outbox is written. -/
  | forwarded (member : MemberId) (message : Message) (now : Instant) (router' : Router)
      (link' : Link) (hphase : link.phase = .waiting) (hmember : link.session.member = some member)
      (hdrain : router.drain member (some 1) = (some [message], router'))
      (hwrite : (link.touch now).write message = some link') :
      Turn options router link (.forward link.id now) router' link'
  /-- A message from the outbox cannot be written. -/
  | unwritten (member : MemberId) (message : Message) (now : Instant) (router' : Router)
      (hphase : link.phase = .waiting) (hmember : link.session.member = some member)
      (hdrain : router.drain member (some 1) = (some [message], router'))
      (hwrite : (link.touch now).write message = none) :
      Turn options router link (.forward link.id now) (router'.leave member).2
        (ended (link.touch now))
  | idled (now : Instant) (hphase : link.phase = .waiting)
      (hlimit : options.idleTimeout ≠ .zero)
      (hdue : link.lastActive.after options.idleTimeout ≤ now) :
      Turn options router link (.endIdle link.id now) (routerWithout router link.session.member)
        (ended (link.tryWrite idleTimeout))
  | heeded (hphase : link.phase = .waiting) (hnotified : link.isNotified = true) :
      Turn options router link (.heedEnd link.id) (routerWithout router link.session.member)
        (ended { link.tryWrite shuttingDown with isNotified := false })
  | blocked :
      Turn options router link (.blockWrites link.id) router { link with isWritable := false }

/-- What a step can do to a relay. -/
inductive Effect (relay after : Relay) (step : Step) : Prop where
  /-- Router and links stay as they are. -/
  | still (hrouter : after.router = relay.router) (hlinks : after.links = relay.links)
      (hnext : after.nextLink = relay.nextLink)
  /-- Links that have not ended are told of the end of the relay. -/
  | announced (hrouter : after.router = relay.router)
      (hlinks : after.links = relay.links.map fun link =>
        if link.phase = .ended then link else { link with isNotified := true })
      (hnext : after.nextLink = relay.nextLink)
  /-- A link is accepted. -/
  | accepted (name : String) (remote : SocketAddress) (now : Instant)
      (hstep : step = .accept name remote now) (hrouter : after.router = relay.router)
      (hlinks : after.links = relay.links ++ [.new relay.nextLink name remote now] ∨
        after.links = relay.links ++
          [ended ((Link.new relay.nextLink name remote now).tryWrite limitReached)])
      (hnext : after.nextLink = relay.nextLink + 1)
  /-- It is the turn of a link. -/
  | turn (link link' : Link) (hlink : relay.link? link.id = some link)
      (hturn : Turn relay.options relay.router link step after.router link')
      (hlinks : after.links = Lookup.replace Link.id link' relay.links)
      (hnext : after.nextLink = relay.nextLink)
  /-- An outbox is not read any more. -/
  | hungUp (member : MemberId) (hstep : step = .hangUp member)
      (hrouter : after.router = relay.router.hangUp member) (hlinks : after.links = relay.links)
      (hnext : after.nextLink = relay.nextLink)
  /-- Routes are forgotten whose deadline has passed. -/
  | swept (now : Instant) (hstep : step = .sweep now)
      (hrouter : after.router = (relay.router.sweep now).2) (hlinks : after.links = relay.links)
      (hnext : after.nextLink = relay.nextLink)

/-! ## The cases of a step -/

/-- The relay with another router, and with another link in the place of the one of its name. -/
structure Became (relay after : Relay) (router : Router) (link : Link) : Prop where
  router : after.router = router
  links : after.links = Lookup.replace Link.id link relay.links
  nextLink : after.nextLink = relay.nextLink

theorem became_setLink (relay : Relay) (link : Link) :
    Became relay (relay.setLink link) relay.router link := ⟨rfl, rfl, rfl⟩

theorem became_endLink (relay : Relay) (link : Link) (withError : Bool) :
    Became relay (relay.endLink link withError) (routerWithout relay.router link.session.member)
      (ended link) :=
  ⟨router_endLink relay link withError, links_endLink relay link withError,
    nextLink_endLink relay link withError⟩

/-- A message is written, or the link ends. -/
theorem became_writeOrEnd (relay : Relay) (link : Link) (message : Message) :
    (∃ link', link.write message = some link' ∧
      Became relay (relay.writeOrEnd link message) relay.router link') ∨
    (link.write message = none ∧
      Became relay (relay.writeOrEnd link message)
        (routerWithout relay.router link.session.member) (ended link)) := by
  unfold writeOrEnd
  cases hwrite : link.write message with
  | some link' => exact Or.inl ⟨link', rfl, became_setLink relay link'⟩
  | none => exact Or.inr ⟨rfl, became_endLink relay link true⟩

/-- The first message on a link has one of the effects listed. -/
theorem openSession_effect (relay : Relay) (link : Link) (message : Message) (now : Instant)
    (hmember : link.session.member = none) :
    ∃ router' link', Handled relay.options relay.router link message now router' link' ∧
      Became relay (relay.openSession link message) router' link' := by
  cases hopening : openingFault? message with
  | some error =>
      -- A close is not refused: it ends the link without an answer.
      by_cases hclose : ∃ reason, message.envelope = .close reason
      · obtain ⟨reason, hreason⟩ := hclose
        have hopen : relay.openSession link message = relay.closeLink link := by
          unfold openSession
          rw [hreason]
        rw [hopen]
        exact ⟨_, _, .closed reason hreason, became_endLink relay _ false⟩
      · have hreason : ∀ reason, message.envelope ≠ .close reason :=
          fun reason h => hclose ⟨reason, h⟩
        have hopen : relay.openSession link message = relay.refuse link error := by
          unfold openSession
          rw [hopening]
          split
          · rename_i reason h
            exact absurd h (hreason reason)
          · rename_i hnone
            cases hnone
          · rename_i hsome hother
            cases hsome
            rfl
          · rename_i hnone hother hhello
            cases hnone
        have hmember' : (link.tryWrite (.errorReply .none error.toReply.code
            error.toReply.message)).session.member = none := by
          unfold Link.tryWrite Link.write
          split
          · exact hmember
          · split <;> exact hmember
        have hbecame := became_endLink relay (link.tryWrite (.errorReply .none error.toReply.code
          error.toReply.message)) true
        rw [hmember'] at hbecame
        rw [hopen]
        exact ⟨_, _, .refused error hmember hopening hreason, hbecame⟩
  | none =>
      have hhello : ∃ version cluster clientName,
          message.envelope = .hello version cluster clientName := by
        unfold openingFault? at hopening
        split at hopening
        · rename_i version cluster clientName h
          exact ⟨version, cluster, clientName, h⟩
        · cases hopening
      obtain ⟨version, cluster, clientName, hmessage⟩ := hhello
      have hopen : relay.openSession link message = relay.letIn link cluster clientName := by
        unfold openSession
        rw [hmessage, hopening]
      rw [hopen]
      have hwritten := became_writeOrEnd
        { relay with router := (relay.router.join cluster relay.options.outboundQueue).2 }
        { link with
          session := link.session.completeHandshake cluster clientName relay.router.nextMember }
        (.welcome link.name)
      rcases hwritten with ⟨link', hwrite, hbecame⟩ | ⟨hwrite, hbecame⟩
      · exact ⟨_, link',
          .welcomed version cluster clientName link' hmember hmessage hopening hwrite,
          hbecame.router, hbecame.links, hbecame.nextLink⟩
      · exact ⟨_, _, .unwelcomed version cluster clientName _ hmember hmessage hopening rfl hwrite,
          hbecame.router, hbecame.links, hbecame.nextLink⟩

/-- A message of a session that has joined has one of the effects listed. -/
theorem routeMessage_effect (relay : Relay) (link : Link) (message : Message) (now : Instant)
    {member : MemberId} (hmember : link.session.member = some member) :
    ∃ router' link', Handled relay.options relay.router link message now router' link' ∧
      Became relay (relay.routeMessage link member message now) router' link' := by
  unfold routeMessage
  split
  · rename_i id cluster timeoutMs hmessage
    exact ⟨_, _, .request member id cluster timeoutMs hmember hmessage, rfl, rfl, rfl⟩
  · rename_i id hmessage
    have hanswer : message.isAnswer = true := by rw [Message.isAnswer, hmessage]
    exact ⟨_, _, .answer member hmember hanswer, rfl, rfl, rfl⟩
  · rename_i id error hmessage
    have hanswer : message.isAnswer = true := by rw [Message.isAnswer, hmessage]
    exact ⟨_, _, .answer member hmember hanswer, rfl, rfl, rfl⟩
  · rename_i reason hmessage
    exact ⟨_, _, .closed reason hmessage, became_endLink relay _ false⟩
  · rename_i hrequest hreply herror hclose
    have hkind : message.envelope.kind = .hello ∨ message.envelope.kind = .welcome := by
      cases henvelope : message.envelope with
      | hello version cluster clientName => exact Or.inl rfl
      | welcome connectionId => exact Or.inr rfl
      | request id cluster timeoutMs => exact absurd henvelope (hrequest _ _ _)
      | reply id => exact absurd henvelope (hreply _)
      | errorReply id error => exact absurd henvelope (herror _ _)
      | close reason => exact absurd henvelope (hclose _)
    rcases became_writeOrEnd relay link (.errorReply .none .badRequest
      s!"unexpected {message.envelope.kind.name} after handshake") with
        ⟨link', hwrite, hbecame⟩ | ⟨hwrite, hbecame⟩
    · exact ⟨_, link', .misplaced member link' hmember hkind hwrite, hbecame⟩
    · rw [hmember] at hbecame
      exact ⟨_, _, .unheard member hmember hkind hwrite, hbecame⟩

/-- A message has one of the effects listed. -/
theorem handle_effect (relay : Relay) (link : Link) (message : Message) (now : Instant) :
    ∃ router' link', Handled relay.options relay.router link message now router' link' ∧
      Became relay (relay.handle link message now) router' link' := by
  cases hmember : link.session.member with
  | none =>
      have hopen : relay.handle link message now = relay.openSession link message := by
        unfold handle
        rw [hmember]
      rw [hopen]
      exact openSession_effect relay link message now hmember
  | some member =>
      have hroute : relay.handle link message now = relay.routeMessage link member message now := by
        unfold handle
        rw [hmember]
      rw [hroute]
      exact routeMessage_effect relay link message now hmember

/-- A step that leaves the relay as it is. -/
theorem effect_refl (relay : Relay) (step : Step) : Effect relay relay step := .still rfl rfl rfl

theorem Became.effect {relay after : Relay} {router : Router} {link link' : Link} {step : Step}
    (h : Became relay after router link') (hlink : relay.link? link.id = some link)
    (hturn : Turn relay.options relay.router link step router link') : Effect relay after step :=
  .turn link link' hlink (h.router ▸ hturn) h.links h.nextLink

theorem receive_effect (relay : Relay) (id : LinkId) (data : ByteArray) (now : Instant) :
    Effect relay (relay.receive id data now) (.receive id data now) := by
  unfold receive
  split
  · rename_i link hlink
    obtain rfl := id_of_link? hlink
    split
    · rename_i hphase
      exact (became_setLink relay _).effect hlink (.received data now hphase)
    · exact effect_refl relay _
  · exact effect_refl relay _

theorem readNext_effect (relay : Relay) (id : LinkId) (now : Instant) :
    Effect relay (relay.readNext id now) (.readNext id now) := by
  unfold readNext
  split
  · rename_i link hlink
    obtain rfl := id_of_link? hlink
    split
    · rename_i hphase
      split
      · rename_i decoder hnext
        exact (became_setLink relay _).effect hlink (.waited decoder now hphase hnext)
      · rename_i fault decoder hnext
        simp only
        split
        · rename_i hfault
          exact Became.effect ⟨rfl, rfl, rfl⟩ hlink
            (.skipped fault decoder now hphase hnext hfault)
        · rename_i hfault
          have hfatal : fault.isRecoverable = false := by simpa using hfault
          exact (became_endLink relay { link with decoder } true).effect hlink
            (.failed fault decoder now hphase hnext hfatal)
      · rename_i message decoder hnext
        obtain ⟨router', link', hhandled, hbecame⟩ := handle_effect
          (relay.count fun stats => { stats with messagesReceived := stats.messagesReceived + 1 })
          { link with decoder } message now
        have hlinked : Became relay _ router' link' :=
          ⟨hbecame.router, hbecame.links, hbecame.nextLink⟩
        exact hlinked.effect hlink (.handled message decoder now hphase hnext hhandled)
    · exact effect_refl relay _
  · exact effect_refl relay _

theorem receiveEnd_effect (relay : Relay) (id : LinkId) (broken : Bool) :
    Effect relay (relay.receiveEnd id broken) (.receiveEnd id broken) := by
  unfold receiveEnd
  split
  · rename_i link hlink
    obtain rfl := id_of_link? hlink
    split
    · rename_i hphase
      exact (became_endLink relay link broken).effect hlink (.foundEnd broken hphase)
    · exact effect_refl relay _
  · exact effect_refl relay _

theorem forward_effect (relay : Relay) (id : LinkId) (now : Instant) :
    Effect relay (relay.forward id now) (.forward id now) := by
  unfold forward
  split
  · rename_i link hlink
    obtain rfl := id_of_link? hlink
    split
    · rename_i member hphase hmember
      split
      · rename_i message router' hdrain
        have hwritten := became_writeOrEnd { relay with router := router' } (link.touch now) message
        rcases hwritten with ⟨link', hwrite, hbecame⟩ | ⟨hwrite, hbecame⟩
        · have hlinked : Became relay _ router' link' :=
            ⟨hbecame.router, hbecame.links, hbecame.nextLink⟩
          exact hlinked.effect hlink
            (.forwarded member message now router' link' hphase hmember hdrain hwrite)
        · -- The message cannot be written, so the member leaves.
          have hwithout : routerWithout router' (link.touch now).session.member =
              (router'.leave member).2 := by
            show routerWithout router' link.session.member = _
            rw [hmember]
            rfl
          have hlinked : Became relay _ (router'.leave member).2 (ended (link.touch now)) :=
            ⟨hbecame.router.trans hwithout, hbecame.links, hbecame.nextLink⟩
          exact hlinked.effect hlink (.unwritten member message now router' hphase hmember hdrain
            hwrite)
      · exact effect_refl relay _
    · exact effect_refl relay _
  · exact effect_refl relay _

/-- Writing does not change who has joined. -/
theorem session_tryWrite (link : Link) (message : Message) :
    (link.tryWrite message).session = link.session := by
  unfold Link.tryWrite Link.write
  split
  · rfl
  · split <;> rfl

theorem endIdle_effect (relay : Relay) (id : LinkId) (now : Instant) :
    Effect relay (relay.endIdle id now) (.endIdle id now) := by
  unfold endIdle
  split
  · rename_i link hlink
    obtain rfl := id_of_link? hlink
    split
    · rename_i hidle
      simp only [Bool.and_eq_true, decide_eq_true_eq] at hidle
      have hbecame := became_endLink relay (link.tryWrite idleTimeout) false
      rw [session_tryWrite] at hbecame
      exact hbecame.effect hlink (.idled now hidle.1.1 hidle.1.2 hidle.2)
    · exact effect_refl relay _
  · exact effect_refl relay _

theorem heedEnd_effect (relay : Relay) (id : LinkId) :
    Effect relay (relay.heedEnd id) (.heedEnd id) := by
  unfold heedEnd
  split
  · rename_i link hlink
    obtain rfl := id_of_link? hlink
    split
    · rename_i hnotified
      simp only [Bool.and_eq_true, decide_eq_true_eq] at hnotified
      have hbecame := became_endLink relay
        { link.tryWrite shuttingDown with isNotified := false } true
      -- What is written at the end does not change who leaves.
      have hsession : routerWithout relay.router (link.tryWrite shuttingDown).session.member =
          routerWithout relay.router link.session.member := by rw [session_tryWrite]
      exact Became.effect ⟨hbecame.router.trans hsession, hbecame.links, hbecame.nextLink⟩ hlink
        (.heeded hnotified.1 hnotified.2)
    · exact effect_refl relay _
  · exact effect_refl relay _

theorem accept_effect (relay : Relay) (name : String) (remote : SocketAddress) (now : Instant) :
    Effect relay (relay.accept name remote now).2 (.accept name remote now) := by
  unfold accept
  simp only
  split
  · exact .accepted name remote now rfl rfl (Or.inr rfl) rfl
  · exact .accepted name remote now rfl rfl (Or.inl rfl) rfl

/-- Every step has one of the effects listed. -/
theorem perform_effect (relay : Relay) (step : Step) : Effect relay (relay.perform step) step := by
  cases step with
  | start => exact .still rfl rfl rfl
  | announceEnd => exact .announced rfl rfl rfl
  | stop =>
      show Effect relay relay.stop .stop
      unfold stop
      split
      · exact .still rfl rfl rfl
      · exact effect_refl relay _
  | accept name remote now => exact accept_effect relay name remote now
  | receive id data now => exact receive_effect relay id data now
  | readNext id now => exact readNext_effect relay id now
  | receiveEnd id broken => exact receiveEnd_effect relay id broken
  | forward id now => exact forward_effect relay id now
  | endIdle id now => exact endIdle_effect relay id now
  | heedEnd id => exact heedEnd_effect relay id
  | blockWrites id =>
      show Effect relay (relay.blockWrites id) _
      unfold blockWrites
      split
      · rename_i link hlink
        obtain rfl := id_of_link? hlink
        exact (became_setLink relay _).effect hlink .blocked
      · exact effect_refl relay _
  | hangUp member => exact .hungUp member rfl rfl rfl rfl
  | sweep now =>
      show Effect relay (relay.sweep now) (.sweep now)
      unfold sweep
      split
      · exact .swept now rfl rfl rfl rfl
      · exact effect_refl relay _

/-! ## What stays of a link -/

theorem continues_ended (link : Link) : link.Continues (ended link) :=
  Link.continues_of_sent rfl rfl rfl

theorem Handled.continues {options : RelayOptions} {router router' : Router} {link link' : Link}
    {message : Message} {now : Instant}
    (h : Handled options router link message now router' link') :
    link.Continues link' := by
  have hsame : ∀ session, link.Continues { link with session } :=
    fun session => Link.continues_of_sent rfl rfl rfl
  cases h with
  | closed reason hmessage => exact (hsame _).trans (continues_ended _)
  | welcomed version cluster clientName link' hmember hmessage hopening hwrite =>
      exact (hsame _).trans (Link.continues_of_write hwrite)
  | unwelcomed version cluster clientName session hmember hmessage hopening hsession hwrite =>
      exact (hsame session).trans (continues_ended _)
  | refused error hmember hopening hmessage =>
      exact (Link.continues_tryWrite link _).trans (continues_ended _)
  | request member id cluster timeoutMs hmember hmessage => exact hsame _
  | answer member hmember hmessage => exact hsame _
  | misplaced member link' hmember hmessage hwrite => exact Link.continues_of_write hwrite
  | unheard member hmember hmessage hwrite => exact continues_ended _

theorem Turn.continues {options : RelayOptions} {router router' : Router} {link link' : Link}
    {step : Step} (h : Turn options router link step router' link') : link.Continues link' := by
  have hsame : ∀ phase decoder lastActive,
      link.Continues { link with phase, decoder, lastActive } :=
    fun _ _ _ => Link.continues_of_sent rfl rfl rfl
  cases h with
  | received data now hphase => exact hsame _ _ _
  | waited decoder now hphase hnext => exact hsame _ decoder _
  | skipped fault decoder now hphase hnext hfault => exact hsame _ decoder _
  | failed fault decoder now hphase hnext hfault => exact hsame _ decoder _
  | handled message decoder now hphase hnext hhandled =>
      exact (hsame _ decoder _).trans hhandled.continues
  | foundEnd broken hphase => exact continues_ended link
  | forwarded member message now router' link' hphase hmember hdrain hwrite =>
      exact (hsame _ _ now).trans (Link.continues_of_write hwrite)
  | unwritten member message now router' hphase hmember hdrain hwrite =>
      exact (hsame _ _ now).trans (continues_ended _)
  | idled now hphase => exact (Link.continues_tryWrite link _).trans (continues_ended _)
  | heeded hphase hnotified =>
      refine (Link.continues_tryWrite link shuttingDown).trans ?_
      exact Link.continues_of_sent rfl rfl rfl
  | blocked => exact Link.continues_of_sent rfl rfl rfl

/-- A link behind a step is new, or goes on from one that was there. -/
theorem continues_of_mem_links {relay : Relay} {step : Step} {link' : Link}
    (h : link' ∈ (relay.perform step).links) :
    (∃ link ∈ relay.links, link.Continues link') ∨
      ∃ name remote now, step = .accept name remote now ∧
        (Link.new relay.nextLink name remote now).Continues link' := by
  have hsame : (relay.perform step).links = relay.links →
      ∃ link ∈ relay.links, link.Continues link' :=
    fun hlinks => ⟨link', hlinks ▸ h, Link.continues_of_sent rfl rfl rfl⟩
  cases perform_effect relay step with
  | still hrouter hlinks hnext => exact Or.inl (hsame hlinks)
  | announced hrouter hlinks hnext =>
      rw [hlinks] at h
      obtain ⟨link, hlink, rfl⟩ := List.mem_map.1 h
      refine Or.inl ⟨link, hlink, ?_⟩
      split <;> exact Link.continues_of_sent rfl rfl rfl
  | accepted name remote now hstep hrouter hlinks hnext =>
      rcases hlinks with hlinks | hlinks
      · rw [hlinks, List.mem_append, List.mem_singleton] at h
        rcases h with h | rfl
        · exact Or.inl ⟨link', h, Link.continues_of_sent rfl rfl rfl⟩
        · exact Or.inr ⟨name, remote, now, hstep, Link.continues_of_sent rfl rfl rfl⟩
      · rw [hlinks, List.mem_append, List.mem_singleton] at h
        rcases h with h | rfl
        · exact Or.inl ⟨link', h, Link.continues_of_sent rfl rfl rfl⟩
        · exact Or.inr ⟨name, remote, now, hstep,
            (Link.continues_tryWrite _ _).trans (continues_ended _)⟩
  | turn link link'' hlink hturn hlinks hnext =>
      rw [hlinks] at h
      rcases Lookup.mem_replace h with rfl | ⟨hold, -⟩
      · exact Or.inl ⟨link, mem_of_link? hlink, hturn.continues⟩
      · exact Or.inl ⟨link', hold, Link.continues_of_sent rfl rfl rfl⟩
  | hungUp member hstep hrouter hlinks hnext => exact Or.inl (hsame hlinks)
  | swept now hstep hrouter hlinks hnext => exact Or.inl (hsame hlinks)

end Relay

end Switchboard
