import Switchboard.Proofs.Relay.Halves

/-!
# What happens between the steps of links

A run of an interleaved relay is any sequence of whole steps and of halves of steps. What a step can
do is said once (`perform_effect`): it leaves the links who they are, it adds a link, the task of a
link goes on up to its first write (`Begins`), or a write comes to its end (`Finishes`).
-/

namespace Switchboard

namespace Relay

/-- What the task of a link does up to its first write: what it makes of the router and of the link,
the message that it has taken, and the write that it comes to. -/
inductive Begins (router : Router) (link : Link) :
    Option Message → Router → Link → Option Write → Prop
  /-- Nothing but the link itself changes. -/
  | kept {link' : Link} (hfollows : link.Follows link' []) (hlive : link'.phase ≠ .ended) :
      Begins router link none router link' none
  /-- The link ends. A message that it has taken closes it. -/
  | ceased {message? : Option Message} {link' : Link} (hfollows : link.Follows link' [])
      (hended : link'.phase = .ended)
      (hmessage : ∀ message ∈ message?, ∃ reason, message.envelope = .close reason) :
      Begins router link message? (routerWithout router link.session.member) link' none
  /-- The session joins its cluster. -/
  | joined {message : Message} {link' : Link} (cluster : String) (clientName : Option String)
      (capacity : Nat) (hnone : link.session.member = none)
      (hmessage : message.envelope = .hello protocolVersion cluster clientName)
      (hcluster : Text.isBlank cluster = false) (hid : link'.id = link.id)
      (hname : link'.name = link.name) (hsent : link'.sent = link.sent)
      (hmember : link'.session.member = some router.nextMember)
      (hcluster' : link'.session.cluster = some cluster) (hlive : link'.phase ≠ .ended) :
      Begins router link (some message) (router.join cluster capacity).2 link'
        (some { message := .welcome link'.name })
  /-- The opening of the session is refused. -/
  | refused {message : Message} {link' : Link} (error : RelayError)
      (hnone : link.session.member = none) (hopening : openingFault? message = some error)
      (hfollows : link.Follows link' []) (hlive : link'.phase ≠ .ended) :
      Begins router link (some message) router link'
        (some { message := .errorReply .none error.toReply.code error.toReply.message
                ending := some true })
  /-- A request passes through the router. -/
  | request {message : Message} {link' : Link} (member : MemberId) (id : RequestId)
      (cluster : String)
      (timeout : Duration) (now : Instant) (hmember : link.session.member = some member)
      (hmessage : ∃ timeoutMs, message.envelope = .request id cluster timeoutMs)
      (hfollows : link.Follows link' []) (hlive : link'.phase ≠ .ended) :
      Begins router link (some message)
        (router.routeRequest member id cluster timeout message.payload now) link' none
  /-- An answer passes through the router. -/
  | answer {message : Message} {link' : Link} (member : MemberId)
      (hmember : link.session.member = some member) (hmessage : message.isAnswer = true)
      (hfollows : link.Follows link' []) (hlive : link'.phase ≠ .ended) :
      Begins router link (some message) (router.routeReply member message) link' none
  /-- A message makes no sense where it stands. -/
  | misplaced {message : Message} {link' : Link} (member : MemberId) (text : String)
      (hmember : link.session.member = some member)
      (hmessage : message.envelope.kind = .hello ∨ message.envelope.kind = .welcome)
      (hfollows : link.Follows link' []) (hlive : link'.phase ≠ .ended) :
      Begins router link (some message) router link'
        (some { message := .errorReply .none .badRequest text })
  /-- A message is taken out of the outbox. -/
  | drained {router' : Router} {link' : Link} (member : MemberId) (message : Message)
      (hmember : link.session.member = some member)
      (hdrain : router.drain member (some 1) = (some [message], router'))
      (hfollows : link.Follows link' []) (hlive : link'.phase ≠ .ended) :
      Begins router link none router' link' (some { message })
  /-- The link is about to say its last words. -/
  | parting {link' : Link} (farewell : Message) (withError : Bool)
      (hfarewell : farewell = idleTimeout ∨ farewell = shuttingDown)
      (hfollows : link.Follows link' []) (hlive : link'.phase ≠ .ended) :
      Begins router link none router link' (some { message := farewell, ending := some withError })

/-- A link keeps its name. -/
theorem Begins.id {router router' : Router} {link link' : Link} {message? : Option Message}
    {write? : Option Write} (h : Begins router link message? router' link' write?) :
    link'.id = link.id := by
  cases h with
  | joined cluster clientName capacity hnone hmessage hcluster hid => exact hid
  | _ => exact Link.Follows.id ‹_›

/-- What becomes of a router and of a link when a write comes to its end. -/
inductive Finishes (router : Router) (link : Link) (write : Write) : Router → Link → Prop
  /-- The message is taken, and the link goes on. -/
  | written {link' : Link} (hending : write.ending = none)
      (hfollows : link.Follows link' [write.message]) (hphase : link'.phase = link.phase) :
      Finishes router link write router link'
  /-- The message is not taken, and the link ends. -/
  | unwritten {link' : Link} (hending : write.ending = none) (hfollows : link.Follows link' [])
      (hended : link'.phase = .ended) :
      Finishes router link write (routerWithout router link.session.member) link'
  /-- The message is the last one. -/
  | last {link' : Link} (withError : Bool) (hending : write.ending = some withError)
      (written : List Message) (hwritten : written = [] ∨ written = [write.message])
      (hfollows : link.Follows link' written) (hended : link'.phase = .ended) :
      Finishes router link write (routerWithout router link.session.member) link'

theorem Finishes.id {router router' : Router} {link link' : Link} {write : Write}
    (h : Finishes router link write router' link') : link'.id = link.id := by
  cases h <;> exact Link.Follows.id ‹_›

/-- What a step does whose task comes to one write at most. -/
inductive Halves (router : Router) (link : Link) (message? : Option Message) :
    Router → Link → Prop
  | one {router' : Router} {link' : Link}
      (hbegins : Begins router link message? router' link' none) :
      Halves router link message? router' link'
  | two {router' router'' : Router} {link' link'' : Link} (write : Write)
      (hbegins : Begins router link message? router' link' (some write))
      (hfinishes : Finishes router' link' write router'' link'') :
      Halves router link message? router'' link''

theorem finishes_of_write {router : Router} {link link' : Link} {message : Message}
    (h : link.write message = some link') : Finishes router link { message } router link' := by
  obtain ⟨-, -, rfl⟩ := Link.write_eq_some.1 h
  exact .written rfl (.of_write h) rfl

theorem finishes_of_tryWrite {router : Router} {link link' : Link} {message : Message}
    {withError : Bool} (h : (link.tryWrite message).Follows link' [])
    (hended : link'.phase = .ended) :
    Finishes router link { message, ending := some withError }
      (routerWithout router link.session.member) link' := by
  obtain ⟨written, hwritten, hfollows⟩ := Link.Follows.of_tryWrite link message
  have hall := hfollows.trans h
  rw [List.append_nil] at hall
  exact .last withError rfl written hwritten hall hended

/-- A message that opens a session names the version of the protocol and a cluster. -/
theorem hello_of_opening {message : Message} {version : UInt16} {cluster : String}
    {clientName : Option String} (hmessage : message.envelope = .hello version cluster clientName)
    (hopening : openingFault? message = none) :
    version = protocolVersion ∧ Text.isBlank cluster = false := by
  unfold openingFault? at hopening
  rw [hmessage] at hopening
  simp only at hopening
  split at hopening
  · cases hopening
  · rename_i hversion
    split at hopening
    · cases hopening
    · rename_i hblank
      exact ⟨not_not.1 hversion, by simpa using hblank⟩

theorem follows_ended (link : Link) : link.Follows (ended link) [] := .of_sent rfl rfl rfl rfl rfl

/-- A link ends whose message cannot be written. -/
theorem finishes_ended (router : Router) (link : Link) (message : Message) :
    Finishes router link { message } (routerWithout router link.session.member) (ended link) :=
  .unwritten rfl (follows_ended link) rfl

theorem routerWithout_of_some {router : Router} {link : Link} {member : MemberId}
    (h : link.session.member = some member) :
    routerWithout router link.session.member = (router.leave member).2 := by
  rw [h]
  rfl

/-- A message that is dealt with in one go is dealt with up to the answer, and then answered. -/
theorem Handled.halves {options : RelayOptions} {router router' : Router} {link taking link' : Link}
    {message : Message} {now : Instant}
    (h : Handled options router taking message now router' link')
    (hfollows : link.Follows taking []) (hlive : taking.phase ≠ .ended) :
    Halves router link (some message) router' link' := by
  have hmember := hfollows.member
  -- The session joins its cluster, whether or not its client can be welcomed.
  have hjoins : ∀ version cluster clientName, taking.session.member = none →
      message.envelope = .hello version cluster clientName → openingFault? message = none →
        Begins router link (some message) (router.join cluster options.outboundQueue).2
          { taking with
            session := taking.session.completeHandshake cluster clientName router.nextMember }
          (some { message := .welcome taking.name }) := by
    intro version cluster clientName hnone hmessage hopening
    obtain ⟨rfl, hcluster⟩ := hello_of_opening hmessage hopening
    have hsent := hfollows.sent
    rw [List.append_nil] at hsent
    exact .joined cluster clientName _ (hmember.symm.trans hnone) hmessage hcluster hfollows.id
      hfollows.name hsent rfl rfl hlive
  cases h with
  | closed reason hmessage =>
      rw [hmember]
      refine .one (.ceased ?_ rfl ?_)
      · exact hfollows.trans (.of_sent rfl rfl rfl rfl rfl)
      · intro taken htaken
        rw [← Option.some.inj htaken]
        exact ⟨reason, hmessage⟩
  | welcomed version cluster clientName link' hnone hmessage hopening hwrite =>
      exact .two _ (hjoins version cluster clientName hnone hmessage hopening)
        (finishes_of_write hwrite)
  | unwelcomed version cluster clientName session hnone hmessage hopening hsession hwrite =>
      subst hsession
      exact .two _ (hjoins version cluster clientName hnone hmessage hopening)
        (finishes_ended _ _ _)
  | refused error hnone hopening hmessage =>
      have hlast : Finishes router taking
          { message := .errorReply .none error.toReply.code error.toReply.message
            ending := some true }
          (routerWithout router taking.session.member)
          (ended (taking.tryWrite (.errorReply .none error.toReply.code error.toReply.message))) :=
        finishes_of_tryWrite (follows_ended _) rfl
      rw [hnone] at hlast
      exact .two _ (.refused error (hmember.symm.trans hnone) hopening hfollows hlive) hlast
  | request member id cluster timeoutMs hsome hmessage =>
      refine .one (.request member id cluster _ now (hmember.symm.trans hsome) ⟨timeoutMs,
        hmessage⟩ ?_ hlive)
      exact hfollows.trans (.of_sent rfl rfl rfl rfl rfl)
  | answer member hsome hmessage =>
      refine .one (.answer member (hmember.symm.trans hsome) hmessage ?_ hlive)
      exact hfollows.trans (.of_sent rfl rfl rfl rfl rfl)
  | misplaced member link' hsome hmessage hwrite =>
      exact .two _ (.misplaced member _ (hmember.symm.trans hsome) hmessage hfollows hlive)
        (finishes_of_write hwrite)
  | unheard member hsome hmessage hwrite =>
      rw [← routerWithout_of_some hsome]
      refine .two _ (.misplaced member ?_ (hmember.symm.trans hsome) hmessage hfollows hlive)
        (finishes_ended _ _ _)
      exact s!"unexpected {message.envelope.kind.name} after handshake"

/-- The message that a link takes off what it has received in a step. -/
def taken? (relay : Relay) : Step → Option Message
  | .readNext id _ =>
      match relay.link? id with
      | some link =>
          match link.phase, link.decoder.nextMessage with
          | .reading, (.item message, _) => some message
          | _, _ => none
      | none => none
  | _ => none

theorem taken?_of_item {relay : Relay} {link : Link} {message : Message} {decoder : Decoder}
    (hlink : relay.link? link.id = some link) (hphase : link.phase = .reading)
    (hnext : link.decoder.nextMessage = (.item message, decoder)) (now : Instant) :
    relay.taken? (.readNext link.id now) = some message := by
  simp only [taken?, hlink, hphase, hnext]

/-- A turn of a link is told by its halves. -/
theorem Turn.halves {relay : Relay} {router' : Router} {link link' : Link} {step : Step}
    (h : Turn relay.options relay.router link step router' link')
    (hlink : relay.link? link.id = some link) (htask : step.link? = some link.id) :
    link.phase ≠ .ended ∧ Halves relay.router link (relay.taken? step) router' link' := by
  -- Nothing is taken unless a message has come.
  have hnothing : ∀ now, (∀ message decoder, link.decoder.nextMessage ≠ (.item message, decoder)) →
      relay.taken? (.readNext link.id now) = none := by
    intro now hnone
    simp only [taken?, hlink]
    split
    · rename_i message decoder hphase hnext
      exact absurd hnext (hnone message decoder)
    · rfl
  have hwaiting : link.phase = .waiting → link.phase ≠ .ended := by
    intro hphase
    rw [hphase]
    exact LinkPhase.noConfusion
  have hreading : link.phase = .reading → link.phase ≠ .ended := by
    intro hphase
    rw [hphase]
    exact LinkPhase.noConfusion
  cases h with
  | received data now hphase =>
      refine ⟨hwaiting hphase, .one (.kept ?_ ?_)⟩
      · exact .of_sent rfl rfl rfl rfl rfl
      · exact LinkPhase.noConfusion
  | waited decoder now hphase hnext =>
      rw [hnothing now (by rw [hnext]; exact fun _ _ => nofun)]
      refine ⟨hreading hphase, .one (.kept ?_ ?_)⟩
      · exact .of_sent rfl rfl rfl rfl rfl
      · exact LinkPhase.noConfusion
  | skipped fault decoder now hphase hnext hfault =>
      rw [hnothing now (by rw [hnext]; exact fun _ _ => nofun)]
      refine ⟨hreading hphase, .one (.kept ?_ (hreading hphase))⟩
      exact .of_sent rfl rfl rfl rfl rfl
  | failed fault decoder now hphase hnext hfault =>
      rw [hnothing now (by rw [hnext]; exact fun _ _ => nofun)]
      refine ⟨hreading hphase, .one (.ceased ?_ rfl (fun _ hnone => nomatch hnone))⟩
      exact .of_sent rfl rfl rfl rfl rfl
  | handled message decoder now hphase hnext hhandled =>
      rw [taken?_of_item hlink hphase hnext]
      exact ⟨hreading hphase, hhandled.halves (.of_sent rfl rfl rfl rfl rfl) (hreading hphase)⟩
  | foundEnd broken hphase =>
      refine ⟨hwaiting hphase, .one (.ceased ?_ rfl (fun _ hnone => nomatch hnone))⟩
      exact .of_sent rfl rfl rfl rfl rfl
  | forwarded member message now router' link' hphase hmember hdrain hwrite =>
      refine ⟨hwaiting hphase, .two _ (.drained member message hmember hdrain ?_ ?_)
        (finishes_of_write hwrite)⟩
      · exact .of_sent rfl rfl rfl rfl rfl
      · exact hwaiting hphase
  | unwritten member message now router' hphase hmember hdrain hwrite =>
      have htouched : (link.touch now).session.member = some member := hmember
      rw [← routerWithout_of_some htouched]
      refine ⟨hwaiting hphase, .two _ (.drained member message hmember hdrain ?_ ?_)
        (finishes_ended _ _ _)⟩
      · exact .of_sent rfl rfl rfl rfl rfl
      · exact hwaiting hphase
  | idled now hphase =>
      refine ⟨hwaiting hphase, .two _ (.parting idleTimeout false (Or.inl rfl) (.refl link)
        (hwaiting hphase)) (finishes_of_tryWrite (follows_ended _) rfl)⟩
  | heeded hphase hnotified =>
      refine ⟨hwaiting hphase, .two _ (.parting shuttingDown true (Or.inr rfl) (.refl link)
        (hwaiting hphase)) (finishes_of_tryWrite ?_ rfl)⟩
      exact .of_sent rfl rfl rfl rfl rfl
  | blocked => cases htask

/-- The relay behind a step whose task is that of `link`. -/
structure Turned (relay after : Relay) (link link' : Link) : Prop where
  found : relay.link? link.id = some link
  links : after.links = Lookup.replace Link.id link' relay.links
  nextLink : after.nextLink = relay.nextLink

theorem Became.turned {relay after : Relay} {router : Router} {link link' : Link}
    (h : Became relay after router link') (hlink : relay.link? link.id = some link) :
    Turned relay after link link' := ⟨hlink, h.links, h.nextLink⟩

theorem begins_of_beginOpening? {relay started : Relay} {link taking : Link} {message : Message}
    {write : Write} (h : relay.countMessage.beginOpening? taking message = some (started, write))
    (hlink : relay.link? link.id = some link) (hnone : link.session.member = none)
    (hfollows : link.Follows taking []) (hlive : taking.phase ≠ .ended) :
    ∃ link', Begins relay.router link (some message) started.router link' (some write) ∧
      Turned relay started link link' := by
  unfold beginOpening? at h
  split at h
  · cases h
  · rename_i version cluster clientName hmessage hopening
    obtain ⟨rfl, hcluster⟩ := hello_of_opening hmessage hopening
    cases h
    have hsent := hfollows.sent
    rw [List.append_nil] at hsent
    refine ⟨{ taking with
      session := taking.session.completeHandshake cluster clientName relay.router.nextMember }, ?_,
        hlink, rfl, rfl⟩
    exact .joined cluster clientName _ hnone hmessage hcluster hfollows.id hfollows.name hsent
      rfl rfl
      hlive
  · rename_i error hopening hclose
    cases h
    exact ⟨taking, .refused error hnone hopening hfollows hlive, hlink, rfl, rfl⟩
  · cases h

theorem begins_of_beginRouting? {relay started : Relay} {link taking : Link} {member : MemberId}
    {message : Message} {write : Write}
    (h : relay.countMessage.beginRouting? taking message = some (started, write))
    (hlink : relay.link? link.id = some link) (hmember : link.session.member = some member)
    (hfollows : link.Follows taking []) (hlive : taking.phase ≠ .ended) :
    ∃ link', Begins relay.router link (some message) started.router link' (some write) ∧
      Turned relay started link link' := by
  unfold beginRouting? at h
  split at h
  · cases h
  · cases h
  · cases h
  · cases h
  · rename_i hrequest hreply herror hclose
    have hkind : message.envelope.kind = .hello ∨ message.envelope.kind = .welcome := by
      cases henvelope : message.envelope with
      | hello version cluster clientName => exact Or.inl rfl
      | welcome connectionId => exact Or.inr rfl
      | request id cluster timeoutMs => exact absurd henvelope (hrequest _ _ _)
      | reply id => exact absurd henvelope (hreply _)
      | errorReply id error => exact absurd henvelope (herror _ _)
      | close reason => exact absurd henvelope (hclose _)
    cases h
    exact ⟨taking, .misplaced member _ hmember hkind hfollows hlive, hlink, rfl, rfl⟩

/-- What the first half of a step does. -/
theorem FirstHalf.begins {relay started : Relay} {link : Link} {step : Step} {write : Write}
    (h : FirstHalf relay link step started write) (hlink : relay.link? link.id = some link) :
    link.phase ≠ .ended ∧
      ∃ link', Begins relay.router link (relay.taken? step) started.router link' (some write) ∧
        Turned relay started link link' := by
  cases h with
  | opening message decoder now hphase hnext hmember h =>
      have hlive : link.phase ≠ .ended := by rw [hphase]; exact LinkPhase.noConfusion
      rw [taken?_of_item hlink hphase hnext]
      exact ⟨hlive, begins_of_beginOpening? h hlink hmember (.of_sent rfl rfl rfl rfl rfl) hlive⟩
  | routing message decoder now member hphase hnext hmember h =>
      have hlive : link.phase ≠ .ended := by rw [hphase]; exact LinkPhase.noConfusion
      rw [taken?_of_item hlink hphase hnext]
      exact ⟨hlive, begins_of_beginRouting? h hlink hmember (.of_sent rfl rfl rfl rfl rfl) hlive⟩
  | draining member message router now hphase hmember hdrain =>
      have hlive : link.phase ≠ .ended := by rw [hphase]; exact LinkPhase.noConfusion
      refine ⟨hlive, link.touch now, .drained member message hmember hdrain ?_ hlive, hlink,
        rfl, rfl⟩
      exact .of_sent rfl rfl rfl rfl rfl
  | idling now hidle =>
      simp only [Bool.and_eq_true, decide_eq_true_eq] at hidle
      have hlive : link.phase ≠ .ended := by rw [hidle.1.1]; exact LinkPhase.noConfusion
      exact ⟨hlive, link, .parting idleTimeout false (Or.inl rfl) (.refl link) hlive, hlink,
        rfl, rfl⟩
  | heeding hnotified =>
      simp only [Bool.and_eq_true, decide_eq_true_eq] at hnotified
      have hlive : link.phase ≠ .ended := by rw [hnotified.1]; exact LinkPhase.noConfusion
      refine ⟨hlive, { link with isNotified := false },
        .parting shuttingDown true (Or.inr rfl) ?_ hlive, hlink, rfl, rfl⟩
      exact .of_sent rfl rfl rfl rfl rfl

/-- What the second half of a step does. -/
theorem finishes_finish {relay : Relay} {link : Link} (hlink : relay.link? link.id = some link)
    (write : Write) :
    ∃ link', Finishes relay.router link write (relay.finish link write).router link' ∧
      Turned relay (relay.finish link write) link link' := by
  unfold finish
  split
  · rename_i hending
    rcases became_writeOrEnd relay link write.message with
      ⟨link', hwrite, hbecame⟩ | ⟨hwrite, hbecame⟩
    · obtain ⟨-, -, rfl⟩ := Link.write_eq_some.1 hwrite
      rw [hbecame.router]
      exact ⟨_, .written hending (.of_write hwrite) rfl, hbecame.turned hlink⟩
    · rw [hbecame.router]
      exact ⟨_, .unwritten hending (follows_ended link) rfl, hbecame.turned hlink⟩
  · rename_i withError hending
    have hbecame := became_endLink relay (link.tryWrite write.message) withError
    obtain ⟨written, hwritten, hfollows⟩ := Link.Follows.of_tryWrite link write.message
    rw [hfollows.member] at hbecame
    have hall := hfollows.trans (follows_ended _)
    rw [List.append_nil] at hall
    rw [hbecame.router]
    exact ⟨_, .last withError hending written hwritten hall rfl, hbecame.turned hlink⟩

/-- A step of which no link's task knows: links stay who they are, and the router reads or forgets
at most. -/
structure Aside (relay after : Relay) : Prop where
  router : after.router = relay.router ∨ (∃ member, after.router = relay.router.hangUp member) ∨
    ∃ now, after.router = (relay.router.sweep now).2
  links : ∃ g : Link → Link, after.links = relay.links.map g ∧
    ((relay.links.map Link.id).Nodup → ∀ link ∈ relay.links,
      link.Follows (g link) [] ∧ (g link).phase = link.phase)
  nextLink : after.nextLink = relay.nextLink

theorem Aside.of_links {relay after : Relay}
    (hrouter : after.router = relay.router ∨ (∃ member, after.router = relay.router.hangUp member) ∨
      ∃ now, after.router = (relay.router.sweep now).2)
    (hlinks : after.links = relay.links) (hnext : after.nextLink = relay.nextLink) :
    Aside relay after :=
  ⟨hrouter, ⟨id, hlinks.trans (List.map_id _).symm, fun _ link _ => ⟨.refl link, rfl⟩⟩, hnext⟩

/-- A link that a relay has accepted, or refused. -/
structure Fresh (relay : Relay) (link : Link) : Prop where
  id : link.id = relay.nextLink
  member : link.session.member = none
  sent : (link.phase ≠ .ended ∧ link.sent = []) ∨
    (link.phase = .ended ∧ (link.sent = [] ∨ link.sent = [limitReached]))

/-- What a step does in one go. -/
inductive Change (relay after : Relay) (step : Step) : Prop where
  | aside (haside : Aside relay after) (htaken : relay.taken? step = none)
      (htask : step.link? ≠ none → after.router = relay.router)
  | accepted (link : Link) (hfresh : relay.Fresh link) (hstep : step.link? = none)
      (hrouter : after.router = relay.router) (hlinks : after.links = relay.links ++ [link])
      (hnext : after.nextLink = relay.nextLink + 1) (htaken : relay.taken? step = none)
  | turn (link link' : Link) (hstep : step.link? = some link.id) (hlive : link.phase ≠ .ended)
      (hhalves : Halves relay.router link (relay.taken? step) after.router link')
      (hturned : Turned relay after link link')

theorem taken?_eq_some {relay : Relay} {step : Step} {message : Message}
    (h : relay.taken? step = some message) :
    ∃ link decoder now, step = .readNext link.id now ∧ relay.link? link.id = some link ∧
      link.phase = .reading ∧ link.decoder.nextMessage = (.item message, decoder) := by
  unfold taken? at h
  split at h
  · rename_i id now
    split at h
    · rename_i link hlink
      obtain rfl := id_of_link? hlink
      split at h
      · rename_i item decoder hphase hnext
        cases h
        exact ⟨link, decoder, now, rfl, hlink, hphase, hnext⟩
      · cases h
    · cases h
  · cases h

theorem Turn.change {relay after : Relay} {link link' : Link} {step : Step}
    (h : Turn relay.options relay.router link step after.router link')
    (htask : step.link? = some link.id) (hturned : Turned relay after link link') :
    Change relay after step := by
  obtain ⟨hlive, hhalves⟩ := h.halves hturned.found htask
  exact .turn link link' htask hlive hhalves hturned

theorem Turn.link? {options : RelayOptions} {router router' : Router} {link link' : Link}
    {step : Step}
    (h : Turn options router link step router' link') :
    step.link? = some link.id ∨
      (step = .blockWrites link.id ∧ router' = router ∧
        link' = { link with isWritable := false }) := by
  cases h with
  | blocked => exact Or.inr ⟨rfl, rfl, rfl⟩
  | _ => exact Or.inl rfl

/-- A client that stops taking what is written changes nothing that counts. -/
theorem aside_of_blocked {relay after : Relay} {link : Link}
    (hlink : relay.link? link.id = some link)
    (hrouter : after.router = relay.router)
    (hlinks : after.links = Lookup.replace Link.id { link with isWritable := false } relay.links)
    (hnext : after.nextLink = relay.nextLink) : Aside relay after := by
  refine ⟨Or.inl hrouter, ⟨_, hlinks, ?_⟩, hnext⟩
  intro hids old hold
  by_cases hid : old.id = link.id
  · rw [if_pos hid, Lookup.eq_of_key hids hold (mem_of_link? hlink) hid]
    exact ⟨.of_sent rfl rfl rfl rfl rfl, rfl⟩
  · rw [if_neg hid]
    exact ⟨.refl old, rfl⟩

theorem fresh_new (relay : Relay) (name : String) (remote : SocketAddress) (now : Instant) :
    relay.Fresh (.new relay.nextLink name remote now) :=
  ⟨rfl, rfl, Or.inl ⟨LinkPhase.noConfusion, rfl⟩⟩

/-- A link that is refused hears of it if it can. -/
theorem fresh_refused (relay : Relay) (name : String) (remote : SocketAddress) (now : Instant) :
    relay.Fresh (ended ((Link.new relay.nextLink name remote now).tryWrite limitReached)) := by
  obtain ⟨written, hwritten, hfollows⟩ :=
    Link.Follows.of_tryWrite (Link.new relay.nextLink name remote now) limitReached
  refine ⟨hfollows.id, hfollows.member, Or.inr ⟨rfl, ?_⟩⟩
  rcases hwritten with rfl | rfl
  · exact Or.inl hfollows.sent
  · exact Or.inr hfollows.sent

theorem perform_change (relay : Relay) (step : Step) : Change relay (relay.perform step) step := by
  cases htaken : relay.taken? step with
  | some message =>
      obtain ⟨link, decoder, now, rfl, hlink, hphase, hnext⟩ := taken?_eq_some htaken
      obtain ⟨router', link', hhandled, hbecame⟩ :=
        handle_effect relay.countMessage { link with decoder } message now
      rw [perform, readNext_of_item hlink hphase hnext]
      apply Turn.change
      · rw [hbecame.router]
        exact .handled message decoder now hphase hnext hhandled
      · rfl
      · exact ⟨hlink, hbecame.links, hbecame.nextLink⟩
  | none =>
      cases perform_effect relay step with
      | still hrouter hlinks hnext =>
          exact .aside (.of_links (Or.inl hrouter) hlinks hnext) htaken fun _ => hrouter
      | announced hrouter hlinks hnext =>
          refine .aside ⟨Or.inl hrouter, ⟨_, hlinks, ?_⟩, hnext⟩ htaken fun _ => hrouter
          intro _ link _
          split
          · exact ⟨.refl link, rfl⟩
          · exact ⟨.of_sent rfl rfl rfl rfl rfl, rfl⟩
      | accepted name remote now hstep hrouter hlinks hnext =>
          subst hstep
          rcases hlinks with hlinks | hlinks
          · exact .accepted _ (fresh_new relay name remote now) rfl hrouter hlinks hnext
              htaken
          · exact .accepted _ (fresh_refused relay name remote now) rfl hrouter hlinks hnext
              htaken
      | turn link link' hlink hturn hlinks hnext =>
          rcases hturn.link? with htask | ⟨-, hrouter, rfl⟩
          · exact hturn.change htask ⟨hlink, hlinks, hnext⟩
          · exact .aside (aside_of_blocked hlink hrouter hlinks hnext) htaken fun _ => hrouter
      | hungUp member hstep hrouter hlinks hnext =>
          subst hstep
          exact .aside (.of_links (Or.inr (Or.inl ⟨member, hrouter⟩)) hlinks hnext) htaken
            fun hnone => absurd rfl hnone
      | swept now hstep hrouter hlinks hnext =>
          subst hstep
          exact .aside (.of_links (Or.inr (Or.inr ⟨now, hrouter⟩)) hlinks hnext) htaken
            fun hnone => absurd rfl hnone

end Relay

namespace Interleaved

open Relay (Begins Finishes Turned Aside Change Halves)

/-- The message that a link takes off what it has received in a step. -/
def taken? (state : Interleaved) : Step → Option Message
  | .whole step => if state.isFree step then state.relay.taken? step else none
  | .begin step =>
      if state.isFree step && (state.relay.begin? step).isSome then state.relay.taken? step
      else none
  | .finish _ => none

/-- The task of `link` goes on up to its first write. -/
structure Began (state after : Interleaved) (link link' : Link) (message? : Option Message)
    (write? : Option Write) : Prop where
  free : state.writing link.id = none
  live : link.phase ≠ .ended
  begins : Begins state.relay.router link message? after.relay.router link' write?
  turned : Turned state.relay after.relay link link'
  writing : after.writing = state.put link.id write?

/-- The write that `link` is at comes to its end. -/
structure Finished (state after : Interleaved) (link link' : Link) (write : Write) : Prop where
  busy : state.writing link.id = some write
  finishes : Finishes state.relay.router link write after.relay.router link'
  turned : Turned state.relay after.relay link link'
  writing : after.writing = state.put link.id none

/-- What a step can do. -/
inductive Effect (state after : Interleaved) (step : Step) : Prop where
  | aside (haside : Aside state.relay after.relay) (hwriting : after.writing = state.writing)
      (htaken : state.taken? step = none)
      (htask : step.link? ≠ none → after.relay.router = state.relay.router)
  | accepted (link : Link) (hfresh : state.relay.Fresh link) (hstep : step.link? = none)
      (hrouter : after.relay.router = state.relay.router)
      (hlinks : after.relay.links = state.relay.links ++ [link])
      (hnext : after.relay.nextLink = state.relay.nextLink + 1)
      (hwriting : after.writing = state.writing) (htaken : state.taken? step = none)
  | began (link link' : Link) (write? : Option Write) (hstep : step.link? = some link.id)
      (hbegan : Began state after link link' (state.taken? step) write?)
  | finished (link link' : Link) (write : Write) (hstep : step.link? = some link.id)
      (htaken : state.taken? step = none) (hfinished : Finished state after link link' write)
  /-- Both halves of a step at once. -/
  | through (middle : Interleaved) (link link' link'' : Link) (write : Write)
      (hstep : step.link? = some link.id)
      (hbegan : Began state middle link link' (state.taken? step) (some write))
      (hfinished : Finished middle after link' link'' write)

/-- Nothing happens. -/
theorem effect_refl {state : Interleaved} {step : Step} (htaken : state.taken? step = none) :
    Effect state state step := .aside (.of_links (Or.inl rfl) rfl rfl) rfl htaken fun _ => rfl

theorem put_none {state : Interleaved} {id : LinkId} (hfree : state.writing id = none) :
    state.put id none = state.writing := by
  funext other
  unfold put
  split
  · rename_i hother
    rw [hother, hfree]
  · rfl

theorem whole_effect (state : Interleaved) (step : Relay.Step) :
    Effect state (state.perform (.whole step)) (.whole step) := by
  rcases perform_whole state step with ⟨hsame, hfree⟩ | ⟨hafter, hfree⟩
  · rw [hsame]
    exact effect_refl (by simp [taken?, hfree])
  · have htaken : state.taken? (.whole step) = state.relay.taken? step := by simp [taken?, hfree]
    rw [hafter]
    cases Relay.perform_change state.relay step with
    | aside haside hnone htask => exact .aside haside rfl (htaken.trans hnone) htask
    | accepted link hfresh hstep hrouter hlinks hnext hnone =>
        exact .accepted link hfresh hstep hrouter hlinks hnext rfl (htaken.trans hnone)
    | turn link link' hstep hlive hhalves hturned =>
        have hidle := writing_of_isFree hstep hfree
        cases hhalves with
        | one hbegins =>
            refine .began link link' none hstep ⟨hidle, hlive, ?_, hturned, ?_⟩
            · rw [htaken]
              exact hbegins
            · exact (put_none hidle).symm
        | @two router' _ middle _ write hbegins hfinishes =>
            -- Between the halves there is a relay that nobody sees.
            have hid : middle.id = link.id := hbegins.id
            refine .through
              { relay := ({ state.relay with router := router' } : Relay).setLink middle
                writing := state.put link.id (some write) }
              link middle link' write hstep ⟨hidle, hlive, ?_, ⟨hturned.found, rfl, rfl⟩, rfl⟩
              ⟨?_, hfinishes, ⟨?_, ?_, hturned.nextLink⟩, ?_⟩
            · rw [htaken]
              exact hbegins
            · exact if_pos hid
            · rw [hid]
              exact Relay.link?_of_links middle hturned.found hid rfl
            · rw [Relay.links_setLink, Lookup.replace_replace hfinishes.id.symm]
              exact hturned.links
            · rw [hid]
              exact (put_put state link.id write hidle).symm

theorem begin_effect (state : Interleaved) (step : Relay.Step) :
    Effect state (state.perform (.begin step)) (.begin step) := by
  rcases perform_begin state step with
      ⟨hsame, hnothing⟩ | ⟨link, started, write, htask, hlink, hhalf, hfree, hbegin, hafter⟩
  · rw [hsame]
    exact effect_refl (if_neg (by rw [hnothing]; exact Bool.false_ne_true))
  · obtain ⟨hlive, link', hbegins, hturned⟩ := hhalf.begins hlink
    have htaken : state.taken? (.begin step) = state.relay.taken? step := by
      simp [taken?, hbegin, hfree]
    rw [hafter]
    refine .began link link' (some write) htask
      ⟨writing_of_isFree htask hfree, hlive, ?_, hturned, rfl⟩
    rw [htaken]
    exact hbegins

theorem finish_effect (state : Interleaved) (id : LinkId) :
    Effect state (state.perform (.finish id)) (.finish id) := by
  rcases perform_finish state id with hsame | ⟨link, write, rfl, hlink, hwriting, hafter⟩
  · rw [hsame]
    exact effect_refl rfl
  · obtain ⟨link', hfinishes, hturned⟩ := Relay.finishes_finish hlink write
    rw [hafter]
    exact .finished link link' write rfl rfl ⟨hwriting, hfinishes, hturned, rfl⟩

/-- Every step has one of the effects listed. -/
theorem perform_effect (state : Interleaved) (step : Step) :
    Effect state (state.perform step) step := by
  cases step with
  | whole step => exact whole_effect state step
  | begin step => exact begin_effect state step
  | finish id => exact finish_effect state id

end Interleaved

end Switchboard
