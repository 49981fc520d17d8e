import Switchboard.Proofs.Relay.Sessions

/-!
# How links end

The task of a link ends in few ways: its client is gone or takes its leave, nothing came or went for
too long, the relay ends, the stream is out of step, the opening is refused, or a write fails.
`Exits` lists them for steps that are taken in one go, and for the second halves of steps. A step
ends a link just if it is listed, and a link that has ended stays so (`ended_iff`).
-/

namespace Switchboard

/-- Who a link is does not count for whether it can be written on. -/
theorem Link.write_eq_none_congr {link link' : Link} (h : link'.isWritable = link.isWritable)
    (message : Message) : link'.write message = none ↔ link.write message = none := by
  unfold Link.write
  rw [h]
  cases message.encode with
  | error fault => exact Iff.rfl
  | ok bytes => cases link.isWritable <;> simp

/-- What is written leaves the phase of a link. -/
theorem Link.phase_of_write {link link' : Link} {message : Message}
    (h : link.write message = some link') : link'.phase = link.phase := by
  obtain ⟨-, -, rfl⟩ := Link.write_eq_some.1 h
  rfl

namespace Relay

/-! ## A message that ends its link -/

/-- A message with which the task of `link` ends. -/
inductive Parts (link : Link) (message : Message) : Prop
  /-- The client takes its leave. -/
  | closed (reason : Option String) (hmessage : message.envelope = .close reason)
  /-- The first message does not open a session. -/
  | refused (error : RelayError) (hmember : link.session.member = none)
      (hopening : openingFault? message = some error)
  /-- The session is opened, but it cannot be welcomed. -/
  | unwelcomed (hmember : link.session.member = none) (hopening : openingFault? message = none)
      (hwrite : link.write (.welcome link.name) = none)
  /-- The message makes no sense where it stands, and that cannot be answered. -/
  | unheard (hmember : link.session.member ≠ none)
      (hmessage : message.envelope.kind = .hello ∨ message.envelope.kind = .welcome)
      (hwrite : link.write (.errorReply .none .badRequest
        s!"unexpected {message.envelope.kind.name} after handshake") = none)

/-- Of a session that has joined, the task ends with a close, or where an answer cannot be
written. -/
theorem Parts.of_member {link : Link} {message : Message} {member : MemberId}
    (h : Parts link message) (hmember : link.session.member = some member) :
    message.envelope.kind = .close ∨
      ((message.envelope.kind = .hello ∨ message.envelope.kind = .welcome) ∧
        link.write (.errorReply .none .badRequest
          s!"unexpected {message.envelope.kind.name} after handshake") = none) := by
  cases h with
  | closed reason hmessage =>
      rw [hmessage]
      exact Or.inl rfl
  | refused error hnone hopening =>
      rw [hmember] at hnone
      cases hnone
  | unwelcomed hnone hopening hwrite =>
      rw [hmember] at hnone
      cases hnone
  | unheard hsome hmessage hwrite => exact Or.inr ⟨hmessage, hwrite⟩

/-- What has been received does not count for whether a message ends its link. -/
theorem Parts.congr {link link' : Link} {message : Message} (h : Parts link message)
    (hmember : link'.session.member = link.session.member) (hname : link'.name = link.name)
    (hwritable : link'.isWritable = link.isWritable) : Parts link' message := by
  have hwrite := fun answer => (Link.write_eq_none_congr hwritable answer).2
  cases h with
  | closed reason hmessage => exact .closed reason hmessage
  | refused error hnone hopening => exact .refused error (hmember.trans hnone) hopening
  | unwelcomed hnone hopening hunwritten =>
      refine .unwelcomed (hmember.trans hnone) hopening ?_
      rw [hname]
      exact hwrite _ hunwritten
  | unheard hsome hmessage hunwritten =>
      refine .unheard ?_ hmessage (hwrite _ hunwritten)
      rw [hmember]
      exact hsome

/-- What is dealt with ends its link just if it is listed. -/
theorem Handled.ended_iff {options : RelayOptions} {router router' : Router} {link link' : Link}
    {message : Message} {now : Instant} (h : Handled options router link message now router' link')
    (hlive : link.phase ≠ .ended) : link'.phase = .ended ↔ Parts link message := by
  have hsession : ∀ (link : Link) session, { link with session }.isWritable = link.isWritable :=
    fun _ _ => rfl
  cases h with
  | closed reason hmessage => exact ⟨fun _ => .closed reason hmessage, fun _ => rfl⟩
  | welcomed version cluster clientName link' hmember hmessage hopening hwrite =>
      -- The welcome is written behind the handshake, which does not count for the write.
      generalize hjoined : link.session.completeHandshake cluster clientName router.nextMember =
        session at hwrite
      have hphase := Link.phase_of_write hwrite
      have hsame := Link.write_eq_none_congr (hsession link session) (.welcome link.name)
      rw [hphase]
      refine iff_of_false hlive ?_
      rintro (⟨reason, hclose⟩ | ⟨error, -, hfault⟩ | ⟨-, -, hnone⟩ | ⟨hsome, -, -⟩)
      · rw [hmessage] at hclose
        cases hclose
      · rw [hopening] at hfault
        cases hfault
      · rw [hsame.2 hnone] at hwrite
        cases hwrite
      · exact hsome hmember
  | unwelcomed version cluster clientName session hmember hmessage hopening hjoined hwrite =>
      have hsame := Link.write_eq_none_congr (hsession link session) (.welcome link.name)
      have hunwritten : link.write (.welcome link.name) = none := hsame.1 hwrite
      exact ⟨fun _ => .unwelcomed hmember hopening hunwritten, fun _ => rfl⟩
  | refused error hmember hopening hmessage =>
      exact ⟨fun _ => .refused error hmember hopening, fun _ => rfl⟩
  | request member id cluster timeoutMs hmember hmessage =>
      -- Of a member that has joined, only a message of another kind ends the link.
      refine iff_of_false hlive fun hparts => ?_
      have hkind : message.envelope.kind = .request := by rw [hmessage]; rfl
      rcases hparts.of_member hmember with h | ⟨h | h, -⟩ <;> cases hkind.symm.trans h
  | answer member hmember hmessage =>
      refine iff_of_false hlive fun hparts => ?_
      have hkind : message.envelope.kind = .reply ∨ message.envelope.kind = .errorReply := by
        unfold Message.isAnswer at hmessage
        split at hmessage <;> simp_all [Envelope.kind]
      rcases hkind with hkind | hkind <;>
        rcases hparts.of_member hmember with h | ⟨h | h, -⟩ <;> cases hkind.symm.trans h
  | misplaced member link' hmember hmessage hwrite =>
      have hphase : link'.phase = link.phase := Link.phase_of_write hwrite
      rw [hphase]
      refine iff_of_false hlive fun hparts => ?_
      rcases hparts.of_member hmember with h | ⟨-, hnone⟩
      · rcases hmessage with hkind | hkind <;> cases hkind.symm.trans h
      · rw [hnone] at hwrite
        cases hwrite
  | unheard member hmember hmessage hwrite =>
      have hsome : link.session.member ≠ none := by
        rw [hmember]
        exact Option.some_ne_none member
      exact ⟨fun _ => .unheard hsome hmessage hwrite, fun _ => rfl⟩

/-! ## A step that ends its link -/

/-- The task of `link` takes a step with which it ends. -/
inductive Exits (relay : Relay) (link : Link) : Step → Prop
  /-- The stream ends, or breaks, while the link waits. -/
  | foundEnd (broken : Bool) (hphase : link.phase = .waiting) :
      Exits relay link (.receiveEnd link.id broken)
  /-- Nothing came or went for as long as the options allow. -/
  | idled (now : Instant) (hphase : link.phase = .waiting)
      (hlimit : relay.options.idleTimeout ≠ .zero)
      (hdue : link.lastActive.after relay.options.idleTimeout ≤ now) :
      Exits relay link (.endIdle link.id now)
  /-- The relay has announced its end. -/
  | heeded (hphase : link.phase = .waiting) (hnotified : link.isNotified = true) :
      Exits relay link (.heedEnd link.id)
  /-- What has been received is out of step. -/
  | outOfStep (fault : ProtocolError) (decoder : Decoder) (now : Instant)
      (hphase : link.phase = .reading)
      (hnext : link.decoder.nextMessage = (.failed fault, decoder))
      (hfault : fault.isRecoverable = false) :
      Exits relay link (.readNext link.id now)
  /-- A message is taken that ends the link. -/
  | parted (message : Message) (decoder : Decoder) (now : Instant)
      (hphase : link.phase = .reading)
      (hnext : link.decoder.nextMessage = (.item message, decoder)) (hparts : Parts link message) :
      Exits relay link (.readNext link.id now)
  /-- A message from the outbox cannot be written. -/
  | unwritten (member : MemberId) (message : Message) (router : Router) (now : Instant)
      (hphase : link.phase = .waiting) (hmember : link.session.member = some member)
      (hdrain : relay.router.drain member (some 1) = (some [message], router))
      (hwrite : link.write message = none) :
      Exits relay link (.forward link.id now)

variable {relay after : Relay} {link link' : Link} {step : Step}

/-- The link of a name is there, and it has ended. -/
def HasEnded (relay : Relay) (id : LinkId) : Prop :=
  ∃ link, relay.link? id = some link ∧ link.phase = .ended

theorem Became.hasEnded {router : Router} (h : Became relay after router link')
    (hlink : relay.link? link.id = some link) (hid : link'.id = link.id)
    (hended : link'.phase = .ended) : after.HasEnded link.id :=
  ⟨link', link?_of_links link' hlink hid h.links, hended⟩

theorem id_tryWrite (link : Link) (message : Message) : (link.tryWrite message).id = link.id := by
  obtain ⟨written, -, hfollows⟩ := Link.Follows.of_tryWrite link message
  exact hfollows.id

theorem isWritable_touch (link : Link) (now : Instant) :
    (link.touch now).isWritable = link.isWritable := rfl

/-- A link is found ended behind a step that is listed for it. -/
theorem Exits.hasEnded (h : relay.Exits link step) (hlink : relay.link? link.id = some link) :
    (relay.perform step).HasEnded link.id := by
  cases h with
  | foundEnd broken hphase =>
      have hbecame := became_endLink relay link broken
      simp only [perform, receiveEnd, hlink, hphase, if_true]
      exact hbecame.hasEnded hlink rfl rfl
  | idled now hphase hlimit hdue =>
      have hbecame := became_endLink relay (link.tryWrite idleTimeout) false
      -- The guard of the step, as it is evaluated.
      have hidle : (link.phase = .waiting && relay.options.idleTimeout ≠ .zero &&
          link.lastActive.after relay.options.idleTimeout ≤ now) = true := by
        simp [hphase, hlimit, hdue]
      simp only [perform, endIdle, hlink, hidle, if_true]
      exact hbecame.hasEnded hlink (id_tryWrite link idleTimeout) rfl
  | heeded hphase hnotified =>
      have hbecame :=
        became_endLink relay { link.tryWrite shuttingDown with isNotified := false } true
      simp only [perform, heedEnd, hlink, hphase, hnotified, decide_true, Bool.and_self, if_true]
      exact hbecame.hasEnded hlink (id_tryWrite link shuttingDown) rfl
  | outOfStep fault decoder now hphase hnext hfault =>
      have hbecame := became_endLink relay { link with decoder } true
      simp only [perform, readNext, hlink, hphase, if_true, hnext, hfault, Bool.false_eq_true,
        if_false]
      rw [← hphase]
      exact hbecame.hasEnded hlink rfl rfl
  | parted message decoder now hphase hnext hparts =>
      obtain ⟨router', link', hhandled, hbecame⟩ :=
        handle_effect relay.countMessage { link with decoder } message now
      have hlive : link.phase ≠ .ended := by rw [hphase]; exact LinkPhase.noConfusion
      -- The message is dealt with by the link behind its reading, whose buffer is another one.
      have hended := (hhandled.ended_iff hlive).2 (hparts.congr rfl rfl rfl)
      rw [perform, readNext_of_item hlink hphase hnext]
      exact hbecame.hasEnded hlink hhandled.continues.id hended
  | unwritten member message router now hphase hmember hdrain hwrite =>
      have hunwritten : (link.touch now).write message = none :=
        (Link.write_eq_none_congr (isWritable_touch link now) message).2 hwrite
      have hbecame := became_endLink { relay with router } (link.touch now) true
      simp only [perform, forward, hlink, hphase, hmember, hdrain, writeOrEnd, hunwritten]
      exact hbecame.hasEnded hlink rfl rfl

/-- A turn of a link that is not listed leaves it ended, or not ended, as it was. -/
theorem Turn.ended_iff {router' : Router}
    (h : Turn relay.options relay.router link step router' link') (hnot : ¬ relay.Exits link step) :
    link'.phase = .ended ↔ link.phase = .ended := by
  cases h with
  | received data now hphase =>
      rw [hphase]
      exact iff_of_false LinkPhase.noConfusion LinkPhase.noConfusion
  | waited decoder now hphase hnext =>
      rw [hphase]
      exact iff_of_false LinkPhase.noConfusion LinkPhase.noConfusion
  | skipped fault decoder now hphase hnext hfault => exact Iff.rfl
  | failed fault decoder now hphase hnext hfault =>
      exact absurd (.outOfStep fault decoder now hphase hnext hfault) hnot
  | handled message decoder now hphase hnext hhandled =>
      have hlive : link.phase ≠ .ended := by rw [hphase]; exact LinkPhase.noConfusion
      refine iff_of_false (fun hended => hnot ?_) hlive
      have hparts := (hhandled.ended_iff hlive).1 hended
      exact .parted message decoder now hphase hnext (hparts.congr rfl rfl rfl)
  | foundEnd broken hphase => exact absurd (.foundEnd broken hphase) hnot
  | forwarded member message now router' link' hphase hmember hdrain hwrite =>
      have hsame : link'.phase = (link.touch now).phase := Link.phase_of_write hwrite
      rw [hsame]
      exact Iff.rfl
  | unwritten member message now router' hphase hmember hdrain hwrite =>
      have hunwritten := (Link.write_eq_none_congr (isWritable_touch link now) message).1 hwrite
      exact absurd (.unwritten member message router' now hphase hmember hdrain hunwritten) hnot
  | idled now hphase hlimit hdue => exact absurd (.idled now hphase hlimit hdue) hnot
  | heeded hphase hnotified => exact absurd (.heeded hphase hnotified) hnot
  | blocked => exact Iff.rfl

/-- Behind a step the link of a name is still there, and has ended just if it had ended before or
the step is listed for it. -/
theorem ended_iff (hlink : relay.link? link.id = some link) (step : Step) :
    ∃ link', (relay.perform step).link? link.id = some link' ∧
      (link'.phase = .ended ↔ link.phase = .ended ∨ relay.Exits link step) := by
  by_cases hexits : relay.Exits link step
  · obtain ⟨link', hlink', hended⟩ := hexits.hasEnded hlink
    exact ⟨link', hlink', iff_of_true hended (Or.inr hexits)⟩
  · rw [or_iff_left hexits]
    -- By what the step comes to: it leaves the links alone, tells all of them something that is not
    -- their phase, adds one behind them, or is a turn of a link that has this name or another.
    have hsame : (relay.perform step).links = relay.links →
        ∃ link', (relay.perform step).link? link.id = some link' ∧
          (link'.phase = .ended ↔ link.phase = .ended) := by
      intro hlinks
      unfold link? at hlink ⊢
      rw [hlinks]
      exact ⟨link, hlink, Iff.rfl⟩
    cases perform_effect relay step with
    | still hrouter hlinks hnext => exact hsame hlinks
    | announced hrouter hlinks hnext =>
        have hid : ∀ other : Link,
            (if other.phase = .ended then other else { other with isNotified := true }).id =
              other.id := by
          intro other
          split <;> rfl
        refine ⟨_, by rw [link?_of_map hlinks hid, hlink, Option.map_some], ?_⟩
        by_cases hended : link.phase = .ended
        · rw [if_pos hended]
        · rw [if_neg hended]
    | accepted name remote now hstep hrouter hlinks hnext =>
        unfold link? at hlink ⊢
        rcases hlinks with hlinks | hlinks
        · rw [hlinks, List.find?_append, hlink]
          exact ⟨link, rfl, Iff.rfl⟩
        · rw [hlinks, List.find?_append, hlink]
          exact ⟨link, rfl, Iff.rfl⟩
    | turn other other' hother hturn hlinks hnext =>
        have hid := hturn.continues.id
        by_cases hname : link.id = other.id
        · obtain rfl : other = link := Option.some.inj ((hname ▸ hother.symm).trans hlink)
          exact ⟨other', link?_of_links other' hother hid hlinks, hturn.ended_iff hexits⟩
        · refine ⟨link, ?_, Iff.rfl⟩
          rw [link?_of_links_ne (hid ▸ hname) hlinks]
          exact hlink
    | hungUp member hstep hrouter hlinks hnext => exact hsame hlinks
    | swept now hstep hrouter hlinks hnext => exact hsame hlinks

/-! ## The second half of a step -/

theorem Exits.link? (h : relay.Exits link step) : step.link? = some link.id := by
  cases h <;> rfl

/-- A write ends its link if it is the last one, or if it fails. -/
theorem finish_ended_iff (hlink : relay.link? link.id = some link) (hlive : link.phase ≠ .ended)
    (write : Write) :
    ∃ link', (relay.finish link write).link? link.id = some link' ∧
      (link'.phase = .ended ↔ write.ending ≠ none ∨ link.write write.message = none) := by
  unfold finish
  split
  · rename_i hending
    rw [hending, or_iff_right (not_not.2 rfl)]
    rcases became_writeOrEnd relay link write.message with
      ⟨link', hwrite, hbecame⟩ | ⟨hwrite, hbecame⟩
    · have hid := (Link.continues_of_write hwrite).id
      refine ⟨link', link?_of_links link' hlink hid hbecame.links, ?_⟩
      rw [Link.phase_of_write hwrite, hwrite]
      exact iff_of_false hlive (Option.some_ne_none link')
    · exact ⟨ended link, link?_of_links _ hlink rfl hbecame.links, iff_of_true rfl hwrite⟩
  · rename_i withError hending
    have hbecame := became_endLink relay (link.tryWrite write.message) withError
    have hid := id_tryWrite link write.message
    rw [hending]
    refine ⟨ended (link.tryWrite write.message), ?_, ?_⟩
    · exact link?_of_links (ended _) hlink hid hbecame.links
    · exact iff_of_true rfl (Or.inl (Option.some_ne_none withError))

/-- Links of other names are found as before. -/
theorem Turned.link?_of_ne (h : Turned relay after link link') (hid : link'.id = link.id)
    {id : LinkId} (hne : id ≠ link.id) : after.link? id = relay.link? id :=
  link?_of_links_ne (hid ▸ hne) h.links

end Relay

namespace Interleaved

/-- The task of `link` takes a step with which it ends. -/
inductive Exits (state : Interleaved) (link : Link) : Step → Prop
  /-- It is at no write, and takes a step that is listed. -/
  | whole (step : Relay.Step) (hfree : state.writing link.id = none)
      (hexits : state.relay.Exits link step) : Exits state link (.whole step)
  /-- What it was about to write was its last word. -/
  | parted (write : Write) (hwriting : state.writing link.id = some write)
      (hlast : write.ending ≠ none) : Exits state link (.finish link.id)
  /-- What it was about to write cannot be written. -/
  | unwritten (write : Write) (hwriting : state.writing link.id = some write)
      (hwrite : link.write write.message = none) : Exits state link (.finish link.id)

variable {state : Interleaved} {link : Link}

theorem exits_whole_iff {step : Relay.Step} :
    state.Exits link (.whole step) ↔
      state.writing link.id = none ∧ state.relay.Exits link step := by
  constructor
  · intro h
    cases h with
    | whole _ hfree hexits => exact ⟨hfree, hexits⟩
  · rintro ⟨hfree, hexits⟩
    exact .whole step hfree hexits

theorem exits_finish_iff {id : LinkId} :
    state.Exits link (.finish id) ↔ id = link.id ∧ ∃ write, state.writing link.id = some write ∧
      (write.ending ≠ none ∨ link.write write.message = none) := by
  constructor
  · intro h
    cases h with
    | parted write hwriting hlast => exact ⟨rfl, write, hwriting, Or.inl hlast⟩
    | unwritten write hwriting hwrite => exact ⟨rfl, write, hwriting, Or.inr hwrite⟩
  · rintro ⟨rfl, write, hwriting, hlast | hwrite⟩
    · exact .parted write hwriting hlast
    · exact .unwritten write hwriting hwrite

/-- Along a run, a link is found behind each step. It has ended just if it had ended before, or the
step is one with which it ends. -/
theorem ended_iff {heard : LinkId → List Message} (hsessions : Sessions heard state)
    (hlink : state.relay.link? link.id = some link) (step : Step) :
    ∃ link', (state.perform step).relay.link? link.id = some link' ∧
      (link'.phase = .ended ↔ link.phase = .ended ∨ state.Exits link step) := by
  -- A step that does not change the link is none with which it ends.
  have hsame : (state.perform step).relay.link? link.id = state.relay.link? link.id →
      ¬ state.Exits link step →
        ∃ link', (state.perform step).relay.link? link.id = some link' ∧
          (link'.phase = .ended ↔ link.phase = .ended ∨ state.Exits link step) := by
    intro hfound hexits
    rw [or_iff_left hexits]
    exact ⟨link, hfound.trans hlink, Iff.rfl⟩
  cases step with
  | whole step =>
      rw [exits_whole_iff] at hsame ⊢
      rcases perform_whole state step with ⟨hstill, hfree⟩ | ⟨hafter, hfree⟩
      · apply hsame
        · rw [hstill]
        · rintro ⟨hidle, hexits⟩
          simp [isFree, hexits.link?, hidle] at hfree
      · have hidle : state.relay.Exits link step → state.writing link.id = none :=
          fun hexits => writing_of_isFree hexits.link? hfree
        rw [hafter, and_iff_right_of_imp hidle]
        exact Relay.ended_iff hlink step
  | begin step =>
      have hnot : ¬ state.Exits link (.begin step) := nofun
      rcases perform_begin state step with
        ⟨hstill, -⟩ | ⟨other, started, write, htask, hother, hhalf, hfree, hbegin, hafter⟩
      · apply hsame _ hnot
        rw [hstill]
      · -- A link that is about to write has not ended, neither before the half step nor behind it.
        obtain ⟨hlive, other', hbegins, hturned⟩ := hhalf.begins hother
        by_cases hname : link.id = other.id
        · obtain rfl : other = link := Option.some.inj ((hname ▸ hother.symm).trans hlink)
          rw [hafter]
          refine ⟨other', Relay.link?_of_links other' hother hbegins.id hturned.links, ?_⟩
          exact iff_of_false hbegins.live (not_or.2 ⟨hlive, hnot⟩)
        · apply hsame _ hnot
          rw [hafter]
          exact hturned.link?_of_ne hbegins.id hname
  | finish id =>
      rw [exits_finish_iff] at hsame ⊢
      by_cases hname : id = link.id
      · subst hname
        rcases hwriting : state.writing link.id with _ | write
        · rw [hwriting] at hsame
          apply hsame
          · simp only [perform, hwriting]
          · rintro ⟨-, write, hwrite, -⟩
            cases hwrite
        · -- In a run, a link at a write has not ended, so it ends by this half step or not at all.
          have hlive := hsessions.live_of_writing (Relay.mem_of_link? hlink) hwriting
          obtain ⟨link', hlink', hended⟩ := Relay.finish_ended_iff hlink hlive write
          simp only [perform, hwriting, hlink]
          refine ⟨link', hlink', hended.trans ?_⟩
          simp [hlive]
      · apply hsame
        · rcases perform_finish state id with hstill | ⟨other, write, rfl, hother, hwriting, hafter⟩
          · rw [hstill]
          · obtain ⟨other', hfinishes, hturned⟩ := Relay.finishes_finish hother write
            rw [hafter]
            exact hturned.link?_of_ne hfinishes.id (Ne.symm hname)
        · exact fun h => hname h.1

end Interleaved

end Switchboard
