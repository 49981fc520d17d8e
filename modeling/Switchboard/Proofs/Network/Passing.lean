import Switchboard.Proofs.Network.Telling

/-!
# What passes between a client and its link

Whatever a relay does, its clients stay in step with the log: a link takes off what has been sent
with reason, and what a client is told comes behind what is on its way to it (`InStep.relayed`). So
they do when bytes arrive and go on their way, when a stream breaks off, and when a client connects.
-/

namespace Switchboard

section Passing

variable {log new : List Event} {drawn : Nat} {relay after : Relay} {peer : Peer}
  {link link' : Link}
  {ahead behind flight : List Message} {missing : ByteArray}

/-! ## What a link takes off -/

/-- The first of the messages that are on their way is taken off. -/
theorem Uplink.taken {message : Message} (h : Uplink log link peer ahead behind missing)
    (hitem : link.decoder.nextMessage.1 = .item message)
    (hdecoder : link'.decoder = link.decoder.nextMessage.2) :
    ∃ ahead', ahead = message :: ahead' ∧ Uplink log link' peer ahead' behind missing := by
  have hspelled := h.spelled
  rw [ByteArray.append_assoc] at hspelled
  rcases Decoder.nextMessage_spell
    (fun other hother => h.fits other (List.mem_append_left _ hother))
    hspelled with hnext | ⟨first, others, next, hahead, hnext, hrest⟩
  · rw [hnext] at hitem
    cases hitem
  · rw [hnext] at hitem hdecoder
    cases hitem
    refine ⟨others, hahead, ?_, h.unwritten, h.frames, ?_, ?_⟩
    · rw [hdecoder, ByteArray.append_assoc]
      exact hrest
    · intro other hother
      refine h.fits other ?_
      rw [hahead]
      exact List.mem_cons_of_mem _ hother
    · refine h.due.of_sublist (telling_sublist ?_)
      rw [hahead]
      exact List.sublist_cons_self _ _

/-- A link takes off one message at most. -/
theorem Uplink.next (h : Uplink log link peer ahead behind missing)
    (hdecoder : link'.decoder = link.decoder ∨ link'.decoder = link.decoder.nextMessage.2) :
    ∃ ahead', Uplink log link' peer ahead' behind missing := by
  have hstill :
      link'.decoder = link.decoder → ∃ ahead', Uplink log link' peer ahead' behind missing :=
    fun hsame => ⟨ahead, hsame ▸ h.spelled, h.unwritten, h.frames, h.fits, h.due⟩
  rcases hdecoder with hsame | hnext
  · exact hstill hsame
  · have hspelled := h.spelled
    rw [ByteArray.append_assoc] at hspelled
    rcases Decoder.nextMessage_spell
      (fun other hother => h.fits other (List.mem_append_left _ hother))
      hspelled with hneed | ⟨message, others, next, -, hitem, -⟩
    · rw [hneed] at hnext
      exact hstill hnext
    · obtain ⟨ahead', -, htaken⟩ := h.taken (congrArg Prod.fst hitem) hnext
      exact ⟨ahead', htaken⟩

/-- What a link takes off next has been sent with reason, and a request has not been routed
before. -/
theorem InStep.heeds (h : InStep log drawn relay peer link) {message : Message}
    (hitem : link.decoder.nextMessage.1 = .item message) :
    (message.isTelling = true → Sent log peer.link message) ∧
      ∀ number ∈ asking [message], .request peer.link number ∉ marks log := by
  obtain ⟨ahead, behind, missing, huplink⟩ := h.uplink
  obtain ⟨ahead', hahead, -⟩ : ∃ ahead', ahead = message :: ahead' ∧
      Uplink log { link with decoder := link.decoder.nextMessage.2 } peer ahead' behind missing :=
    huplink.taken hitem rfl
  have hdue := huplink.due
  rw [hahead, List.cons_append, ← List.singleton_append] at hdue
  have hfirst := hdue.of_sublist (telling_sublist (List.sublist_append_left [message] _))
  refine ⟨fun htelling => hfirst.each message ?_, hfirst.unused⟩
  exact List.mem_filter.2 ⟨List.mem_singleton_self _, htelling⟩

/-! ## What a client is told -/

/-- At most one message comes behind the others. -/
theorem Due.append {P : Message → Prop} {used : RequestId → Prop} {messages : List Message}
    (h : Due P used messages) {news : Option Message}
    (hP : ∀ message ∈ telling news.toList, P message)
    (hnew : ∀ id ∈ asking news.toList, id ∉ asking messages ∧ ¬ used id) :
    Due P used (messages ++ news.toList) := by
  cases news with
  | none =>
      rw [Option.toList_none, List.append_nil]
      exact h
  | some message =>
      refine h.concat (fun htelling => hP message ?_) hnew
      exact List.mem_filter.2 ⟨List.mem_singleton_self _, htelling⟩

/-- What a client is told comes behind what is on its way to it. -/
theorem Downlink.hears {news : Option Message} (h : Downlink log relay link peer flight)
    (hlog : Coherent log) (hid : link.id = peer.link)
    (hhears : Hears log new relay after link link' news)
    (hnew : ∀ id, .passed peer.link id ∉ marks new) :
    Downlink (log ++ new) after link' peer flight := by
  obtain ⟨written, hsent, hfits, hsub⟩ := hhears.sent
  have hgrown := h.grow new hnew
  have hshipped := h.shipped
  refine ⟨?_, h.spelled, h.fits, ?_⟩
  · rw [hsent, List.length_append]
    omega
  · have hnumber : ∀ id ∈ asking news.toList, id ∉ asking (flight ++ link.sent.drop peer.shipped ++
        relay.router.queuedFor link.session.member) ∧
          .passed peer.link id ∉ marks (log ++ new) := by
      intro id hid
      refine ⟨fun hold => hhears.fresh id hid (h.due.route_of_asking hold), fun hpassed => ?_⟩
      rcases mem_marks_append.1 hpassed with hpassed | hpassed
      · exact hhears.fresh id hid (hlog.route_of_passed hpassed)
      · exact hnew id hpassed
    have hbehind :=
      hgrown.due.append (fun message hmessage => hid ▸ hhears.told message hmessage) hnumber
    refine hbehind.of_sublist ?_
    rw [hsent, List.drop_append_of_le_length hshipped]
    simp only [telling_append, List.append_assoc] at hsub ⊢
    exact (List.Sublist.refl _).append ((List.Sublist.refl _).append hsub)

/-- What a relay does leaves a client in step. Bytes on their way from it may have arrived. -/
theorem InStep.relayed {bytes : ByteArray} (h : InStep log drawn relay peer link)
    (hlog : Coherent log) (htale : Tale log new relay after)
    (hlink' : after.link? peer.link = some link')
    (huplink : ∃ ahead behind missing,
      Uplink (log ++ new) link' { peer with toRelay := bytes } ahead behind missing) :
    InStep (log ++ new) drawn after { peer with toRelay := bytes } link' := by
  obtain ⟨flight, hdownlink⟩ := h.downlink
  obtain ⟨next, news, hnext, hhears⟩ := htale.links peer.link link h.found
  rw [hlink', Option.some.injEq] at hnext
  subst hnext
  have hafter := hdownlink.hears hlog (Relay.id_of_link? h.found) hhears fun id hmark => by
    rcases htale.names _ hmark with ⟨_, _, hsame⟩ | ⟨_, hsame⟩ <;> cases hsame
  refine ⟨hlink', huplink, ⟨flight, hafter.shipped, hafter.spelled, hafter.fits, hafter.due⟩,
    ?_, ?_⟩
  · intro mark hmark
    rcases mem_marks_append.1 hmark with hold | hmark
    · exact (h.knows mark hold).mono rfl (Nat.le_refl _) (Nat.le_refl _) (Nat.le_refl drawn)
    · rcases htale.names mark hmark with ⟨id, number, rfl⟩ | ⟨id, rfl⟩ <;> trivial
  · intro conn hconn
    refine (h.ledger conn hconn).grow new ?_ ?_
    · intro call _ hmark
      rcases htale.names _ hmark with ⟨_, _, hsame⟩ | ⟨_, hsame⟩ <;> cases hsame
    · intro service _ hmark
      rcases htale.names _ hmark with ⟨_, _, hsame⟩ | ⟨_, hsame⟩ <;> cases hsame

/-- A request that is routed now has been taken off, and is not on its way any more. -/
theorem Uplink.relayed (h : Uplink log link peer ahead behind missing)
    (hfound : relay.link? peer.link = some link) (htale : Tale log new relay after)
    (hlink' : after.link? peer.link = some link')
    (hdecoder : link'.decoder = link.decoder ∨ link'.decoder = link.decoder.nextMessage.2) :
    ∃ ahead', Uplink (log ++ new) link' peer ahead' behind missing := by
  by_cases hany : ∃ number, .request peer.link number ∈ marks new
  · obtain ⟨number, hmark⟩ := hany
    obtain ⟨found, message, hfound', hitem, -, hbehind⟩ := htale.taken _ _ hmark
    rw [hfound, Option.some.injEq] at hfound'
    subst hfound'
    obtain ⟨ahead', hahead, htaken⟩ := h.taken hitem (hbehind link' hlink')
    refine ⟨ahead', htaken.grow new ?_⟩
    intro id hid hmark'
    obtain ⟨found, message', hfound', hitem', hasking, -⟩ := htale.taken _ _ hmark'
    rw [hfound, Option.some.injEq] at hfound'
    subst hfound'
    rw [hitem] at hitem'
    cases hitem'
    have hdistinct := h.due.distinct
    rw [hahead, List.cons_append, ← List.singleton_append, asking_append] at hdistinct
    exact (List.nodup_append.1 hdistinct).2.2 id hasking id hid rfl
  · obtain ⟨ahead', hnext⟩ := h.next hdecoder
    exact ⟨ahead', hnext.grow new fun id _ hmark => hany ⟨id, hmark⟩⟩

/-- A step of a relay in which nothing arrives from a client leaves the client in step. -/
theorem InStep.perform_relay {step : Relay.Step} (h : InStep log drawn relay peer link)
    (hlog : Coherent log) (htale : Tale log new relay (relay.perform step))
    (hnone : ∀ data now, step ≠ .receive peer.link data now) :
    ∃ link', InStep (log ++ new) drawn (relay.perform step) peer link' := by
  obtain ⟨link', news, hlink', -⟩ := htale.links peer.link link h.found
  obtain ⟨ahead, behind, missing, huplink⟩ := h.uplink
  have hdecoder : link'.decoder = link.decoder ∨ link'.decoder = link.decoder.nextMessage.2 := by
    rcases Relay.decoder_perform h.found hlink' with hsame | hnext | ⟨data, now, hstep⟩
    · exact Or.inl hsame
    · exact Or.inr hnext
    · exact absurd hstep (hnone data now)
  obtain ⟨ahead', hafter⟩ := huplink.relayed h.found htale hlink' hdecoder
  exact ⟨link', h.relayed hlog htale hlink' ⟨ahead', behind, missing, hafter⟩⟩

/-! ## Bytes that arrive, go on their way, or are lost -/

/-- Bytes arrive from a client. -/
theorem InStep.deliver (h : InStep log drawn relay peer link) (hlog : Coherent log) (count : Nat)
    (now : Instant) (hphase : link.phase = .waiting) (hwhole : peer.isBroken = false)
    (htale : Tale log new relay (relay.receive peer.link (peer.toRelay.extract 0 count) now))
    (hnew : ∀ number, .request peer.link number ∉ marks new) :
    ∃ link', InStep (log ++ new) drawn (relay.receive peer.link (peer.toRelay.extract 0 count) now)
      { peer with toRelay := peer.toRelay.extract count peer.toRelay.size } link' := by
  obtain ⟨ahead, behind, missing, huplink⟩ := h.uplink
  have hid : link.id = peer.link := Relay.id_of_link? h.found
  have hreceive : relay.receive peer.link (peer.toRelay.extract 0 count) now =
      relay.setLink { link.touch now with
        phase := .reading, decoder := link.decoder.extend (peer.toRelay.extract 0 count) } := by
    unfold Relay.receive
    rw [h.found]
    exact if_pos hphase
  have hfound : relay.link? link.id = some link := by
    rw [hid]
    exact h.found
  have hlink' := Relay.link?_of_links { link.touch now with
    phase := .reading, decoder := link.decoder.extend (peer.toRelay.extract 0 count) } hfound rfl
      (Relay.links_setLink relay _)
  rw [← hreceive, hid] at hlink'
  refine ⟨_, h.relayed hlog htale hlink' ⟨ahead, behind, missing, ?_⟩⟩
  have hgrown := huplink.grow new fun id _ => hnew id
  refine ⟨?_, hgrown.unwritten, hgrown.frames, hgrown.fits, hgrown.due⟩
  have hspelled := huplink.spelled
  unfold Peer.inTransit at hspelled ⊢
  rw [hwhole] at hspelled
  show link.decoder.buffer ++ peer.toRelay.extract 0 count ++ _ ++ missing = _
  rw [hwhole, if_neg Bool.false_ne_true]
  rw [if_neg Bool.false_ne_true, ← extract_append_extract peer.toRelay count,
    ← ByteArray.append_assoc] at hspelled
  exact hspelled

/-- A message that has been written goes on its way. -/
theorem InStep.ship (h : InStep log drawn relay peer link) {message : Message}
    (hmessage : link.sent[peer.shipped]? = some message) (hfits : message.Fits) :
    InStep log drawn relay
      { peer with
        toClient := peer.toClient ++ message.bytes
        shipped := peer.shipped + 1 } link := by
  obtain ⟨flight, hdownlink⟩ := h.downlink
  obtain ⟨hlength, hget⟩ := List.getElem?_eq_some_iff.1 hmessage
  have hdrop : link.sent.drop peer.shipped = message :: link.sent.drop (peer.shipped + 1) := by
    rw [List.drop_eq_getElem_cons hlength, hget]
  obtain ⟨ahead, behind, missing, huplink⟩ := h.uplink
  refine ⟨h.found,
    ⟨ahead, behind, missing, huplink.spelled, huplink.unwritten, huplink.frames, huplink.fits,
      huplink.due⟩,
    ⟨flight ++ [message], hlength, ?_, ?_, ?_⟩,
    fun mark hmark =>
      (h.knows mark hmark).mono rfl (Nat.le_refl _) (Nat.le_refl _) (Nat.le_refl drawn),
    h.ledger⟩
  · intro decoder hdecoder
    have hold : decoder.buffer ++ peer.toClient = Message.spell flight :=
      hdownlink.spelled decoder hdecoder
    rw [Message.spell_append, Message.spell_singleton, ← hold, ByteArray.append_assoc]
  · intro other hother
    rcases List.mem_append.1 hother with hold | hnew
    · exact hdownlink.fits other hold
    · rw [List.mem_singleton.1 hnew]
      exact hfits
  · have hdue := hdownlink.due
    rw [hdrop, ← List.singleton_append, ← List.append_assoc] at hdue
    exact hdue

/-- The streams of a client that does not read any more break off. What is on its way is missing for
ever. -/
theorem InStep.broken (h : InStep log drawn relay peer link) (hnone : peer.decoder? = none) :
    InStep log drawn relay
      { peer with
        toRelay := ByteArray.empty
        toClient := ByteArray.empty
        isBroken := true } link := by
  obtain ⟨ahead, behind, missing, huplink⟩ := h.uplink
  obtain ⟨flight, hdownlink⟩ := h.downlink
  refine ⟨h.found, ⟨ahead, behind, peer.inTransit ++ missing, ?_, ?_, huplink.frames, huplink.fits,
      huplink.due⟩,
    ⟨flight, hdownlink.shipped, ?_, hdownlink.fits, hdownlink.due⟩,
    fun mark hmark =>
      (h.knows mark hmark).mono rfl (Nat.le_refl _) (Nat.le_refl _) (Nat.le_refl drawn),
    h.ledger⟩
  · show link.decoder.buffer ++ ByteArray.empty ++ (peer.inTransit ++ missing) = _
    rw [ByteArray.append_empty, ← ByteArray.append_assoc]
    exact huplink.spelled
  · intro hwhole
    cases hwhole
  · intro decoder hdecoder
    have hrunning : peer.decoder? = some decoder := hdecoder
    rw [hnone] at hrunning
    cases hrunning

/-- The streams of a client break off, and it finds out. -/
theorem InStep.breakOff (h : InStep log drawn relay peer link) (fault : HostFault) :
    InStep log drawn relay (peer.breakOff fault) link := by
  cases hphase : peer.phase with
  | opening attempt =>
      have hnone : peer.connection? = none := by
        unfold Peer.connection?
        rw [hphase]
      have hfailed : InStep log drawn relay
          { peer with phase := .failed (.transport (.host fault)) } link := h.failed hnone
      unfold Peer.breakOff
      rw [hphase]
      exact hfailed.broken rfl
  | joined conn =>
      rw [← Peer.withConnection_eq hphase] at h
      have hafter := h.wanes (conn.wanes_receiveFault (.host fault))
      unfold Peer.breakOff
      rw [hphase]
      exact hafter.broken (conn.reader_receiveFault (.host fault))
  | failed error =>
      have hnone : peer.decoder? = none := by
        unfold Peer.decoder?
        rw [hphase]
      unfold Peer.breakOff
      simp only [hphase]
      rw [← hphase]
      exact h.broken hnone

/-! ## Clients that connect -/

/-- A link that is accepted comes behind the others. It has told of nothing. -/
theorem Relay.links_accept (relay : Relay) (name : String) (remote : SocketAddress)
    (now : Instant) :
    ∃ link, Relay.Murmurs (Link.new relay.nextLink name remote now) link ∧ link.decoder = .new ∧
      (relay.accept name remote now).2.links = relay.links ++ [link] := by
  unfold accept
  simp only
  split
  · refine ⟨_, (Relay.Murmurs.of_tryWrite _ rfl).trans (.of_ended _), ?_, rfl⟩
    exact Relay.decoder_tryWrite _ _
  · exact ⟨_, .of_sent rfl rfl rfl rfl, rfl, rfl⟩

/-- A client that connects is in step with its link, and nothing is known of it. -/
theorem inStep_connect {joined : Nat} {name cluster connectionId : String}
    {options : ConnectionOptions} {attempt : Opening} {now : Instant}
    (hstanding : relay.Standing joined)
    (howners : ∀ mark ∈ marks log, ∀ link, mark.owner? = some link → link < relay.nextLink)
    (hstart : Opening.start cluster options.clientName = .ok attempt) :
    ∃ link, InStep log drawn (relay.accept connectionId Network.remote now).2
      { name, cluster, options, phase := .opening attempt, link := relay.nextLink } link := by
  obtain ⟨link, hmurmurs, hdecoder, hlinks⟩ := relay.links_accept connectionId Network.remote now
  obtain ⟨written, hsent, hplain⟩ := hmurmurs.sent
  -- The link is numbered behind all others, so it is the one that is found.
  have hfound :
      (relay.accept connectionId Network.remote now).2.link? relay.nextLink = some link := by
    have hid : link.id = relay.nextLink := hmurmurs.id
    have hnone : relay.links.find? (fun link => link.id = relay.nextLink) = none := by
      apply List.find?_eq_none.2
      intro old hold hsame
      exact Nat.lt_irrefl _ (of_decide_eq_true hsame ▸ hstanding.bounded old hold)
    unfold Relay.link?
    rw [hlinks, List.find?_append, hnone, Option.none_or, List.find?_singleton, decide_eq_true hid]
    rfl
  have hhello : (Message.hello cluster options.clientName).encode = .ok attempt.hello ∧
      attempt = { hello := attempt.hello } := by
    unfold Opening.start at hstart
    cases hencode : (Message.hello cluster options.clientName).encode with
    | ok hello =>
        rw [hencode] at hstart
        cases hstart
        exact ⟨rfl, rfl⟩
    | error fault =>
        rw [hencode] at hstart
        cases hstart
  obtain ⟨hencode, hattempt⟩ := hhello
  -- All that the client has to write is its hello, and nothing is on its way to it.
  refine ⟨link, hfound, ⟨[.hello cluster options.clientName], [], attempt.hello, ?_, ?_, rfl,
    ?_, ?_⟩, ⟨[], Nat.zero_le _, ?_, fun _ hmessage => (nomatch hmessage), ?_⟩, ?_, ?_⟩
  · rw [hdecoder, Message.spell_singleton, Message.bytes_of_encode hencode]
    show ByteArray.empty ++ ByteArray.empty ++ _ = _
    rw [ByteArray.empty_append, ByteArray.empty_append]
  · intro _ bytes hbytes
    rw [hattempt] at hbytes
    have hwhole : attempt.hello.extract 0 attempt.hello.size = bytes := Option.some.inj hbytes
    rw [← hwhole, ByteArray.extract_zero_size]
  · intro message hmessage
    rw [List.mem_singleton.1 hmessage]
    exact Message.fits_of_encode hencode
  · exact Due.nil.of_sublist (List.Sublist.refl _)
  · intro decoder hdecoder
    rw [hattempt] at hdecoder
    cases hdecoder
    rfl
  · -- What the relay writes to a new link is a refusal at most, which tells the client of no call.
    refine Due.nil.of_sublist ?_
    have hsilent : telling written = [] := telling_eq_nil fun message hmessage =>
      (hplain message hmessage).2
    have hnone : link.session.member = none := hmurmurs.member
    have hsent' : link.sent = written := hsent
    rw [hnone, hsent']
    show (telling ([] ++ written ++ [])).Sublist _
    rw [List.nil_append, List.append_nil, hsilent]
    exact List.Sublist.refl _
  · intro mark hmark
    refine knows_of_owner fun howner => ?_
    exact Nat.lt_irrefl _ (howners mark hmark _ howner)
  · intro conn hconn
    cases hconn

end Passing

end Switchboard
