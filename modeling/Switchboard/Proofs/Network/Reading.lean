import Switchboard.Proofs.Network.Clients

/-!
# What a client reads

A client that reads deals with the messages that are on their way to it, in order. For each request
a handler is invoked, which is explained by the routing of the request, and each reply is put into
the slot of the call that it answers (`InStep.receive`). With that, every step of a client leaves it
in step with the log (`InStep.perform`).
-/

namespace Switchboard

section Reading

variable {log : List Event} {drawn : Nat} {relay : Relay} {peer : Peer} {link : Link}
  {conn : Connection}

/-! ## Requests and replies that are read -/

/-- What a reader deals with stands in front of what it has taken off. -/
theorem exists_heard_append (messages : List Message) :
    ∃ others, messages =
      Connection.heard (messages.map Decoder.Outcome.item ++ [.needMore]) ++ others := by
  induction messages with
  | nil => exact ⟨[], rfl⟩
  | cons message messages ih =>
      obtain ⟨others, hothers⟩ := ih
      rw [List.map_cons, List.cons_append, Connection.heard]
      by_cases hclose : message.envelope.kind = .close
      · rw [if_pos hclose]
        exact ⟨message :: messages, rfl⟩
      · rw [if_neg hclose]
        exact ⟨others, congrArg (List.cons message) hothers⟩

/-- Services are given the numbers of the requests. -/
theorem id_servicesFrom (key : Nat) (messages : List Message) :
    (Connection.servicesFrom key (messages.filterMap Message.asked?)).map Service.id =
      asking messages := by
  have hpairs := Connection.request_servicesFrom key (messages.filterMap Message.asked?)
  have hids := congrArg (List.map Prod.fst) hpairs
  rw [List.map_map, List.map_filterMap] at hids
  exact hids

/-- Invocations name services and requests. -/
theorem mem_marks_invoked {link : LinkId} {services : List Service} {mark : Mark} :
    mark ∈ marks (services.map (.invoked link)) ↔
      ∃ service ∈ services, mark = .service link service.key ∨ mark = .passed link service.id := by
  unfold marks
  rw [List.flatMap_map]
  simp only [List.mem_flatMap, Event.marks, List.mem_cons, List.not_mem_nil, or_false]

/-- Services of different names and numbers are invoked under different names. -/
theorem nodup_marks_invoked {link : LinkId} {services : List Service}
    (hkeys : (services.map Service.key).Nodup) (hids : (services.map Service.id).Nodup) :
    (marks (services.map (.invoked link))).Nodup := by
  induction services with
  | nil => exact List.nodup_nil
  | cons service services ih =>
      rw [List.map_cons, List.nodup_cons] at hkeys hids
      have hrest := ih hkeys.2 hids.2
      show (Mark.service link service.key :: Mark.passed link service.id ::
        marks (services.map (.invoked link))).Nodup
      refine List.nodup_cons.2 ⟨?_, List.nodup_cons.2 ⟨?_, hrest⟩⟩
      · intro hmark
        rcases List.mem_cons.1 hmark with hmark | hmark
        · cases hmark
        · obtain ⟨other, hother, hsame | hsame⟩ := mem_marks_invoked.1 hmark
          · rw [Mark.service.injEq] at hsame
            exact hkeys.1 (hsame.2 ▸ List.mem_map_of_mem hother)
          · cases hsame
      · intro hmark
        obtain ⟨other, hother, hsame | hsame⟩ := mem_marks_invoked.1 hmark
        · cases hsame
        · rw [Mark.passed.injEq] at hsame
          exact hids.1 (hsame.2 ▸ List.mem_map_of_mem hother)

/-- The messages that a reader has dealt with. -/
structure Heard (log : List Event) (conn : Connection) (link : LinkId) (messages : List Message)
    (services : List Service) : Prop where
  due : Due (Told log link) (fun id => .passed link id ∈ marks log) messages
  services : services =
    Connection.servicesFrom conn.nextService (messages.filterMap Message.asked?)

namespace Heard

variable {messages : List Message} {services : List Service} {link : LinkId}
  (h : Heard log conn link messages services)

include h

/-- Every service has been asked for. -/
theorem exists_asked {service : Service} (hservice : service ∈ services) :
    ∃ message ∈ telling messages, message.asked? = some (service.id, service.payload) := by
  have hmem := List.mem_map_of_mem (f := fun service : Service => (service.id, service.payload))
    hservice
  rw [h.services, Connection.request_servicesFrom] at hmem
  obtain ⟨message, hmessage, hasked⟩ := List.mem_filterMap.1 hmem
  refine ⟨message, List.mem_filter.2 ⟨hmessage, ?_⟩, hasked⟩
  unfold Message.asked? at hasked
  unfold Message.isTelling
  cases henvelope : message.envelope <;> rw [henvelope] at hasked <;> first | rfl | cases hasked

theorem key_ge {service : Service} (hservice : service ∈ services) :
    conn.nextService ≤ service.key ∧ service.key < conn.nextService +
      (messages.filterMap Message.asked?).length := by
  rw [h.services] at hservice
  exact Connection.key_of_mem_servicesFrom hservice

theorem id_mem_asking {service : Service} (hservice : service ∈ services) :
    service.id ∈ asking messages := by
  have hmem := List.mem_map_of_mem (f := Service.id) hservice
  rwa [h.services, id_servicesFrom] at hmem

/-- What is named by the invocations is new, if all that is named is known. -/
theorem coherent (peer : Peer) {drawn : Nat} (hlog : Coherent log) (hlink : peer.link = link)
    (hnext : peer.nextService = conn.nextService)
    (hknows : ∀ mark ∈ marks log, peer.Knows drawn mark) :
    Coherent (log ++ services.map (.invoked link)) := by
  refine hlog.grow ?_ ?_ ?_
  · refine nodup_marks_invoked ?_ ?_
    · rw [h.services, Connection.key_servicesFrom]
      exact List.nodup_range'
    · rw [h.services, id_servicesFrom]
      exact h.due.distinct
  · -- A service has a name that no service had before, and a route is passed on once.
    intro mark hmark hold
    obtain ⟨service, hservice, rfl | rfl⟩ := mem_marks_invoked.1 hmark
    · have hlt : service.key < peer.nextService := hknows _ hold hlink.symm
      have hge := (h.key_ge hservice).1
      omega
    · exact h.due.unused service.id (h.id_mem_asking hservice) hold
  · -- The message that asked for the service tells of the errand behind it.
    intro event hevent
    obtain ⟨service, hservice, rfl⟩ := List.mem_map.1 hevent
    obtain ⟨message, hmessage, hasked⟩ := h.exists_asked hservice
    cases h.due.each message hmessage with
    | request errand timeoutMs htarget hrouted =>
        have hpair : some (errand.route, errand.payload) = some (service.id, service.payload) :=
          hasked
        rw [Option.some.injEq, Prod.mk.injEq] at hpair
        obtain ⟨hroute, hpayload⟩ := hpair
        have hsame : errand.service service.key = service := by
          unfold Errand.service
          rw [hroute, hpayload]
        refine ⟨errand, htarget, hsame, hrouted.served ?_⟩
        rw [htarget, hsame]
        exact hevent
    | reply id payload hanswered => cases hasked

/-- The services are known, and what has been put into slots has been answered. -/
theorem ledger (peer : Peer) {drawn : Nat} {decoder : Decoder} {pending : PendingTable}
    (hledger : Ledger log link conn) (hlink : peer.link = link)
    (hnext : peer.nextService = conn.nextService)
    (hknows : ∀ mark ∈ marks log, peer.Knows drawn mark)
    (hevolves : PendingTable.Evolves
      (fun id payload => ∃ message ∈ messages, message.envelope = .reply id ∧
        message.payload = payload)
      conn.pending pending) :
    Ledger (log ++ services.map (.invoked link)) link
      ({ conn with reader := some decoder }.withServices (messages.filterMap Message.asked?)
        pending) := by
  -- Nothing is told of results or of ends of services when services begin.
  have hnone : ∀ mark : Mark, mark ∈ marks (services.map (.invoked link)) →
      (∀ key, mark ≠ .result link key) ∧ ∀ key, mark ≠ .completion link key := by
    intro mark hmark
    obtain ⟨service, hservice, rfl | rfl⟩ := mem_marks_invoked.1 hmark
    · exact ⟨fun _ e => (nomatch e), fun _ e => nomatch e⟩
    · exact ⟨fun _ e => (nomatch e), fun _ e => nomatch e⟩
  have hgrown := hledger.grow (services.map (.invoked link))
    (fun call _ hmark => (hnone _ hmark).1 call.key rfl)
    (fun service _ hmark => (hnone _ hmark).2 service.key rfl)
  have hread : Connection.Sound { conn with reader := some decoder } :=
    hledger.sound.of_queue conn.queue hledger.sound.turn conn.writer _
  refine ⟨hread.withServices hevolves _, hgrown.calls, ?_, ?_⟩
  · intro service hservice
    rcases List.mem_append.1 hservice with hold | hnew
    · exact hgrown.services service hold
    · have hmem : service ∈ services := by
        rw [h.services]
        exact hnew
      refine ⟨List.mem_append_right _ (List.mem_map_of_mem hmem), fun hmark => ?_⟩
      rcases mem_marks_append.1 hmark with hold | hmark
      · have hlt : service.key < peer.nextService := hknows _ hold hlink.symm
        have hge := (h.key_ge hmem).1
        omega
      · exact (hnone _ hmark).2 service.key rfl
  · -- A slot that has got a reply got it from a message that was on its way.
    intro slot hslot payload hstate
    rcases hevolves.replies slot hslot payload hstate with
      hold | ⟨message, hmessage, hreply, hpayload⟩
    · exact hgrown.slots slot hold payload hstate
    · have htelling : message ∈ telling messages := by
        refine List.mem_filter.2 ⟨hmessage, ?_⟩
        unfold Message.isTelling
        rw [hreply]
      cases h.due.each message htelling with
      | request errand timeoutMs htarget hrouted => cases hreply
      | reply id answer hanswered =>
          cases hreply
          cases hpayload
          exact hanswered.grow _

end Heard

/-- The reader of a client deals with bytes that have arrived. -/
theorem InStep.receive (h : InStep log drawn relay (peer.withConnection conn) link)
    (hlog : Coherent log) {data rest : ByteArray} (hdata : peer.toClient = data ++ rest) :
    InStep (log ++ (conn.arrivals data).map (.invoked peer.link)) drawn relay
        ({ peer with toClient := rest }.withConnection (conn.receive data)) link ∧
      Coherent (log ++ (conn.arrivals data).map (.invoked peer.link)) := by
  have hledger := h.ledger_connection
  obtain ⟨ahead, behind, missing, huplink⟩ := h.uplink
  obtain ⟨flight, hdownlink⟩ := h.downlink
  have hknown : ∀ {conn' : Connection} {mark : Mark}, conn'.nextCall = conn.nextCall →
      conn.nextService ≤ conn'.nextService → mark ∈ marks log →
        ({ peer with toClient := rest }.withConnection conn').Knows drawn mark :=
    fun hcall hservice hmark =>
      (h.knows _ hmark).mono rfl (Nat.le_of_eq hcall.symm) hservice (Nat.le_refl drawn)
  cases hreader : conn.reader with
  | none =>
      have hnone : conn.arrivals data = [] := by
        unfold Connection.arrivals
        rw [hreader]
      rw [hnone, List.map_nil, List.append_nil, Connection.receive_of_none hreader]
      refine ⟨⟨h.found, ⟨ahead, behind, missing, huplink.spelled, huplink.unwritten, huplink.frames,
        huplink.fits, huplink.due⟩, ⟨flight, hdownlink.shipped, ?_, hdownlink.fits, hdownlink.due⟩,
        fun mark hmark => hknown rfl (Nat.le_refl _) hmark, h.ledger⟩, hlog⟩
      intro decoder hdecoder
      have hrunning : conn.reader = some decoder := hdecoder
      rw [hreader] at hrunning
      cases hrunning
  | some decoder =>
      -- What is on its way falls into what is dealt with, what is passed over, and what is left.
      have hspelled : (decoder.extend data).buffer ++ rest = Message.spell flight := by
        have hbefore : decoder.buffer ++ peer.toClient = Message.spell flight :=
          hdownlink.spelled decoder hreader
        rw [← hbefore, hdata, ← ByteArray.append_assoc]
        rfl
      obtain ⟨taken, left, hflight, houtcomes, hleft⟩ := Decoder.drain_spell hdownlink.fits hspelled
      obtain ⟨passed, htaken⟩ := exists_heard_append taken
      rw [← houtcomes] at htaken
      have harrivals : conn.arrivals data = Connection.servicesFrom conn.nextService
          ((Connection.heard (decoder.extend data).drain.1).filterMap Message.asked?) := by
        unfold Connection.arrivals
        rw [hreader]
      have hread : Connection.Sound { conn with reader := some (decoder.extend data).drain.2 } :=
        hledger.sound.of_queue conn.queue hledger.sound.turn conn.writer _
      obtain ⟨pending, hevolves, hwanes⟩ := Connection.dispatchAll_effect
        { conn with reader := some (decoder.extend data).drain.2 } hread.pending
        (decoder.extend data).drain.1
      rw [Connection.receive_eq hreader]
      generalize Connection.heard (decoder.extend data).drain.1 = messages at *
      have hfront : flight ++ link.sent.drop peer.shipped ++
          relay.router.queuedFor link.session.member =
          messages ++ (passed ++ left ++ link.sent.drop peer.shipped ++
            relay.router.queuedFor link.session.member) := by
        rw [hflight, htaken]
        simp only [List.append_assoc]
      have hdue : Due (Told log peer.link) (fun id => .passed peer.link id ∈ marks log)
          (messages ++ (passed ++ left ++ link.sent.drop peer.shipped ++
            relay.router.queuedFor link.session.member)) := hfront ▸ hdownlink.due
      have hheard : Heard log conn peer.link messages (conn.arrivals data) :=
        ⟨hdue.of_sublist (telling_sublist (List.sublist_append_left _ _)), harrivals⟩
      have hnames : ∀ mark ∈ marks ((conn.arrivals data).map (.invoked peer.link)),
          (∃ key, mark = .service peer.link key ∧ conn.nextService ≤ key ∧ key < conn.nextService +
            (messages.filterMap Message.asked?).length) ∨
              ∃ id ∈ asking messages, mark = .passed peer.link id := by
        -- A name that is new belongs to one of the services.
        intro mark hmark
        obtain ⟨service, hservice, rfl | rfl⟩ := mem_marks_invoked.1 hmark
        · exact Or.inl ⟨service.key, rfl, hheard.key_ge hservice⟩
        · exact Or.inr ⟨service.id, hheard.id_mem_asking hservice, rfl⟩
      refine ⟨InStep.wanes ?_ hwanes, hheard.coherent (peer.withConnection conn) hlog rfl rfl
        h.knows⟩
      refine ⟨h.found, ?_, ?_, ?_, ?_⟩
      · -- What the client sends is about other names.
        have hgrown := huplink.grow ((conn.arrivals data).map (.invoked peer.link)) (by
          intro id _ hmark
          rcases hnames _ hmark with ⟨key, hkey, -⟩ | ⟨number, -, hnumber⟩
          · cases hkey
          · cases hnumber)
        exact ⟨ahead, behind, missing, hgrown.spelled, hgrown.unwritten, hgrown.frames, hgrown.fits,
          hgrown.due⟩
      · -- What has not been dealt with is still on its way.
        refine ⟨left, hdownlink.shipped, ?_, ?_, ?_⟩
        · intro last hlast
          cases hlast
          exact hleft
        · intro message hmessage
          refine hdownlink.fits message ?_
          rw [hflight]
          exact List.mem_append_right _ hmessage
        · have hsub : (left ++ link.sent.drop peer.shipped ++
              relay.router.queuedFor link.session.member).Sublist (passed ++ left ++
                link.sent.drop peer.shipped ++ relay.router.queuedFor link.session.member) := by
            simp only [List.append_assoc]
            exact List.sublist_append_right _ _
          refine (hdue.behind.of_sublist (telling_sublist hsub)).mono
            (fun _ htold => htold.grow _) ?_
          intro id _ hmark
          rcases mem_marks_append.1 hmark with hold | hmark
          · exact Or.inl hold
          · rcases hnames _ hmark with ⟨key, hkey, -⟩ | ⟨number, hnumber, hsame⟩
            · cases hkey
            · cases hsame
              exact Or.inr hnumber
      · -- The services that begin are known from now on.
        intro mark hmark
        rcases mem_marks_append.1 hmark with hold | hmark
        · exact hknown rfl (Nat.le_add_right _ _) hold
        · rcases hnames _ hmark with ⟨key, rfl, -, hlt⟩ | ⟨number, -, rfl⟩
          · exact fun _ => hlt
          · trivial
      · intro conn' hconn
        cases hconn
        exact hheard.ledger (peer.withConnection conn) hledger rfl rfl h.knows hevolves

/-! ## Clients without a connection -/

/-- What is known of a client that has no connection: nothing waits for its writer. -/
theorem frames_of_none (h : peer.connection? = none) : peer.frames = [] := by
  unfold Peer.frames
  rw [h]
  rfl

theorem knows_of_none {peer' : Peer} {mark : Mark} (h : peer.Knows drawn mark)
    (hlink : peer'.link = peer.link) (hnone : peer.connection? = none) :
    peer'.Knows drawn mark := by
  refine h.mono hlink ?_ ?_ (Nat.le_refl drawn)
  · unfold Peer.nextCall
    rw [hnone]
    exact Nat.zero_le _
  · unfold Peer.nextService
    rw [hnone]
    exact Nat.zero_le _

/-- The attempt to open a connection has failed. -/
theorem InStep.failed {error : ClientError} {bytes : ByteArray}
    (h : InStep log drawn relay peer link) (hnone : peer.connection? = none) :
    InStep log drawn relay { peer with phase := .failed error, toClient := bytes } link := by
  obtain ⟨ahead, behind, missing, huplink⟩ := h.uplink
  obtain ⟨flight, hdownlink⟩ := h.downlink
  refine ⟨h.found, ⟨ahead, behind, missing, huplink.spelled, ?_, ?_, huplink.fits, huplink.due⟩,
    ⟨flight, hdownlink.shipped, ?_, hdownlink.fits, hdownlink.due⟩,
    fun mark hmark => knows_of_none (h.knows mark hmark) rfl hnone, ?_⟩
  · intro _ left hleft
    cases hleft
  · rw [← huplink.frames, frames_of_none hnone]
    rfl
  · intro decoder hdecoder
    cases hdecoder
  · intro conn hconn
    cases hconn

/-- A part of the opening message is written. -/
theorem InStep.write_opening {attempt : Opening} (h : InStep log drawn relay peer link)
    (hphase : peer.phase = .opening attempt) (room : Nat) :
    InStep log drawn relay (peer.write room) link := by
  have hnone : peer.connection? = none := by
    unfold Peer.connection?
    rw [hphase]
  have hpeer : peer.write room =
      { peer with
        phase := .opening (attempt.write room).2
        toRelay := peer.toRelay ++ (attempt.write room).1 } := by
    unfold Peer.write
    rw [hphase]
  obtain ⟨ahead, behind, missing, huplink⟩ := h.uplink
  obtain ⟨flight, hdownlink⟩ := h.downlink
  rw [hpeer]
  refine ⟨h.found, ⟨ahead, huplink.write
    (attempt.hello.extract (min attempt.hello.size (attempt.written + room)) attempt.hello.size)
    rfl rfl rfl (List.nil_sublist _) ?_ ?_⟩, ⟨flight, hdownlink.shipped, ?_, hdownlink.fits,
      hdownlink.due⟩,
    fun mark hmark => knows_of_none (h.knows mark hmark) rfl hnone, ?_⟩
  · unfold Peer.unwritten?
    rw [hphase]
    exact congrArg some (extract_min attempt.hello attempt.written room)
  · intro left hleft
    cases hleft
    rfl
  · intro decoder hdecoder
    cases hdecoder
    refine hdownlink.spelled attempt.decoder ?_
    unfold Peer.decoder?
    rw [hphase]
  · intro conn hconn
    cases hconn

/-- A client that waits for the answer to its opening message reads. Once it is accepted, it deals
with what has come behind the answer. -/
theorem InStep.read_opening {attempt : Opening} (h : InStep log drawn relay peer link)
    (hlog : Coherent log) (hphase : peer.phase = .opening attempt) (limit : Nat) :
    InStep (log ++ (peer.arrivals limit).map (.invoked peer.link)) drawn relay
      (peer.read limit) link ∧
      Coherent (log ++ (peer.arrivals limit).map (.invoked peer.link)) := by
  have hnone : peer.connection? = none := by
    unfold Peer.connection?
    rw [hphase]
  obtain ⟨ahead, behind, missing, huplink⟩ := h.uplink
  obtain ⟨flight, hdownlink⟩ := h.downlink
  have hnothing : behind.map Message.bytes = [] := by
    rw [← huplink.frames, frames_of_none hnone]
  have hdata := extract_append_extract peer.toClient limit
  unfold Peer.arrivals Peer.read
  simp only [hphase]
  by_cases hwritten : attempt.isWritten = true
  · -- The hello is out, so the attempt reads the verdict of the relay.
    simp only [hwritten, if_true]
    have hspelled : (attempt.decoder.extend (peer.toClient.extract 0 limit)).buffer ++
        peer.toClient.extract limit peer.toClient.size = Message.spell flight := by
      have hbefore : attempt.decoder.buffer ++ peer.toClient = Message.spell flight := by
        refine hdownlink.spelled attempt.decoder ?_
        unfold Peer.decoder?
        rw [hphase]
      rw [← hbefore, Decoder.extend, ByteArray.append_assoc, hdata]
    generalize peer.toClient.extract limit peer.toClient.size = rest at hspelled ⊢
    rcases Decoder.nextMessage_spell hdownlink.fits hspelled with
      hnext | ⟨message, others, next, hflight, hnext, hleft⟩
    · -- The verdict has not come in full.
      have hreceive : attempt.receive (peer.toClient.extract 0 limit) =
          .pending { attempt with
            decoder := attempt.decoder.extend (peer.toClient.extract 0 limit) } := by
        unfold Opening.receive
        rw [hnext]
      rw [hreceive]
      simp only [List.map_nil, List.append_nil]
      refine ⟨⟨h.found, ⟨ahead, behind, missing, huplink.spelled, ?_, ?_, huplink.fits,
        huplink.due⟩, ⟨flight, hdownlink.shipped, ?_, hdownlink.fits, hdownlink.due⟩,
        fun mark hmark => knows_of_none (h.knows mark hmark) rfl hnone, ?_⟩, hlog⟩
      · intro hwhole bytes hbytes
        refine huplink.unwritten hwhole bytes ?_
        unfold Peer.unwritten?
        rw [hphase]
        exact hbytes
      · exact hnothing.symm
      · intro decoder hdecoder
        cases hdecoder
        exact hspelled
      · intro conn hconn
        cases hconn
    · cases hverdict : Opening.verdict message with
      | error error =>
          have hreceive : attempt.receive (peer.toClient.extract 0 limit) = .failed error := by
            unfold Opening.receive
            simp only [hnext, hverdict]
          rw [hreceive]
          simp only [List.map_nil, List.append_nil]
          exact ⟨h.failed hnone, hlog⟩
      | ok connectionId =>
          have hreceive : attempt.receive (peer.toClient.extract 0 limit) =
              .accepted connectionId next := by
            unfold Opening.receive
            simp only [hnext, hverdict]
          rw [hreceive]
          -- The connection begins with what has come behind the answer, and nothing to write.
          have hjoined : InStep log drawn relay ({ peer with toClient := rest }.withConnection
              (.new peer.options peer.cluster connectionId next)) link := by
            refine ⟨h.found, ⟨ahead, behind, missing, huplink.spelled, ?_, ?_, huplink.fits,
              huplink.due⟩, ⟨others, hdownlink.shipped, ?_, ?_, ?_⟩,
              fun mark hmark => knows_of_none (h.knows mark hmark) rfl hnone, ?_⟩
            · intro hwhole bytes hbytes
              cases hbytes
              refine huplink.unwritten hwhole _ ?_
              unfold Peer.unwritten?
              rw [hphase]
              refine congrArg some (ByteArray.extract_eq_empty_iff.2 ?_)
              have hsize : attempt.hello.size ≤ attempt.written := by
                simpa [Opening.isWritten] using hwritten
              omega
            · exact hnothing.symm
            · intro decoder hdecoder
              cases hdecoder
              exact hleft
            · intro other hother
              exact hdownlink.fits other (hflight ▸ List.mem_cons_of_mem _ hother)
            · refine hdownlink.due.of_sublist (telling_sublist ?_)
              rw [hflight]
              exact ((List.sublist_cons_self message others).append (List.Sublist.refl _)).append
                (List.Sublist.refl _)
            · intro conn hconn
              cases hconn
              exact ⟨Connection.sound_new _ _ _ _, fun _ hcall => (nomatch hcall),
                fun _ hservice => (nomatch hservice), fun _ hslot => nomatch hslot⟩
          exact hjoined.receive hlog (ByteArray.empty_append).symm
  · -- Before the hello is out nothing is read.
    simp only [hwritten, if_false, Bool.false_eq_true, List.map_nil, List.append_nil]
    exact ⟨h, hlog⟩

/-! ## All steps -/

/-- An act of a handler, a caller, the writer or the owner. -/
theorem InStep.act (h : InStep log drawn relay (peer.withConnection conn) link)
    (hlog : Coherent log)
    (now : Instant) (act : Connection.Act) :
    InStep (log ++ (peer.withConnection conn).events now (.act act)) drawn relay
        (peer.withConnection (conn.act act)) link ∧
      Coherent (log ++ (peer.withConnection conn).events now (.act act)) := by
  have hsilent : ∀ {conn' : Connection},
      InStep log drawn relay (peer.withConnection conn') link →
        InStep (log ++ []) drawn relay (peer.withConnection conn') link ∧ Coherent (log ++ []) := by
    intro conn' hafter
    rw [List.append_nil]
    exact ⟨hafter, hlog⟩
  cases act with
  | abandon key => exact hsilent (h.wanes (conn.wanes_abandon key))
  | complete key result =>
      show InStep (log ++ (conn.service? key).toList.map fun service =>
          .completed peer.link service result) drawn relay
            (peer.withConnection (conn.completeBy key result)) link ∧
        Coherent (log ++ (conn.service? key).toList.map fun service =>
          .completed peer.link service result)
      cases hservice : conn.service? key with
      | none =>
          rw [Connection.completeBy_of_none hservice]
          exact hsilent h
      | some service =>
          rw [Connection.completeBy_of_some hservice]
          exact h.complete hlog hservice result
  | takeItem => exact hsilent h.takeItem
  | writeFault fault => exact hsilent (h.wanes (conn.wanes_writeFault fault))
  | receiveFault fault => exact hsilent (h.wanes (conn.wanes_receiveFault fault))
  | close => exact hsilent h.close
  | endWriter => exact hsilent (h.wanes conn.wanes_endWriter)
  | drop => exact hsilent (h.wanes conn.wanes_drop)

/-- A step of a client that has a connection. -/
theorem InStep.perform_connection (h : InStep log drawn relay (peer.withConnection conn) link)
    (hlog : Coherent log) (now : Instant) (step : Peer.Step)
    (hcount : (peer.withConnection conn).nextNumber = UInt64.ofNat (1 + drawn))
    (hroom : ((peer.withConnection conn).perform now step).nextNumber ≠
      (peer.withConnection conn).nextNumber → drawn < UInt64.size) :
    InStep (log ++ (peer.withConnection conn).events now step)
        (drawn + moves (peer.withConnection conn).nextNumber
          ((peer.withConnection conn).perform now step).nextNumber) relay
        ((peer.withConnection conn).perform now step) link ∧
      Coherent (log ++ (peer.withConnection conn).events now step) := by
  have hsilent : ∀ {peer' : Peer}, InStep log drawn relay peer' link →
      InStep (log ++ [])
        (drawn + moves (peer.withConnection conn).nextNumber peer'.nextNumber) relay
        peer' link ∧ Coherent (log ++ []) := by
    intro peer' hafter
    rw [List.append_nil]
    exact ⟨hafter.more (Nat.le_add_right _ _), hlog⟩
  cases step with
  | write room => exact hsilent (h.write room)
  | read limit =>
      have hread := h.receive hlog (extract_append_extract peer.toClient limit).symm
      exact ⟨hread.1.more (Nat.le_add_right _ _), hread.2⟩
  | readEnd => exact hsilent (h.wanes conn.wanes_receiveEnd)
  | request cluster payload timeout => exact h.request hlog cluster payload timeout now hcount hroom
  | poll key =>
      have hpoll := h.poll hlog key now
      exact ⟨hpoll.1.more (Nat.le_add_right _ _), hpoll.2⟩
  | act act =>
      have hact := h.act hlog now act
      exact ⟨hact.1.more (Nat.le_add_right _ _), hact.2⟩

theorem onConnection_of_none (hnone : peer.connection? = none) (step : Connection → Connection) :
    peer.onConnection step = peer := by
  unfold Peer.connection? at hnone
  unfold Peer.onConnection
  cases hphase : peer.phase with
  | joined conn =>
      rw [hphase] at hnone
      cases hnone
  | opening attempt => rfl
  | failed error => rfl

/-- Without a connection, nothing happens to calls until bytes are read. -/
theorem events_of_none (hnone : peer.connection? = none) (now : Instant) {step : Peer.Step}
    (hstep : ∀ limit, step ≠ .read limit) : peer.events now step = [] := by
  have hphase : ∀ conn, peer.phase ≠ .joined conn := by
    intro conn hconn
    unfold Peer.connection? at hnone
    rw [hconn] at hnone
    cases hnone
  unfold Peer.events
  split
  · rename_i limit
    exact absurd rfl (hstep limit)
  · split
    · rename_i conn hconn
      exact absurd hconn (hphase conn)
    · rfl
  · split
    · rename_i conn hconn
      exact absurd hconn (hphase conn)
    · rfl
  · split
    · rename_i conn hconn
      exact absurd hconn (hphase conn)
    · rfl
  · rfl

/-- A step of a client that has no connection. -/
theorem InStep.perform_of_none (h : InStep log drawn relay peer link) (hlog : Coherent log)
    (hnone : peer.connection? = none) (now : Instant) (step : Peer.Step) :
    InStep (log ++ peer.events now step) drawn relay (peer.perform now step) link ∧
      Coherent (log ++ peer.events now step) := by
  have hsilent : (∀ limit, step ≠ .read limit) →
      InStep log drawn relay (peer.perform now step) link →
        InStep (log ++ peer.events now step) drawn relay (peer.perform now step) link ∧
          Coherent (log ++ peer.events now step) := by
    intro hstep hafter
    rw [events_of_none hnone now hstep, List.append_nil]
    exact ⟨hafter, hlog⟩
  -- What a connection would do is not done.
  have hstill :
      ∀ f : Connection → Connection, InStep log drawn relay (peer.onConnection f) link := by
    intro f
    rw [onConnection_of_none hnone]
    exact h
  cases step with
  | request cluster payload timeout => exact hsilent (fun _ e => nomatch e) (hstill _)
  | poll key => exact hsilent (fun _ e => nomatch e) (hstill _)
  | act act => exact hsilent (fun _ e => nomatch e) (hstill _)
  | write room =>
      refine hsilent (fun _ e => nomatch e) ?_
      show InStep log drawn relay (peer.write room) link
      cases hphase : peer.phase with
      | joined conn =>
          unfold Peer.connection? at hnone
          rw [hphase] at hnone
          cases hnone
      | opening attempt => exact h.write_opening hphase room
      | failed error =>
          have hpeer : peer.write room = peer := by
            unfold Peer.write
            rw [hphase]
          rw [hpeer]
          exact h
  | readEnd =>
      refine hsilent (fun _ e => nomatch e) ?_
      show InStep log drawn relay peer.readEnd link
      unfold Peer.readEnd
      cases hphase : peer.phase with
      | joined conn =>
          unfold Peer.connection? at hnone
          rw [hphase] at hnone
          cases hnone
      | opening attempt => exact h.failed hnone
      | failed error => exact h
  | read limit =>
      cases hphase : peer.phase with
      | joined conn =>
          unfold Peer.connection? at hnone
          rw [hphase] at hnone
          cases hnone
      | opening attempt => exact h.read_opening hlog hphase limit
      | failed error =>
          have hevents : peer.events now (.read limit) = [] := by
            show (peer.arrivals limit).map _ = []
            unfold Peer.arrivals
            rw [hphase]
            rfl
          have hpeer : peer.perform now (.read limit) =
              { peer with
                phase := .failed error
                toClient := peer.toClient.extract limit peer.toClient.size } := by
            show peer.read limit = _
            unfold Peer.read
            rw [hphase]
          rw [hevents, List.append_nil, hpeer]
          exact ⟨h.failed hnone, hlog⟩

/-- A step of a client leaves it in step with the log, which grows by what the step does to
calls. -/
theorem InStep.perform (h : InStep log drawn relay peer link) (hlog : Coherent log) (now : Instant)
    (step : Peer.Step) (hcount : peer.nextNumber = UInt64.ofNat (1 + drawn))
    (hroom : (peer.perform now step).nextNumber ≠ peer.nextNumber → drawn < UInt64.size) :
    InStep (log ++ peer.events now step)
        (drawn + moves peer.nextNumber (peer.perform now step).nextNumber) relay
        (peer.perform now step) link ∧
      Coherent (log ++ peer.events now step) := by
  cases hconn : peer.connection? with
  | none =>
      have hafter := h.perform_of_none hlog hconn now step
      exact ⟨hafter.1.more (Nat.le_add_right _ _), hafter.2⟩
  | some conn =>
      have hpeer := Peer.withConnection_eq (Peer.phase_of_connection? hconn)
      rw [← hpeer] at h hcount hroom ⊢
      exact h.perform_connection hlog now step hcount hroom

end Reading

end Switchboard
