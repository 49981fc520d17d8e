import Switchboard.Proofs.Network.Channels

/-!
# Steps of a client

A step of a caller, a handler, the writer or the owner of a connection leaves the client in step
with a log that has grown by what the step does to calls (`InStep.request`, `InStep.complete`,
`InStep.poll`, `InStep.write`). What it does is explained by what is in the log: a call returns what
has been answered under the number of its request.
-/

namespace Switchboard

/-- The client with a connection in the place of its own. -/
def Peer.withConnection (peer : Peer) (conn : Connection) : Peer :=
  { peer with phase := .joined conn }

theorem Peer.withConnection_eq {peer : Peer} {conn : Connection} (h : peer.phase = .joined conn) :
    peer.withConnection conn = peer := by
  unfold withConnection
  rw [← h]

theorem Peer.phase_of_connection? {peer : Peer} {conn : Connection}
    (h : peer.connection? = some conn) : peer.phase = .joined conn := by
  unfold connection? at h
  cases hphase : peer.phase with
  | joined other =>
      rw [hphase] at h
      rw [Option.some.inj h]
  | opening attempt =>
      rw [hphase] at h
      cases h
  | failed error =>
      rw [hphase] at h
      cases h

section Connection

variable {log new : List Event} {drawn : Nat} {relay : Relay} {peer : Peer} {link : Link}
  {conn conn' : Connection}

/-! ## What waits for the writer -/

/-- Frames of those who leave are taken out of the queue, or the writer ends. -/
theorem Uplink.wanes {ahead behind : List Message} {missing : ByteArray}
    (h : Uplink log link (peer.withConnection conn) ahead behind missing)
    (hturn : conn.queue.InTurn) (hwanes : conn.Wanes conn') :
    ∃ behind', Uplink log link (peer.withConnection conn') ahead behind' missing := by
  have hframes : conn'.queue.frames.Sublist (behind.map Message.bytes) := by
    have hold : conn.queue.frames = behind.map Message.bytes := h.frames
    rw [← hold]
    exact hwanes.queue.frames hturn
  obtain ⟨behind', hsub, hframes'⟩ := List.sublist_map_iff.1 hframes
  have hall : (ahead ++ behind').Sublist (ahead ++ behind) := (List.Sublist.refl ahead).append hsub
  refine ⟨behind', h.spelled, ?_, hframes',
    fun message hmessage => h.fits message (hall.subset hmessage),
    h.due.of_sublist (telling_sublist hall)⟩
  intro hwhole bytes hbytes
  have hunwritten : conn'.writer.unwritten? = some bytes := hbytes
  rcases hwanes.writer with hwriter | hwriter
  · rw [hwriter] at hunwritten
    exact h.unwritten hwhole bytes hunwritten
  · rw [hwriter] at hunwritten
    cases hunwritten

/-- A frame is pushed. -/
theorem Uplink.push {ahead behind : List Message} {missing : ByteArray} {message : Message}
    (h : Uplink log link (peer.withConnection conn) ahead behind missing)
    (hframes : conn'.queue.frames = conn.queue.frames ++ [message.bytes])
    (hwriter : conn'.writer = conn.writer) (hfits : message.Fits)
    (hsent : message.isTelling = true → Sent log peer.link message)
    (hnew : ∀ id ∈ asking [message],
      id ∉ asking (ahead ++ behind) ∧ .request peer.link id ∉ marks log) :
    Uplink log link (peer.withConnection conn') ahead (behind ++ [message]) missing where
  spelled := h.spelled
  unwritten := by
    intro hwhole bytes hbytes
    have hunwritten : conn'.writer.unwritten? = some bytes := hbytes
    rw [hwriter] at hunwritten
    exact h.unwritten hwhole bytes hunwritten
  frames := by
    have hold : conn.queue.frames = behind.map Message.bytes := h.frames
    show conn'.queue.frames = _
    rw [hframes, hold, List.map_append]
    rfl
  fits := by
    intro other hother
    rw [← List.append_assoc, List.mem_append, List.mem_singleton] at hother
    rcases hother with hold | rfl
    · exact h.fits other hold
    · exact hfits
  due := by
    rw [← List.append_assoc]
    exact h.due.concat hsent hnew

/-- The writer takes the first frame. -/
theorem Uplink.take {ahead behind : List Message} {missing bytes : ByteArray}
    (h : Uplink log link (peer.withConnection conn) ahead behind missing)
    (hidle : conn.writer = .idle) (hframes : conn.queue.frames = bytes :: conn'.queue.frames)
    (hwriter : conn'.writer.unwritten? = some bytes) :
    ∃ ahead' behind' missing',
      Uplink log link (peer.withConnection conn') ahead' behind' missing' := by
  have hold : conn.queue.frames = behind.map Message.bytes := h.frames
  rw [hframes] at hold
  -- The first frame behind the writer is the one it takes.
  cases behind with
  | nil => cases hold
  | cons message behind =>
      rw [List.map_cons, List.cons.injEq] at hold
      obtain ⟨hbytes, hrest⟩ := hold
      have hsame : ahead ++ [message] ++ behind = ahead ++ message :: behind := by
        rw [List.append_assoc, List.singleton_append]
      refine ⟨ahead ++ [message], behind, missing ++ bytes, ?_, ?_, hrest, ?_, ?_⟩
      · rw [Message.spell_append, ← h.spelled, Message.spell_singleton, ← hbytes,
          ← ByteArray.append_assoc]
        rfl
      · intro hwhole rest hunwritten
        have hall : conn'.writer.unwritten? = some rest := hunwritten
        rw [hwriter, Option.some.injEq] at hall
        -- A writer that waits has written all that it has begun.
        have hnothing : missing = ByteArray.empty := by
          refine h.unwritten hwhole ByteArray.empty ?_
          show conn.writer.unwritten? = some ByteArray.empty
          rw [hidle]
          rfl
        rw [hnothing, ByteArray.empty_append, hall]
      · rw [hsame]
        exact h.fits
      · rw [hsame]
        exact h.due

/-- A part of what has been begun is written. -/
theorem Uplink.write {peer' : Peer} {ahead behind : List Message} {missing bytes : ByteArray}
    (h : Uplink log link peer ahead behind missing) (rest : ByteArray)
    (hlink : peer'.link = peer.link)
    (hbroken : peer'.isBroken = peer.isBroken) (hstream : peer'.toRelay = peer.toRelay ++ bytes)
    (hframes : peer'.frames.Sublist peer.frames) (hbefore : peer.unwritten? = some (bytes ++ rest))
    (hafter : ∀ left, peer'.unwritten? = some left → left = rest) :
    ∃ behind' missing', Uplink log link peer' ahead behind' missing' := by
  rw [h.frames] at hframes
  -- Frames may be lost behind the writer, never ahead of it.
  obtain ⟨behind', hsub, hframes'⟩ := List.sublist_map_iff.1 hframes
  have hall : (ahead ++ behind').Sublist (ahead ++ behind) := (List.Sublist.refl ahead).append hsub
  have hfits : ∀ message ∈ ahead ++ behind', message.Fits :=
    fun message hmessage => h.fits message (hall.subset hmessage)
  have hdue := h.due.of_sublist (telling_sublist hall)
  rw [← hlink] at hdue
  have hspelled := h.spelled
  unfold Peer.inTransit at hspelled
  -- Bytes that go into a broken stream reach nobody.
  cases hwhole : peer.isBroken with
  | true =>
      refine ⟨behind', missing, ?_, ?_, hframes', hfits, hdue⟩
      · unfold Peer.inTransit
        rw [hbroken]
        rw [hwhole] at hspelled ⊢
        exact hspelled
      · intro hwhole'
        rw [hbroken, hwhole] at hwhole'
        cases hwhole'
  | false =>
      have hmissing : missing = bytes ++ rest := h.unwritten hwhole _ hbefore
      refine ⟨behind', rest, ?_, ?_, hframes', hfits, hdue⟩
      · unfold Peer.inTransit
        rw [hbroken]
        rw [hwhole] at hspelled ⊢
        rw [← hspelled, hmissing, if_neg Bool.false_ne_true, if_neg Bool.false_ne_true, hstream]
        simp only [ByteArray.append_assoc]
      · intro _ left hleft
        exact (hafter left hleft).symm

/-- What is written now and what is left make up what there was. -/
theorem extract_min (frame : ByteArray) (written room : Nat) :
    frame.extract written frame.size =
      frame.extract written (min frame.size (written + room)) ++
        frame.extract (min frame.size (written + room)) frame.size := by
  by_cases hend : frame.size ≤ written + room
  · have hnothing : frame.extract frame.size frame.size = ByteArray.empty :=
      ByteArray.extract_eq_empty_iff.2 (by omega)
    rw [Nat.min_eq_left hend, hnothing, ByteArray.append_empty]
  · rw [Nat.min_eq_right (by omega)]
    exact ByteArray.extract_eq_extract_append_extract (written + room) (by omega) (by omega)

/-! ## What a client has read -/

/-- A reader that goes on, or ends, without having read. -/
theorem Downlink.stay {flight : List Message}
    (h : Downlink log relay link (peer.withConnection conn) flight)
    (hreader : conn'.reader = conn.reader ∨ conn'.reader = none) :
    Downlink log relay link (peer.withConnection conn') flight :=
  { h with
    spelled := by
      intro decoder hdecoder
      have hrunning : conn'.reader = some decoder := hdecoder
      rcases hreader with hsame | hnone
      · rw [hsame] at hrunning
        exact h.spelled decoder hrunning
      · rw [hnone] at hrunning
        cases hrunning }

/-! ## Calls and services -/

theorem Ledger.wanes {link : LinkId} (h : Ledger log link conn) (hwanes : conn.Wanes conn') :
    Ledger log link conn' where
  sound := h.sound.of_wanes hwanes
  calls := fun call hcall => h.calls call (hwanes.calls.subset hcall)
  services := by
    rw [hwanes.services]
    exact h.services
  slots := by
    intro slot hslot payload hstate
    rcases hwanes.pending.replies slot hslot payload hstate with hold | hfalse
    · exact h.slots slot hold payload hstate
    · exact hfalse.elim

/-- What is known stays known as names and numbers go on. -/
theorem Peer.Knows.mono {peer peer' : Peer} {drawn drawn' : Nat} {mark : Mark}
    (h : peer.Knows drawn mark) (hlink : peer'.link = peer.link)
    (hcall : peer.nextCall ≤ peer'.nextCall) (hservice : peer.nextService ≤ peer'.nextService)
    (hdrawn : drawn ≤ drawn') : peer'.Knows drawn' mark := by
  cases mark with
  | call caller key => exact fun e => Nat.lt_of_lt_of_le (h (e.trans hlink)) hcall
  | number caller id => exact fun e => (h (e.trans hlink)).mono hdrawn
  | request caller id => trivial
  | route id => trivial
  | service target key => exact fun e => Nat.lt_of_lt_of_le (h (e.trans hlink)) hservice
  | passed target id => trivial
  | completion target key => exact fun e => Nat.lt_of_lt_of_le (h (e.trans hlink)) hservice
  | result caller key => exact fun e => Nat.lt_of_lt_of_le (h (e.trans hlink)) hcall

/-! ## Steps of a connection -/

/-- More numbers may have been drawn. -/
theorem InStep.more {drawn' : Nat} (h : InStep log drawn relay peer link)
    (hdrawn : drawn ≤ drawn') :
    InStep log drawn' relay peer link :=
  { h with
    knows := fun mark hmark =>
      (h.knows mark hmark).mono rfl (Nat.le_refl _) (Nat.le_refl _) hdrawn }

/-- A client is in step if its connection is, and all that has happened is known to it. -/
theorem InStep.of_connection {drawn' : Nat}
    (h : InStep log drawn relay (peer.withConnection conn) link)
    (huplink : ∀ ahead behind missing,
      Uplink log link (peer.withConnection conn) ahead behind missing →
        ∃ ahead behind missing,
          Uplink (log ++ new) link (peer.withConnection conn') ahead behind missing)
    (hdownlink : ∀ flight, Downlink log relay link (peer.withConnection conn) flight →
      ∃ flight, Downlink (log ++ new) relay link (peer.withConnection conn') flight)
    (hcall : conn.nextCall ≤ conn'.nextCall) (hservice : conn.nextService ≤ conn'.nextService)
    (hdrawn : drawn ≤ drawn')
    (hknows : ∀ mark ∈ marks new, (peer.withConnection conn').Knows drawn' mark)
    (hledger : Ledger (log ++ new) peer.link conn') :
    InStep (log ++ new) drawn' relay (peer.withConnection conn') link where
  found := h.found
  uplink := by
    obtain ⟨ahead, behind, missing, hold⟩ := h.uplink
    exact huplink ahead behind missing hold
  downlink := by
    obtain ⟨flight, hold⟩ := h.downlink
    exact hdownlink flight hold
  knows := by
    intro mark hmark
    rcases mem_marks_append.1 hmark with hold | hmark
    · exact (h.knows mark hold).mono rfl hcall hservice hdrawn
    · exact hknows mark hmark
  ledger := by
    intro conn'' hconn
    cases hconn
    exact hledger

/-- What is known of the connection of a client. -/
theorem InStep.ledger_connection (h : InStep log drawn relay (peer.withConnection conn) link) :
    Ledger log peer.link conn := h.ledger conn rfl

/-- Nobody but those who leave or end does anything. -/
theorem InStep.wanes (h : InStep log drawn relay (peer.withConnection conn) link)
    (hwanes : conn.Wanes conn') : InStep log drawn relay (peer.withConnection conn') link := by
  rw [← List.append_nil log]
  refine h.of_connection ?_ ?_ (Nat.le_of_eq hwanes.nextCall.symm)
    (Nat.le_of_eq hwanes.nextService.symm) (Nat.le_refl drawn) (fun _ hmark => nomatch hmark) ?_
  · intro ahead behind missing huplink
    obtain ⟨behind', hafter⟩ := huplink.wanes h.ledger_connection.sound.turn hwanes
    rw [List.append_nil]
    exact ⟨ahead, behind', missing, hafter⟩
  · intro flight hdownlink
    rw [List.append_nil]
    exact ⟨flight, hdownlink.stay hwanes.reader⟩
  · rw [List.append_nil]
    exact h.ledger_connection.wanes hwanes

/-- The writer takes an item. -/
theorem InStep.takeItem (h : InStep log drawn relay (peer.withConnection conn) link) :
    InStep log drawn relay (peer.withConnection conn.takeItem) link := by
  have hsound := h.ledger_connection.sound.takeItem
  have heffect := conn.takeItem_effect
  generalize conn.takeItem = after at heffect hsound ⊢
  -- Whatever the writer takes, it owes the stream the whole of it.
  have htaken : ∀ {bytes : ByteArray} {item : WriteItem} {queue : WriteQueue} {writer : Writer},
      conn.writer = .idle → conn.queue.pop = some (item, queue) → item.frame? = some bytes →
      writer.unwritten? = some bytes → Connection.Sound { conn with queue, writer } →
        InStep log drawn relay (peer.withConnection { conn with queue, writer }) link := by
    intro bytes item queue writer hidle hpop hframe hwriter hsound
    have hframes : conn.queue.frames = bytes :: queue.frames := by
      rw [WriteQueue.frames_of_pop hpop, hframe]
      rfl
    obtain ⟨ahead, behind, missing, huplink⟩ := h.uplink
    obtain ⟨flight, hdownlink⟩ := h.downlink
    refine ⟨h.found, huplink.take hidle hframes hwriter, ⟨flight, hdownlink.stay (Or.inl rfl)⟩,
      h.knows, ?_⟩
    intro conn' hconn
    cases hconn
    exact { h.ledger_connection with sound := hsound }
  cases heffect with
  | idle hidle => exact h
  | frame bytes queue hidle hpop =>
      have hall : (Writer.writing bytes 0).unwritten? = some bytes := by
        rw [Writer.unwritten?, ByteArray.extract_zero_size]
      exact htaken hidle hpop rfl hall hsound
  | farewell bytes queue hidle hpop =>
      have hall : (Writer.parting bytes 0).unwritten? = some bytes := by
        rw [Writer.unwritten?, ByteArray.extract_zero_size]
      exact htaken hidle hpop rfl hall hsound
  | ended queue hidle hpop =>
      -- The end of the stream is taken, and then the writer ends.
      have hframes : queue.frames = conn.queue.frames := by
        rw [WriteQueue.frames_of_pop hpop]
        rfl
      have hturn := WriteQueue.inTurn_of_pop h.ledger_connection.sound.turn hpop
      have hpopped : InStep log drawn relay (peer.withConnection { conn with queue }) link := by
        obtain ⟨ahead, behind, missing, huplink⟩ := h.uplink
        obtain ⟨flight, hdownlink⟩ := h.downlink
        refine ⟨h.found, ⟨ahead, behind, missing, huplink.spelled, huplink.unwritten, ?_,
          huplink.fits, huplink.due⟩, ⟨flight, hdownlink.stay (Or.inl rfl)⟩, h.knows, ?_⟩
        · exact hframes.trans huplink.frames
        · intro conn' hconn
          cases hconn
          exact { h.ledger_connection with
            sound := h.ledger_connection.sound.of_queue queue hturn conn.writer conn.reader }
      exact hpopped.wanes (Connection.wanes_endWriter _)

/-- The owner closes the connection. -/
theorem InStep.close (h : InStep log drawn relay (peer.withConnection conn) link) :
    InStep log drawn relay (peer.withConnection conn.close.2) link := by
  have hsound := h.ledger_connection.sound.close
  obtain ⟨middle, hwanes, hafter⟩ := conn.close_effect
  have hmiddle := h.wanes hwanes
  -- The last frame finds room in the queue, or it is not sent.
  rcases hafter with hafter | hafter
  · rw [hafter]
    exact hmiddle
  · rw [hafter] at hsound ⊢
    have hfits : (Message.close none).Fits := by decide
    obtain ⟨ahead, behind, missing, huplink⟩ := hmiddle.uplink
    obtain ⟨flight, hdownlink⟩ := hmiddle.downlink
    refine ⟨hmiddle.found, ?_, ⟨flight, hdownlink.stay (Or.inl rfl)⟩, hmiddle.knows, ?_⟩
    · rcases WriteQueue.frames_offer hmiddle.ledger_connection.sound.turn
        (.shutdown (some (Message.close none).bytes)) with hframes | hframes
      · exact ⟨ahead, behind, missing, huplink.spelled, huplink.unwritten,
          hframes.trans huplink.frames, huplink.fits, huplink.due⟩
      · have hlast : (middle.queue.offer (.shutdown (some (Message.close none).bytes))).frames =
            middle.queue.frames ++ [(Message.close none).bytes] := hframes
        -- A last frame is neither an answer nor a request.
        have hplain : (Message.close none).isTelling = true → Sent log peer.link (.close none) :=
          fun htelling => absurd htelling Bool.false_ne_true
        have hnothing : asking [Message.close none] = [] := rfl
        have hnew : ∀ id ∈ asking [Message.close none],
            id ∉ asking (ahead ++ behind) ∧ .request peer.link id ∉ marks log := by
          rw [hnothing]
          exact fun _ hid => nomatch hid
        generalize Message.close none = message at hfits hlast hplain hnew ⊢
        exact ⟨ahead, behind ++ [message], missing, huplink.push hlast rfl hfits hplain hnew⟩
    · intro conn' hconn
      cases hconn
      exact { hmiddle.ledger_connection with sound := hsound }

/-- The writer gives bytes to the stream. -/
theorem InStep.write (h : InStep log drawn relay (peer.withConnection conn) link) (room : Nat) :
    InStep log drawn relay ((peer.withConnection conn).write room) link := by
  have hsound := h.ledger_connection.sound.write room
  have hdone : ∀ frame : ByteArray, frame.extract frame.size frame.size = ByteArray.empty :=
    fun frame => ByteArray.extract_eq_empty_iff.2 (by omega)
  -- What the writer gives away was the beginning of what it owed.
  have hwritten : ∀ (rest : ByteArray) {bytes : ByteArray} {after : Connection},
      conn.write room = (bytes, after) → conn.writer.unwritten? = some (bytes ++ rest) →
      (∀ left, after.writer.unwritten? = some left → left = rest) →
      after.queue.frames.Sublist conn.queue.frames → after.reader = conn.reader →
      after.nextCall = conn.nextCall → after.nextService = conn.nextService →
      Ledger log peer.link after →
        InStep log drawn relay ((peer.withConnection conn).write room) link := by
    intro rest bytes after hwrite hbefore hafter hframes hreader hcall hservice hledger
    have hpeer : (peer.withConnection conn).write room =
        { peer.withConnection after with toRelay := peer.toRelay ++ bytes } := by
      unfold Peer.write Peer.withConnection
      simp only [hwrite]
    rw [hpeer]
    obtain ⟨ahead, behind, missing, huplink⟩ := h.uplink
    obtain ⟨flight, hdownlink⟩ := h.downlink
    have hstay : Downlink log relay link (peer.withConnection after) flight :=
      hdownlink.stay (Or.inl hreader)
    refine ⟨h.found, ⟨ahead, huplink.write rest rfl rfl rfl hframes hbefore hafter⟩,
      ⟨flight, hstay.shipped, hstay.spelled, hstay.fits, hstay.due⟩, ?_, ?_⟩
    · intro mark hmark
      exact (h.knows mark hmark).mono rfl (Nat.le_of_eq hcall.symm) (Nat.le_of_eq hservice.symm)
        (Nat.le_refl drawn)
    · intro conn' hconn
      cases hconn
      exact hledger
  -- A writer that waits, or has ended, gives nothing.
  have hstill : conn.write room = (ByteArray.empty, conn) →
      InStep log drawn relay ((peer.withConnection conn).write room) link := by
    intro hwrite
    have hpeer : (peer.withConnection conn).write room = peer.withConnection conn := by
      unfold Peer.write Peer.withConnection
      simp only [hwrite, ByteArray.append_empty]
    rw [hpeer]
    exact h
  cases hwriter : conn.writer with
  | idle =>
      apply hstill
      unfold Connection.write
      rw [hwriter]
  | ended =>
      apply hstill
      unfold Connection.write
      rw [hwriter]
  | writing frame written =>
      have hwrite : conn.write room = (frame.extract written (min frame.size (written + room)),
          { conn with
            writer := if min frame.size (written + room) = frame.size then .idle
              else .writing frame (min frame.size (written + room)) }) := by
        unfold Connection.write
        rw [hwriter]
      rw [hwrite] at hsound
      refine hwritten (frame.extract (min frame.size (written + room)) frame.size) hwrite ?_ ?_
        (List.Sublist.refl _) rfl rfl rfl { h.ledger_connection with sound := hsound }
      · rw [hwriter, Writer.unwritten?, ← extract_min]
      · -- What it owes now is the rest of the frame, or nothing.
        intro left hleft
        by_cases hend : min frame.size (written + room) = frame.size
        · rw [if_pos hend] at hleft
          cases hleft
          rw [hend, hdone]
        · rw [if_neg hend] at hleft
          cases hleft
          rfl
  | parting frame written =>
      by_cases hend : min frame.size (written + room) = frame.size
      · have hwrite : conn.write room =
            (frame.extract written (min frame.size (written + room)), conn.endWriter) := by
          unfold Connection.write
          rw [hwriter]
          simp only [if_pos hend]
        have hwanes := conn.wanes_endWriter
        -- The writer ends with its last frame, and takes the queue with it.
        refine hwritten (frame.extract (min frame.size (written + room)) frame.size) hwrite ?_ ?_
          (hwanes.queue.frames h.ledger_connection.sound.turn) rfl rfl rfl
          (h.ledger_connection.wanes hwanes)
        · rw [hwriter, Writer.unwritten?, ← extract_min]
        · intro left hleft
          cases hleft
      · have hwrite : conn.write room = (frame.extract written (min frame.size (written + room)),
            { conn with writer := .parting frame (min frame.size (written + room)) }) := by
          unfold Connection.write
          rw [hwriter]
          simp only [if_neg hend]
        rw [hwrite] at hsound
        refine hwritten (frame.extract (min frame.size (written + room)) frame.size) hwrite ?_ ?_
          (List.Sublist.refl _) rfl rfl rfl { h.ledger_connection with sound := hsound }
        · rw [hwriter, Writer.unwritten?, ← extract_min]
        · intro left hleft
          cases hleft
          rfl

/-! ## Handlers that come to their ends -/

theorem asking_toMessage (id : RequestId) (result : HandlerResult) :
    asking [result.toMessage id] = [] := by
  cases result <;> rfl

/-- A handler is done. Its answer is sent with reason, if it is. -/
theorem InStep.complete (h : InStep log drawn relay (peer.withConnection conn) link)
    (hlog : Coherent log) {key : Nat} {service : Service}
    (hservice : conn.service? key = some service) (result : HandlerResult) :
    InStep (log ++ [.completed peer.link service result]) drawn relay
        (peer.withConnection (conn.complete service result)) link ∧
      Coherent (log ++ [.completed peer.link service result]) := by
  have hsound := h.ledger_connection.sound.complete service result
  have hmem : service ∈ conn.services := List.mem_of_find?_eq_some hservice
  obtain ⟨hinvoked, hopen⟩ := h.ledger_connection.services service hmem
  -- Only the end of this service is named.
  have hmarks : marks [Event.completed peer.link service result] =
      [.completion peer.link service.key] := rfl
  have hnew : .completed peer.link service result ∈
      log ++ [Event.completed peer.link service result] :=
    List.mem_append_right _ (List.mem_singleton_self _)
  constructor
  · -- An answer that fits is pushed; it was made by the handler that has just ended.
    rw [Connection.complete_eq] at hsound ⊢
    refine h.of_connection ?_ ?_ (Nat.le_refl _) (Nat.le_refl _) (Nat.le_refl _) ?_ ?_
    · intro ahead behind missing huplink
      have hgrown := huplink.grow [.completed peer.link service result] (by
        intro id hid hmark
        rw [hmarks, List.mem_singleton] at hmark
        cases hmark)
      by_cases hfits : (result.toMessage service.id).Fits
      · refine ⟨ahead, behind ++ [result.toMessage service.id], missing,
          hgrown.push ?_ rfl hfits ?_ ?_⟩
        · show WriteQueue.frames (if _ then _ else _) = _
          rw [if_pos hfits, WriteQueue.frames_push h.ledger_connection.sound.turn]
        · intro htelling
          cases result with
          | answered payload => exact .reply service payload hnew
          | failed text => cases htelling
          | brokeOff text => cases htelling
        · rw [asking_toMessage]
          exact fun _ hid => nomatch hid
      · -- An answer that does not fit is not sent.
        refine ⟨ahead, behind, missing, hgrown.spelled, hgrown.unwritten, ?_, hgrown.fits,
          hgrown.due⟩
        show WriteQueue.frames (if _ then _ else _) = _
        rw [if_neg hfits]
        exact hgrown.frames
    · intro flight hdownlink
      refine ⟨flight, (hdownlink.grow _ ?_).stay (Or.inl rfl)⟩
      intro id hmark
      rw [hmarks, List.mem_singleton] at hmark
      cases hmark
    · intro mark hmark
      rw [hmarks, List.mem_singleton] at hmark
      rw [hmark]
      exact fun _ => h.ledger_connection.sound.serviceKeys service hmem
    · -- The services that go on have not ended.
      have hkept : Ledger log peer.link
          { conn with services := conn.services.filter fun other => other.key ≠ service.key } :=
        { h.ledger_connection with
          sound := { h.ledger_connection.sound with
            serviceKeys := fun other hother =>
              h.ledger_connection.sound.serviceKeys other (List.mem_of_mem_filter hother)
            servicesDistinct := h.ledger_connection.sound.servicesDistinct.sublist
              (List.filter_sublist.map Service.key) }
          services := fun other hother =>
            h.ledger_connection.services other (List.mem_of_mem_filter hother) }
      have hgrown := hkept.grow [.completed peer.link service result]
        (by
          intro call hcall hmark
          rw [hmarks, List.mem_singleton] at hmark
          cases hmark)
        (by
          intro other hother hmark
          rw [hmarks, List.mem_singleton, Mark.completion.injEq] at hmark
          exact absurd hmark.2 (by simpa using List.of_mem_filter hother))
      exact { hgrown with sound := hsound }
  · -- The end of a service is told once, and after its invocation.
    refine hlog.grow (List.nodup_singleton _) ?_ ?_
    · intro mark hmark
      rw [hmarks, List.mem_singleton] at hmark
      rw [hmark]
      exact hopen
    · intro event hevent
      rw [List.mem_singleton.1 hevent]
      obtain ⟨errand, htarget, hsame, hserved⟩ := hlog.explained _ hinvoked
      refine ⟨errand, htarget, hsame, hserved.completed ?_⟩
      rw [htarget, hsame]
      exact List.mem_singleton_self _

/-! ## Calls that return -/

/-- A call is looked after. If it returns an answer, the answer is its own. -/
theorem InStep.poll (h : InStep log drawn relay (peer.withConnection conn) link)
    (hlog : Coherent log) (key : CallKey) (now : Instant) :
    InStep (log ++ (conn.pollBy key now).1.toList.map (.returned peer.link key)) drawn relay
        (peer.withConnection (conn.pollBy key now).2) link ∧
      Coherent (log ++ (conn.pollBy key now).1.toList.map (.returned peer.link key)) := by
  have hledger := h.ledger_connection
  have hwanes := conn.wanes_pollBy key now
  have hstay := h.wanes hwanes
  -- A call that goes on is told nothing.
  cases hresult : (conn.pollBy key now).1 with
  | none =>
      rw [Option.toList_none, List.map_nil, List.append_nil]
      exact ⟨hstay, hlog⟩
  | some result =>
      have hmarks : marks [Event.returned peer.link key result] = [.result peer.link key] := rfl
      cases hcall : conn.call? key with
      | none =>
          rw [Connection.pollBy_of_none hcall] at hresult
          cases hresult
      | some call =>
          have hmem : call ∈ conn.calls := List.mem_of_find?_eq_some hcall
          have hkey : call.key = key := Lookup.key_of_find? hcall
          obtain ⟨⟨cluster, payload, hcalled⟩, hopen⟩ := hledger.calls call hmem
          have hgone := Connection.pollBy_of_some hcall now ▸ hresult
          have hothers := Connection.key_ne_of_poll hgone
          rw [← Connection.pollBy_of_some hcall now] at hothers
          rw [Option.toList_some, List.map_singleton]
          constructor
          · -- Nothing but the result is new.
            refine ⟨hstay.found, ?_, ?_, ?_, ?_⟩
            · obtain ⟨ahead, behind, missing, huplink⟩ := hstay.uplink
              refine ⟨ahead, behind, missing, huplink.grow _ ?_⟩
              intro id hid hmark
              rw [hmarks, List.mem_singleton] at hmark
              cases hmark
            · obtain ⟨flight, hdownlink⟩ := hstay.downlink
              refine ⟨flight, hdownlink.grow _ ?_⟩
              intro id hmark
              rw [hmarks, List.mem_singleton] at hmark
              cases hmark
            · intro mark hmark
              rcases mem_marks_append.1 hmark with hold | hmark
              · exact hstay.knows mark hold
              · rw [hmarks, List.mem_singleton] at hmark
                rw [hmark]
                intro _
                show key < (conn.pollBy key now).2.nextCall
                rw [hwanes.nextCall, ← hkey]
                exact hledger.sound.callKeys call hmem
            · intro conn' hconn
              cases hconn
              -- The call that has returned is not in progress any more.
              refine hstay.ledger_connection.grow _ ?_ ?_
              · intro other hother hmark
                rw [hmarks, List.mem_singleton, Mark.result.injEq] at hmark
                exact hothers other hother (hmark.2.trans hkey.symm)
              · intro service _ hmark
                rw [hmarks, List.mem_singleton] at hmark
                cases hmark
          · refine hlog.grow (List.nodup_singleton _) ?_ ?_
            · -- No result of this call has been told before.
              intro mark hmark
              rw [hmarks, List.mem_singleton] at hmark
              rw [hmark, ← hkey]
              exact hopen
            · intro event hevent
              rw [List.mem_singleton.1 hevent]
              rintro answer rfl
              -- The answer stood in the slot of the call, under the number of its request.
              obtain ⟨slot, hslot, hname, hstate⟩ := (conn.poll_effect call now).2 answer hgone
              have hid := (hledger.sound.callSlots call hmem).2 slot hslot hname
              obtain ⟨errand, hcaller, hnumber, service, hcompleted⟩ :=
                hledger.slots slot hslot answer hstate
              have hsame : errand.called = .called peer.link call.key call.id cluster payload := by
                refine eq_of_mark hlog.distinct _ hcompleted.served.routed.called_mem hcalled
                  (List.mem_cons_of_mem _ List.mem_cons_self) ?_
                rw [hcaller, hnumber, hid]
                exact List.mem_cons_of_mem _ List.mem_cons_self
              have hcallKey : errand.key = key := by
                rw [← hkey]
                injection hsame
              refine ⟨errand, hcaller, hcallKey, service, hcompleted.returned ?_⟩
              rw [hcaller, hcallKey]
              exact List.mem_singleton_self _

/-! ## Calls that begin -/

/-- A number has been drawn, and nothing else has come of it. -/
theorem InStep.numbered {drawn' : Nat} (h : InStep log drawn relay (peer.withConnection conn) link)
    (hsound : conn'.Sound) (hcalls : conn'.calls = conn.calls)
    (hservices : conn'.services = conn.services) (hqueue : conn'.queue = conn.queue)
    (hwriter : conn'.writer = conn.writer) (hreader : conn'.reader = conn.reader)
    (hcall : conn'.nextCall = conn.nextCall) (hservice : conn'.nextService = conn.nextService)
    (hslots : ∀ slot ∈ conn'.pending.slots, ∀ payload, slot.state = .resolved (.reply payload) →
      slot ∈ conn.pending.slots) (hdrawn : drawn ≤ drawn') :
    InStep log drawn' relay (peer.withConnection conn') link where
  found := h.found
  uplink := by
    obtain ⟨ahead, behind, missing, huplink⟩ := h.uplink
    refine ⟨ahead, behind, missing, huplink.spelled, ?_, ?_, huplink.fits, huplink.due⟩
    · intro hwhole bytes hbytes
      have hunwritten : conn'.writer.unwritten? = some bytes := hbytes
      rw [hwriter] at hunwritten
      exact huplink.unwritten hwhole bytes hunwritten
    · show conn'.queue.frames = _
      rw [hqueue]
      exact huplink.frames
  downlink := by
    obtain ⟨flight, hdownlink⟩ := h.downlink
    exact ⟨flight, hdownlink.stay (Or.inl hreader)⟩
  knows := fun mark hmark =>
    (h.knows mark hmark).mono rfl (Nat.le_of_eq hcall.symm) (Nat.le_of_eq hservice.symm) hdrawn
  ledger := by
    intro conn'' hconn
    cases hconn
    have hledger := h.ledger_connection
    exact ⟨hsound, hcalls ▸ hledger.calls, hservices ▸ hledger.services,
      fun slot hslot payload hstate =>
        hledger.slots slot (hslots slot hslot payload hstate) payload hstate⟩

/-- A call goes on whose request is given a new number. -/
theorem InStep.started (h : InStep log drawn relay (peer.withConnection conn) link)
    (hlog : Coherent log) {cluster : String} {payload : ByteArray} {timeoutMs : UInt64}
    {slot : SlotKey} {pending : PendingTable} {deadline : Instant}
    (hcount : conn.ids.next = UInt64.ofNat (1 + drawn)) (hroom : drawn < UInt64.size)
    (hregister : conn.pending.register ⟨conn.ids.next⟩ = (.ok slot, pending))
    (hfits : (Message.request ⟨conn.ids.next⟩ cluster timeoutMs payload).Fits)
    (hafter : conn' = { conn with
      ids := ⟨conn.ids.next + 1⟩
      pending
      calls := conn.calls ++ [⟨conn.nextCall, ⟨conn.ids.next⟩, slot, deadline⟩]
      nextCall := conn.nextCall + 1
      queue := conn.queue.push ⟨some conn.nextCall,
        (Message.request ⟨conn.ids.next⟩ cluster timeoutMs payload).bytes⟩ })
    (hsound : conn'.Sound) :
    InStep (log ++ [.called peer.link conn.nextCall ⟨conn.ids.next⟩ cluster payload])
      (drawn + 1) relay
        (peer.withConnection conn') link ∧
      Coherent (log ++ [.called peer.link conn.nextCall ⟨conn.ids.next⟩ cluster payload]) := by
  have hledger := h.ledger_connection
  have hmarks : marks [Event.called peer.link conn.nextCall ⟨conn.ids.next⟩ cluster payload] =
      [.call peer.link conn.nextCall, .number peer.link ⟨conn.ids.next⟩] := rfl
  have hcalled : .called peer.link conn.nextCall ⟨conn.ids.next⟩ cluster payload ∈
      log ++ [Event.called peer.link conn.nextCall ⟨conn.ids.next⟩ cluster payload] :=
    List.mem_append_right _ (List.mem_singleton_self _)
  -- Neither the name nor the number has been given before.
  have hname : .call peer.link conn.nextCall ∉ marks log := by
    intro hmark
    exact Nat.lt_irrefl _ (h.knows _ hmark rfl)
  have hresult : .result peer.link conn.nextCall ∉ marks log := by
    intro hmark
    exact Nat.lt_irrefl _ (h.knows _ hmark rfl)
  have hnumber : .number peer.link ⟨conn.ids.next⟩ ∉ marks log := by
    intro hmark
    have hissued : Issued drawn conn.ids.next := h.knows _ hmark rfl
    rw [hcount] at hissued
    exact not_issued_next hroom hissued
  have hother : ∀ {mark : Mark}, (∀ key, mark ≠ .call peer.link key) →
      (∀ id, mark ≠ .number peer.link id) →
      mark ∉ marks [Event.called peer.link conn.nextCall ⟨conn.ids.next⟩ cluster payload] := by
    intro mark hcall hid hmark
    rw [hmarks, List.mem_cons, List.mem_singleton] at hmark
    rcases hmark with hmark | hmark
    · exact hcall _ hmark
    · exact hid _ hmark
  obtain ⟨-, -, -, hslots⟩ := PendingTable.register_eq_ok hregister
  subst hafter
  constructor
  · refine h.of_connection ?_ ?_ (Nat.le_succ _) (Nat.le_refl _) (Nat.le_succ _) ?_ ?_
    · -- The request comes last in the queue, under a number that has not been used.
      intro ahead behind missing huplink
      have hgrown := huplink.grow
        [.called peer.link conn.nextCall ⟨conn.ids.next⟩ cluster payload]
        fun id _ => hother (fun _ h => nomatch h) (fun _ h => nomatch h)
      refine ⟨ahead, behind ++ [_], missing,
        hgrown.push (WriteQueue.frames_push hledger.sound.turn _)
        rfl hfits (fun _ => .request _ _ _ _ _ hcalled) ?_⟩
      intro id hid
      rw [asking_singleton] at hid
      cases List.mem_singleton.1 hid
      refine ⟨fun hold => hnumber (huplink.due.number_of_asking hold), fun hmark => ?_⟩
      exact hnumber (hlog.number_of_request
        (mem_marks_of_append hmark (hother (fun _ h => nomatch h) (fun _ h => nomatch h))))
    · intro flight hdownlink
      exact ⟨flight, (hdownlink.grow _ fun id => hother (fun _ h => nomatch h)
        (fun _ h => nomatch h)).stay (Or.inl rfl)⟩
    · intro mark hmark
      rw [hmarks, List.mem_cons, List.mem_singleton] at hmark
      rcases hmark with rfl | rfl
      · exact fun _ => Nat.lt_succ_self _
      · intro _
        show Issued (drawn + 1) conn.ids.next
        rw [hcount]
        exact issued_next drawn
    · have hgrown := hledger.grow
        [.called peer.link conn.nextCall ⟨conn.ids.next⟩ cluster payload]
        (fun _ _ => hother (fun _ h => nomatch h) (fun _ h => nomatch h))
        (fun _ _ => hother (fun _ h => nomatch h) (fun _ h => nomatch h))
      refine ⟨hsound, ?_, hgrown.services, ?_⟩
      · -- The call is known to have begun, and to have no result.
        intro call hcall
        rcases List.mem_append.1 hcall with hold | hnew
        · exact hgrown.calls call hold
        · rw [List.mem_singleton.1 hnew]
          refine ⟨⟨cluster, payload, hcalled⟩, fun hmark => hresult ?_⟩
          exact mem_marks_of_append hmark (hother (fun _ h => nomatch h) (fun _ h => nomatch h))
      · -- The new slot holds nothing.
        intro found hfound answer hstate
        have hmem : found ∈ pending.slots := hfound
        rw [hslots, List.mem_append, List.mem_singleton] at hmem
        rcases hmem with hold | rfl
        · exact hgrown.slots found hold answer hstate
        · cases hstate
  · refine hlog.grow ?_ ?_ ?_
    · rw [hmarks]
      refine List.nodup_cons.2 ⟨?_, List.nodup_singleton _⟩
      intro hmem
      -- A name is not a number.
      cases List.mem_singleton.1 hmem
    · intro mark hmark
      rw [hmarks, List.mem_cons, List.mem_singleton] at hmark
      rcases hmark with rfl | rfl
      · exact hname
      · exact hnumber
    · intro event hevent
      rw [List.mem_singleton.1 hevent]
      trivial

/-- A call begins, or fails at once. -/
theorem InStep.request (h : InStep log drawn relay (peer.withConnection conn) link)
    (hlog : Coherent log) (cluster : String) (payload : ByteArray) (timeout : Duration)
    (now : Instant)
    (hcount : conn.ids.next = UInt64.ofNat (1 + drawn))
    (hroom : (conn.request cluster payload timeout now).2.ids.next ≠ conn.ids.next →
      drawn < UInt64.size) :
    InStep (log ++ Peer.begun peer.link ⟨conn.ids.next⟩ cluster payload
          (conn.request cluster payload timeout now).1)
        (drawn + moves conn.ids.next (conn.request cluster payload timeout now).2.ids.next) relay
        (peer.withConnection (conn.request cluster payload timeout now).2) link ∧
      Coherent (log ++ Peer.begun peer.link ⟨conn.ids.next⟩ cluster payload
        (conn.request cluster payload timeout now).1) := by
  have hsound := h.ledger_connection.sound.request cluster payload timeout now
  have heffect := conn.request_effect cluster payload timeout now
  generalize (conn.request cluster payload timeout now).1 = start at heffect ⊢
  generalize (conn.request cluster payload timeout now).2 = after at heffect hsound hroom ⊢
  cases heffect with
  | declined error =>
      rw [moves_of_eq rfl, Nat.add_zero, Peer.begun, List.append_nil]
      exact ⟨h, hlog⟩
  | exhausted hid =>
      rw [Peer.begun, List.append_nil]
      exact ⟨h.numbered hsound rfl rfl rfl rfl rfl rfl rfl (fun _ hslot _ _ => hslot)
        (Nat.le_add_right _ _), hlog⟩
  | unregistered error hid =>
      rw [Peer.begun, List.append_nil]
      exact ⟨h.numbered hsound rfl rfl rfl rfl rfl rfl rfl (fun _ hslot _ _ => hslot)
        (Nat.le_add_right _ _), hlog⟩
  | unwritten slot pending fault hid hregister =>
      rw [Peer.begun, List.append_nil]
      -- What has been registered is dropped again.
      refine ⟨h.numbered hsound rfl rfl rfl rfl rfl rfl rfl ?_ (Nat.le_add_right _ _), hlog⟩
      intro found hfound answer hstate
      obtain ⟨-, -, -, hslots⟩ := PendingTable.register_eq_ok hregister
      have hevolves : PendingTable.Evolves (fun _ _ => False) pending (pending.drop slot) :=
        PendingTable.evolves_drop pending slot
      rcases hevolves.replies found hfound answer hstate with hold | hfalse
      · rw [hslots, List.mem_append, List.mem_singleton] at hold
        rcases hold with hold | rfl
        · exact hold
        · cases hstate
      · exact hfalse.elim
  | started slot pending hid hregister hfits =>
      rw [moves_succ]
      exact h.started hlog hcount (hroom (succ_ne_self _)) hregister hfits rfl hsound

end Connection

end Switchboard
