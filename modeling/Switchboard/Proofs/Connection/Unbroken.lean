import Switchboard.Proofs.Connection.Lifecycle

/-!
# Writers that are not broken off

A writer ends in one of two ways. It has come to the end of what it is to write: the frames that its
queue has taken before the first order to end the stream, and the last frame that comes with the
order (`Unbroken`). Or it is broken off before (`BreaksOff`). Without the latter, every turn keeps
the former (`Lived.unbroken_run`). As long as nothing ends a connection and nobody stops its writer,
only frames come into the queue, and nothing breaks the writer off (`Upright.run`).
-/

namespace Switchboard

/-- Nothing comes behind the first order to end the stream. -/
theorem script_append_of_shutdown {items : List WriteItem}
    (h : ∃ last, .shutdown last ∈ items) (more : List WriteItem) :
    script (items ++ more) = script items := by
  induction items with
  | nil =>
      obtain ⟨last, hlast⟩ := h
      cases hlast
  | cons item items ih =>
      cases item with
      | frame bytes =>
          obtain ⟨last, hlast⟩ := h
          have hrest : WriteItem.shutdown last ∈ items := by simpa using hlast
          rw [List.cons_append, script, script, ih ⟨last, hrest⟩]
      | shutdown last => rfl

namespace WriteQueue

variable {queue : WriteQueue} {item : WriteItem}

/-- Whoever has a frame brings that, and no order to end the stream. -/
theorem isFrame_of_entering {waiter : Waiter} (h : item ∈ queue.entering waiter) :
    item.isFrame = true := by
  unfold entering at h
  split at h
  · rw [List.mem_singleton.1 h]
    rfl
  · cases h

theorem isFrame_of_rising (h : item ∈ queue.rising) : item.isFrame = true := by
  obtain ⟨waiter, -, rfl⟩ := Option.map_eq_some_iff.1 (Option.mem_toList.1 h)
  rfl

end WriteQueue

namespace Connection

/-! ## Items that come in while nothing ends -/

section Calm

variable {conn : Connection} {step : Step}

/-- A reader that does not end leaves the write queue alone. -/
theorem queue_of_reader (hmatched : conn.pending.Matched) (hreader : step.ofReader = true)
    (hending : conn.endingBy step = none) : (conn.perform step).queue = conn.queue := by
  cases step with
  | receive data =>
      cases hdecoder : conn.reader with
      | none => exact congrArg queue (receive_of_none hdecoder data)
      | some decoder =>
          have hreceive : conn.perform (.receive data) = _ := receive_eq_hear hmatched hdecoder data
          simp only [endingBy, hdecoder, Option.map_eq_none_iff] at hending
          rw [hreceive, hending]
          rfl
  | receiveEnd =>
      have hnone : conn.reader.isSome = false := by simpa [endingBy] using hending
      show conn.receiveEnd.queue = conn.queue
      simp [receiveEnd, hnone]
  | act act =>
      cases act with
      | receiveFault fault =>
          have hnone : conn.reader.isSome = false := by simpa [endingBy] using hending
          show (conn.receiveFault fault).queue = conn.queue
          simp [receiveFault, hnone]
      | _ => cases hreader
  | _ => cases hreader

/-- While nothing ends a connection, only frames come into the write queue. -/
theorem isFrame_of_admitted (hmatched : conn.pending.Matched)
    (hending : conn.endingBy step = none) :
    ∀ item ∈ conn.admitted step, item.isFrame = true := by
  have htraffic := perform_traffic conn step
  have htold : ∀ last, (conn.perform step).queue.items ≠ conn.queue.items ++ [.shutdown last] := by
    intro last hitems
    rcases close_or_reader_of_told hitems with ⟨rfl, -⟩ | hreader
    · cases hending
    · rw [queue_of_reader hmatched hreader hending] at hitems
      exact absurd (congrArg List.length hitems) (by simp)
  generalize conn.admitted step = items at htraffic ⊢
  generalize conn.perform step = after at htraffic htold
  intro item hitem
  cases htraffic with
  | told last hlast hroom hcalls hqueue hwriter =>
      exact absurd (by rw [hqueue, WriteQueue.items_offer hroom]) (htold last)
  | began call message hfits hasked hid hnumber hnext hstep hcalls hqueue hwriter =>
      exact WriteQueue.isFrame_of_entering hitem
  | answered message hfits hanswer hcalls hqueue hwriter =>
      exact WriteQueue.isFrame_of_entering hitem
  | took first hidle hpop hcalls hwriter hlive => exact WriteQueue.isFrame_of_rising hitem
  | _ => cases hitem

end Calm

/-! ## Writers that are not broken off -/

/-- A turn that ends a writer before it has come to the end of what it is to write. -/
inductive BreaksOff (conn : Connection) : Turn → Prop where
  /-- The owner stops it. -/
  | stopped : BreaksOff conn (.step (.act .endWriter))
  | dropped : BreaksOff conn (.step (.act .drop))
  /-- The transport refuses what it is given. -/
  | refused (fault : TransportFault) (hbusy : conn.writer ≠ .idle) :
      BreaksOff conn (.step (.act (.writeFault fault)))
  /-- The owner finds no room for a last frame. -/
  | crowded (hclosing : conn.closing = false) (hroom : conn.queue.hasRoom = false) :
      BreaksOff conn (.step (.act .close))

/-- No turn breaks a writer off. -/
def NeverBroken (conn : Connection) : List Turn → Prop
  | [] => True
  | turn :: run => ¬ conn.BreaksOff turn ∧ (conn.turn turn).NeverBroken run

section Step

variable {conn : Connection} {step : Step}

theorem Steady.isOpen {after : Connection} (h : Steady conn after) :
    after.queue.isOpen = conn.queue.isOpen := by
  rcases h.queue with hqueue | hqueue
  · rw [hqueue]
  · rw [hqueue, WriteQueue.isOpen_offer]

/-- Only the writer itself ends, where it is not broken off. -/
theorem isOpen_perform (hopen : conn.queue.isOpen = true)
    (hwrite : ∀ room, step ≠ .write room) (htake : step ≠ .act .takeItem)
    (hbroken : ¬ conn.BreaksOff (.step step)) : (conn.perform step).queue.isOpen = true := by
  cases step with
  | receive data => exact (Steady.receive conn data).isOpen.trans hopen
  | receiveEnd => exact (Steady.receiveEnd conn).isOpen.trans hopen
  | write room => exact absurd rfl (hwrite room)
  | request cluster payload timeout now =>
      have heffect := request_effect conn cluster payload timeout now
      show (conn.request cluster payload timeout now).2.queue.isOpen = true
      generalize (conn.request cluster payload timeout now).1 = start at heffect
      generalize (conn.request cluster payload timeout now).2 = after at heffect ⊢
      cases heffect with
      | started slot pending hid hregister hfits => exact (WriteQueue.isOpen_push _).trans hopen
      | _ => exact hopen
  | poll key now =>
      show (conn.pollBy key now).2.queue.isOpen = true
      cases hcall : conn.call? key with
      | none => rwa [pollBy_of_none hcall]
      | some call =>
          rw [pollBy_of_some hcall]
          rcases poll_eq_dropCall conn call now with hpoll | ⟨before, hpoll, -, hqueue, -⟩
          · rwa [hpoll]
          · rw [hpoll]
            show before.queue.isOpen = true
            rwa [hqueue]
  | act act =>
      cases act with
      | abandon key =>
          show (conn.abandon key).queue.isOpen = true
          unfold abandon
          split <;> exact hopen
      | complete key result =>
          show (conn.completeBy key result).queue.isOpen = true
          cases hservice : conn.service? key with
          | none => rwa [completeBy_of_none hservice]
          | some service =>
              rw [completeBy_of_some hservice, complete_eq]
              split
              · exact (WriteQueue.isOpen_push _).trans hopen
              · exact hopen
      | takeItem => exact absurd rfl htake
      | writeFault fault =>
          -- A refusal breaks off a writer that is at a frame, and nothing else.
          have hidle : conn.writer = .idle := by
            by_contra hbusy
            exact hbroken (.refused fault hbusy)
          show (conn.writeFault fault).queue.isOpen = true
          simp only [writeFault, hidle]
          exact hopen
      | receiveFault fault => exact (Steady.receiveFault conn fault).isOpen.trans hopen
      | close =>
          have hfarewell : farewell = .ok (Message.close none).bytes :=
            Message.encode_of_fits (by decide)
          show conn.close.2.queue.isOpen = true
          simp only [close, hfarewell]
          split
          · exact hopen
          · rename_i hclosing
            split
            · exact (WriteQueue.isOpen_offer _).trans hopen
            · rename_i hroom
              -- Without room for its farewell a close breaks the writer off.
              have hcrowded :=
                BreaksOff.crowded (Bool.eq_false_iff.2 hclosing) (Bool.eq_false_iff.2 hroom)
              exact absurd hcrowded hbroken
      | endWriter => exact absurd .stopped hbroken
      | drop => exact absurd .dropped hbroken

end Step

/-- Whether a turn stops a writer from outside: the owner waits no longer, or the transport refuses
what it is given. -/
def Turn.cuts : Turn → Bool
  | .step (.act .endWriter) => true
  | .step (.act .drop) => true
  | .step (.act (.writeFault _)) => true
  | _ => false

/-- The transport has taken all that a writer had to give: the writer waits in front of an empty
queue, or has ended. -/
def AtRest (conn : Connection) : Prop :=
  conn.writer = .ended ∨ (conn.writer = .idle ∧ conn.queue.items = [])

/-- A writer that has ended has come to the end of what it was to write. -/
def Unbroken (written : ByteArray) (accepted : List WriteItem) (conn : Connection) : Prop :=
  conn.queue.isOpen = false → (∃ last, .shutdown last ∈ accepted) ∧ written = script accepted

section Wire

variable {written : ByteArray} {accepted : List WriteItem} {conn : Connection}

theorem unbroken_of_isOpen (hopen : conn.queue.isOpen = true) : Unbroken written accepted conn :=
  fun hclosed => nomatch hopen.symm.trans hclosed

/-- A writer that has come to an order to end the stream, and has written the last frame, has
written everything. -/
theorem unbroken_of_shutdown {done more : List WriteItem} {last : Option ByteArray}
    (hdone : ∀ item ∈ done, item.isFrame = true)
    (haccepted : accepted = done ++ .shutdown last :: more)
    (hwritten : written = script done ++ last.getD ByteArray.empty) :
    Unbroken written accepted conn := by
  intro _
  rw [haccepted, script_append hdone]
  exact ⟨⟨last, List.mem_append_right _ List.mem_cons_self⟩, hwritten⟩

variable (h : Wire ByteArray.empty written accepted conn) (hopen : conn.queue.isOpen = true)

include h hopen

/-- While the queue is open, the writer has written some frames whole and is at the next item. -/
theorem Wire.exists_done : ∃ done : List WriteItem, (∀ item ∈ done, item.isFrame = true) ∧
    conn.writer ≠ .ended ∧ conn.writer.Within ∧
    accepted = done ++ (conn.writer.held ++ conn.queue.items) ∧
    written = script done ++ conn.writer.progress := by
  cases h with
  | ceased hclosed hended hscript => exact absurd (hopen.symm.trans hclosed) (by decide)
  | live done hdone _ hlive hwithin haccepted hwritten =>
      rw [ByteArray.empty_append] at hwritten
      exact ⟨done, hdone, hlive, hwithin, haccepted, hwritten⟩

/-- A writer that ends with the last bytes of a last frame has written everything. -/
theorem Wire.unbroken_write (room : Nat) :
    Unbroken (written ++ (conn.write room).1) accepted (conn.write room).2 := by
  obtain ⟨done, hdone, hlive, hwithin, haccepted, hwritten⟩ := h.exists_done hopen
  cases hwriter : conn.writer with
  | ended => exact absurd hwriter hlive
  | idle =>
      apply unbroken_of_isOpen
      simpa [Connection.write, hwriter] using hopen
  | writing frame count =>
      apply unbroken_of_isOpen
      simpa [Connection.write, hwriter] using hopen
  | parting frame count =>
      by_cases hend : min frame.size (count + room) = frame.size
      · rw [hwriter] at hwithin haccepted hwritten
        apply unbroken_of_shutdown hdone haccepted
        rw [← ByteArray.empty_append (b := script done ++ _)] at hwritten
        simp only [Connection.write, hwriter]
        rw [write_on hwithin room hwritten, hend, ByteArray.extract_zero_size,
          ByteArray.empty_append]
        rfl
      · apply unbroken_of_isOpen
        simpa [Connection.write, hwriter, hend] using hopen

/-- A writer that takes an order to end without a last frame has written everything. -/
theorem Wire.unbroken_takeItem :
    Unbroken written (accepted ++ conn.admitted (.act .takeItem)) conn.takeItem := by
  obtain ⟨done, hdone, -, -, haccepted, hwritten⟩ := h.exists_done hopen
  have hnone : conn.takeItem.queue.items = [] → conn.admitted (.act .takeItem) = [] :=
    fun hitems => admitted_of_closed hitems
  have heffect := takeItem_effect conn
  generalize conn.takeItem = after at heffect hnone ⊢
  cases heffect with
  | idle hidle => exact unbroken_of_isOpen hopen
  | frame bytes next hwriter hpop =>
      exact unbroken_of_isOpen ((WriteQueue.isOpen_of_pop hpop).trans hopen)
  | farewell bytes next hwriter hpop =>
      exact unbroken_of_isOpen ((WriteQueue.isOpen_of_pop hpop).trans hopen)
  | ended next hidle hpop =>
      obtain ⟨items, hitems, -⟩ := WriteQueue.items_of_pop hpop
      rw [hidle, hitems] at haccepted
      rw [hidle] at hwritten
      rw [hnone rfl, List.append_nil]
      exact unbroken_of_shutdown hdone haccepted hwritten

end Wire

namespace Lived

variable {past : List Ending} {written : ByteArray} {accepted : List WriteItem} {conn : Connection}
  (h : Lived past written accepted conn)

include h

/-- What comes behind the end of a writer that was not broken off is not written. -/
theorem unbroken_turn (hunbroken : Unbroken written accepted conn) {turn : Turn}
    (hturn : ¬ conn.BreaksOff turn) :
    Unbroken (written ++ conn.writtenIn turn) (accepted ++ conn.admittedIn turn)
      (conn.turn turn) := by
  cases hopen : conn.queue.isOpen with
  | false =>
      obtain ⟨hshutdown, hwritten⟩ := hunbroken hopen
      have hnothing : conn.writtenIn turn = ByteArray.empty := by
        cases turn with
        | step step => exact h.wire.output_of_closed hopen step
        | tearDown reason => rfl
      intro _
      obtain ⟨last, hlast⟩ := hshutdown
      refine ⟨⟨last, List.mem_append_left _ hlast⟩, ?_⟩
      rw [hnothing, ByteArray.append_empty, script_append_of_shutdown ⟨last, hlast⟩, hwritten]
  | true =>
      cases turn with
      | tearDown reason =>
          exact unbroken_of_isOpen ((Steady.tearDown conn reason).isOpen.trans hopen)
      | step step =>
          by_cases hwrite : ∃ room, step = .write room
          · obtain ⟨room, rfl⟩ := hwrite
            have hadmitted : conn.admittedIn (.step (.write room)) = [] :=
              Wire.admitted_write conn room
            rw [hadmitted, List.append_nil]
            exact h.wire.unbroken_write hopen room
          · by_cases htake : step = .act .takeItem
            · subst htake
              have hnothing : conn.writtenIn (.step (.act .takeItem)) = ByteArray.empty := rfl
              rw [hnothing, ByteArray.append_empty]
              exact h.wire.unbroken_takeItem hopen
            · exact unbroken_of_isOpen (isOpen_perform hopen (not_exists.1 hwrite) htake hturn)

theorem unbroken_run (hunbroken : Unbroken written accepted conn) {run : List Turn}
    (hrun : conn.NeverBroken run) :
    Unbroken (written ++ conn.writtenBy run) (accepted ++ conn.acceptedBy run)
      (conn.turns run) := by
  induction run generalizing past written accepted conn with
  | nil =>
      rw [writtenBy, acceptedBy, List.append_nil, ByteArray.append_empty]
      exact hunbroken
  | cons turn run ih =>
      rw [writtenBy, acceptedBy, ← List.append_assoc, ← ByteArray.append_assoc]
      exact ih (h.turn turn) (h.unbroken_turn hunbroken hrun.1) hrun.2

/-- Behind its end a connection is not told to end again. -/
theorem neverBroken_of_ended (hpast : past ≠ []) {run : List Turn}
    (hrun : ∀ turn ∈ run, turn.cuts = false) : conn.NeverBroken run := by
  induction run generalizing past written accepted conn with
  | nil => trivial
  | cons turn run ih =>
      have hclosing : conn.closing = true := by
        rw [h.closing_eq, List.isEmpty_eq_false_iff.2 hpast]
        rfl
      refine ⟨?_, ih (h.turn turn) (List.append_ne_nil_of_left_ne_nil hpast _)
        fun other hother => hrun other (List.mem_cons_of_mem _ hother)⟩
      have hturn := hrun turn List.mem_cons_self
      intro hbroken
      cases hbroken with
      | stopped => cases hturn
      | dropped => cases hturn
      | refused fault hbusy => cases hturn
      | crowded hnotClosing hroom => exact absurd (hclosing.symm.trans hnotClosing) (by decide)

/-- Behind the end of its writer a connection writes nothing. -/
theorem silent_run (hclosed : conn.queue.isOpen = false) (run : List Turn) :
    conn.writtenBy run = ByteArray.empty ∧ (conn.turns run).writer = .ended := by
  induction run generalizing past written accepted conn with
  | nil =>
      refine ⟨rfl, ?_⟩
      cases h.wire with
      | live done hdone hopen hlive hwithin haccepted hwritten =>
          exact nomatch hopen.symm.trans hclosed
      | ceased _ hended hscript => exact hended
  | cons turn run ih =>
      have hnext :
          (conn.turn turn).queue.isOpen = false ∧ conn.writtenIn turn = ByteArray.empty := by
        cases turn with
        | step step => exact ⟨closed_perform hclosed step, h.wire.output_of_closed hclosed step⟩
        | tearDown reason => exact ⟨(Steady.tearDown conn reason).isOpen.trans hclosed, rfl⟩
      obtain ⟨hwritten, hended⟩ := ih (h.turn turn) hnext.1
      refine ⟨?_, hended⟩
      rw [writtenBy, hnext.2, hwritten, ByteArray.append_empty]

/-- A writer at rest that was told to end, and was not broken off, has written all frames that came
before the order, and the last frame. -/
theorem settled_of_atRest {before more : List WriteItem} {last : Option ByteArray}
    (hunbroken : Unbroken written accepted conn) (hrest : conn.AtRest)
    (haccepted : accepted = before ++ .shutdown last :: more)
    (hframes : ∀ item ∈ before, item.isFrame = true) :
    conn.queue.isOpen = false ∧ written = script before ++ last.getD ByteArray.empty := by
  cases h.wire with
  | live done hdone hopen hlive hwithin hdoing hwritten =>
      -- All that has come in would be frames.
      obtain ⟨hidle, hempty⟩ := hrest.resolve_left hlive
      rw [hidle, hempty] at hdoing
      have hmem : .shutdown last ∈ done := by
        have hall : accepted = done := by simpa [Writer.held] using hdoing
        rw [← hall, haccepted]
        exact List.mem_append_right _ List.mem_cons_self
      exact nomatch hdone _ hmem
  | ceased hclosed hended hscript =>
      refine ⟨hclosed, ?_⟩
      rw [(hunbroken hclosed).2, haccepted, script_append hframes]
      rfl

end Lived

/-! ## Before the end -/

/-- A connection that nothing has ended. Only frames have come into its write queue. -/
structure Upright (written : ByteArray) (accepted : List WriteItem) (conn : Connection) : Prop where
  lived : Lived [] written accepted conn
  frames : ∀ item ∈ accepted, item.isFrame = true
  isOpen : conn.queue.isOpen = true

theorem upright_new (options : ConnectionOptions) (cluster connectionId : String)
    (decoder : Decoder) :
    Upright ByteArray.empty [] (new options cluster connectionId decoder) where
  lived := lived_new options cluster connectionId decoder
  frames := fun _ hitem => nomatch hitem
  isOpen := rfl

namespace Upright

variable {written : ByteArray} {accepted : List WriteItem} {conn : Connection}
  (h : Upright written accepted conn)

include h

/-- A turn that does not end the connection breaks no writer off, unless it stops the writer
itself. -/
theorem not_breaksOff {turn : Turn} (hending : conn.ending? turn = none)
    (hturn : turn ≠ .step (.act .endWriter)) : ¬ conn.BreaksOff turn := by
  intro hbroken
  cases hbroken with
  | stopped => exact hturn rfl
  | dropped => cases hending
  | crowded hclosing hroom => cases hending
  | refused fault hbusy =>
      obtain ⟨done, -, hlive, -, haccepted, -⟩ := h.lived.wire.exists_done h.isOpen
      cases hwriter : conn.writer with
      | idle => exact hbusy hwriter
      | ended => exact hlive hwriter
      | writing frame count => simp [ending?, endingBy, hwriter] at hending
      | parting frame count =>
          -- A last frame would have come in.
          rw [hwriter] at haccepted
          have hmem : .shutdown (some frame) ∈ accepted := by
            rw [haccepted]
            exact List.mem_append_right _ List.mem_cons_self
          cases h.frames _ hmem

theorem turn {turn : Turn} (hending : conn.ending? turn = none)
    (hturn : turn ≠ .step (.act .endWriter)) :
    Upright (written ++ conn.writtenIn turn) (accepted ++ conn.admittedIn turn)
      (conn.turn turn) := by
  have hlived := h.lived.turn turn
  have hframes : ∀ item ∈ accepted ++ conn.admittedIn turn, item.isFrame = true := by
    intro item hitem
    rcases List.mem_append.1 hitem with hold | hnew
    · exact h.frames item hold
    · cases turn with
      | tearDown reason => cases hending
      | step step =>
          obtain ⟨log, htold⟩ := h.lived.told
          exact isFrame_of_admitted htold.kept.matched hending item hnew
  refine ⟨?_, hframes, ?_⟩
  · rw [hending] at hlived
    exact hlived
  · by_contra hclosed
    have hafter :=
      h.lived.unbroken_turn (unbroken_of_isOpen h.isOpen) (h.not_breaksOff hending hturn)
    obtain ⟨⟨last, hlast⟩, -⟩ := hafter (Bool.eq_false_iff.2 hclosed)
    exact nomatch hframes _ hlast

theorem run {run : List Turn} (hendings : conn.endings run = [])
    (hrun : .step (.act .endWriter) ∉ run) :
    Upright (written ++ conn.writtenBy run) (accepted ++ conn.acceptedBy run) (conn.turns run) := by
  induction run generalizing written accepted conn with
  | nil =>
      rw [writtenBy, acceptedBy, List.append_nil, ByteArray.append_empty]
      exact h
  | cons turn run ih =>
      rw [endings, List.append_eq_nil_iff] at hendings
      obtain ⟨hending, hrest⟩ := hendings
      rw [List.mem_cons, not_or] at hrun
      rw [writtenBy, acceptedBy, ← List.append_assoc, ← ByteArray.append_assoc]
      have hnone : conn.ending? turn = none := by simpa using hending
      exact ih (h.turn hnone (Ne.symm hrun.1)) hrest hrun.2

end Upright

end Connection

end Switchboard
