import Switchboard.Proofs.Connection.Loss
import Switchboard.Proofs.Connection.Unbroken

/-!
# The last words of a connection

An owner that closes a connection sees off all frames that were given to the writer before, with the
last frame behind them, if the queue has room for the order and the transport takes everything in
time (`parting_of_close`). A transport that takes whatever it is given does so in as many rounds as
there are items (`atRest_of_rounds`). A queue that is full has no room for the order. Then the
writer is broken off at once, whatever the transport would have taken (`cut_of_underwayRun`).
-/

namespace Switchboard

namespace Connection

/-! ## What the other side reads -/

/-- Frames that a client has said are the frames of requests and answers. -/
theorem exists_messages {items : List WriteItem} (hframes : ∀ item ∈ items, item.isFrame = true)
    (huttered : ∀ frame, .frame frame ∈ items → Uttered frame) :
    ∃ messages : List Message, items = messages.map (fun message => .frame message.bytes) ∧
      ∀ message ∈ messages, message.Fits ∧
        (message.asked?.isSome = true ∨ message.isAnswer = true) := by
  induction items with
  | nil => exact ⟨[], rfl, fun _ hmessage => nomatch hmessage⟩
  | cons item items ih =>
      obtain ⟨messages, hitems, hmessages⟩ :=
        ih (fun other hother => hframes other (List.mem_cons_of_mem _ hother))
          fun frame hframe => huttered frame (List.mem_cons_of_mem _ hframe)
      cases item with
      | shutdown last => cases hframes _ List.mem_cons_self
      | frame bytes =>
          obtain ⟨message, hfits, rfl, hkind⟩ := huttered bytes List.mem_cons_self
          refine ⟨message :: messages, by rw [hitems, List.map_cons], ?_⟩
          intro other hother
          rcases List.mem_cons.1 hother with rfl | hrest
          · exact ⟨hfits, hkind⟩
          · exact hmessages other hrest

theorem script_messages (messages : List Message) :
    script (messages.map fun message => .frame message.bytes) = Message.spell messages := by
  induction messages with
  | nil => rfl
  | cons message messages ih => rw [List.map_cons, script, ih, Message.spell]

section Turns

variable (conn : Connection) (run more : List Turn)

theorem turns_append : conn.turns (run ++ more) = (conn.turns run).turns more := List.foldl_append

theorem writtenBy_append :
    conn.writtenBy (run ++ more) = conn.writtenBy run ++ (conn.turns run).writtenBy more := by
  induction run generalizing conn with
  | nil => exact ByteArray.empty_append.symm
  | cons turn run ih =>
      rw [List.cons_append, writtenBy, ih, writtenBy, ByteArray.append_assoc]
      rfl

end Turns

/-! ## A transport that takes everything -/

/-- The writer takes an item if it waits for one, and the transport accepts at most `room` bytes. -/
def round (room : Nat) : List Turn := [.step (.act .takeItem), .step (.write room)]

/-- So many rounds. -/
def rounds (room count : Nat) : List Turn := (List.replicate count (round room)).flatten

section Rounds

variable {conn : Connection} {room : Nat}

theorem turns_round : conn.turns (round room) = (conn.takeItem.write room).2 := rfl

theorem turns_round_of_ended (h : conn.writer = .ended) : conn.turns (round room) = conn := by
  simp [turns_round, takeItem, write, h]

theorem turns_rounds_succ (count : Nat) :
    conn.turns (rounds room (count + 1)) = (conn.turns (round room)).turns (rounds room count) := by
  rw [rounds, List.replicate_succ, List.flatten_cons, turns_append]
  rfl

theorem turns_rounds_of_ended (h : conn.writer = .ended) (count : Nat) :
    conn.turns (rounds room count) = conn := by
  induction count with
  | zero => rfl
  | succ count ih => rw [turns_rounds_succ, turns_round_of_ended h, ih]

theorem write_whole {frame : ByteArray} {count : Nat} (hroom : frame.size ≤ room) :
    min frame.size (count + room) = frame.size :=
  Nat.min_eq_left (Nat.le_trans hroom (Nat.le_add_left _ _))

/-- In a round, the transport takes one item, if nobody stands in line. -/
theorem turns_round_of_room (hline : conn.queue.line = [])
    (hroom : ∀ item ∈ conn.writer.held ++ conn.queue.items, (script [item]).size ≤ room) :
    (conn.turns (round room)).writer = .ended ∨
      ((conn.turns (round room)).writer = .idle ∧ (conn.turns (round room)).queue.line = [] ∧
        (conn.turns (round room)).queue.items = (conn.writer.held ++ conn.queue.items).tail) := by
  rw [turns_round]
  cases hwriter : conn.writer with
  | ended =>
      left
      simp [takeItem, write, hwriter]
  | writing frame count =>
      have hframe : frame.size ≤ room := by
        have hheld := hroom (.frame frame) (by simp [hwriter, Writer.held])
        rwa [script_frame] at hheld
      right
      simp [takeItem, write, hwriter, write_whole hframe, hline, Writer.held]
  | parting frame count =>
      have hframe : frame.size ≤ room :=
        hroom (.shutdown (some frame)) (by simp [hwriter, Writer.held])
      left
      simp [takeItem, write, hwriter, write_whole hframe, endWriter]
  | idle =>
      cases hitems : conn.queue.items with
      | nil =>
          right
          simp [takeItem, write, WriteQueue.pop, hwriter, hitems, hline, Writer.held]
      | cons item items =>
          have hpop : conn.queue.pop = some (item, { conn.queue with items }) := by
            simp [WriteQueue.pop, hitems, hline]
          have hitem := hroom item (by simp [hwriter, hitems, Writer.held])
          cases item with
          | frame bytes =>
              rw [script_frame] at hitem
              right
              simp [takeItem, write, hwriter, hpop, hitem, hline, Writer.held]
          | shutdown last =>
              left
              cases last with
              | none => simp [takeItem, write, hwriter, hpop, endWriter]
              | some bytes =>
                  have hbytes : bytes.size ≤ room := hitem
                  simp [takeItem, write, hwriter, hpop, hbytes, endWriter]

/-- A transport that takes every item whole brings a writer to rest in as many rounds as there are
items, if nobody stands in line. -/
theorem atRest_of_rounds (hline : conn.queue.line = [])
    (hroom : ∀ item ∈ conn.writer.held ++ conn.queue.items, (script [item]).size ≤ room)
    {count : Nat} (hcount : (conn.writer.held ++ conn.queue.items).length ≤ count) :
    (conn.turns (rounds room count)).AtRest := by
  induction count generalizing conn with
  | zero =>
      have hnothing : conn.writer.held ++ conn.queue.items = [] := by simpa using hcount
      obtain ⟨hheld, hitems⟩ := List.append_eq_nil_iff.1 hnothing
      show conn.AtRest
      cases hwriter : conn.writer with
      | idle => exact Or.inr ⟨hwriter, hitems⟩
      | ended => exact Or.inl hwriter
      | writing frame count => simp [hwriter, Writer.held] at hheld
      | parting frame count => simp [hwriter, Writer.held] at hheld
  | succ count ih =>
      rw [turns_rounds_succ]
      rcases turns_round_of_room hline hroom with hended | ⟨hidle, hline, hitems⟩
      · rw [turns_rounds_of_ended hended]
        exact Or.inl hended
      · apply ih hline
        · intro item hitem
          rw [hidle, hitems] at hitem
          exact hroom item (List.mem_of_mem_tail hitem)
        · rw [hidle, hitems]
          show (conn.writer.held ++ conn.queue.items).tail.length ≤ count
          rw [List.length_tail]
          omega

end Rounds

/-! ## The close -/

namespace Upright

variable {written : ByteArray} {accepted : List WriteItem} {conn : Connection}
  (h : Upright written accepted conn)

include h

/-- What the writer has and what waits for it came in last. -/
theorem suffix : conn.writer.held ++ conn.queue.items <:+ accepted := by
  obtain ⟨done, -, -, -, haccepted, -⟩ := h.lived.wire.exists_done h.isOpen
  exact ⟨done, haccepted.symm⟩

/-- What a close does to a connection that nothing has ended. -/
theorem close_eq : conn.close =
    if conn.queue.hasRoom then
      (true, { conn.cutOff with
        closing := true, reader := none
        queue := conn.queue.offer (.shutdown (some (Message.close none).bytes)) })
    else (false, { conn.cutOff with closing := true, reader := none }.endWriter) := by
  have hclosing : conn.closing = false := h.lived.closing_eq
  have hfarewell : farewell = .ok (Message.close none).bytes := Message.encode_of_fits (by decide)
  simp only [close, hfarewell, hclosing]
  rfl

/-- Behind a close with room in the queue, a writer that comes to rest has written everything, and
nothing comes behind that. -/
theorem settled_of_close (hroom : conn.queue.hasRoom = true) {early : List Turn}
    (hearly : ∀ turn ∈ early, turn.cuts = false) (hrest : (conn.close.2.turns early).AtRest)
    (late : List Turn) :
    (conn.close.2.turns (early ++ late)).writer = .ended ∧
      written ++ conn.close.2.writtenBy (early ++ late) =
        script accepted ++ (Message.close none).bytes := by
  have hclose : ¬ conn.BreaksOff (.step (.act .close)) := by
    rintro (_ | _ | _ | ⟨hclosing, hcrowded⟩)
    exact absurd (hroom.symm.trans hcrowded) (by decide)
  have hadmitted : conn.admittedIn (.step (.act .close)) =
      [.shutdown (some (Message.close none).bytes)] := by
    apply admitted_of_items rfl
    show conn.close.2.queue.items = _
    rw [h.close_eq, if_pos hroom]
    exact WriteQueue.items_offer hroom
  have hnothing : conn.writtenIn (.step (.act .close)) = ByteArray.empty := rfl
  have hclosing := h.lived.turn (.step (.act .close))
  have hstill := h.lived.unbroken_turn (unbroken_of_isOpen h.isOpen) hclose
  rw [hadmitted, hnothing, ByteArray.append_empty] at hclosing hstill
  -- From here on the connection has ended, and only its writer goes on.
  have hnever := hclosing.neverBroken_of_ended (List.cons_ne_nil _ _) hearly
  have hlived := hclosing.run early
  have hwhole := hclosing.unbroken_run hstill hnever
  rw [List.append_assoc accepted, List.singleton_append] at hlived hwhole
  obtain ⟨hclosed, hwritten⟩ := hlived.settled_of_atRest hwhole hrest rfl h.frames
  obtain ⟨hsilent, hended⟩ := hlived.silent_run hclosed late
  refine ⟨by rw [turns_append]; exact hended, ?_⟩
  rw [writtenBy_append]
  show written ++ ((conn.turn (.step (.act .close))).writtenBy early ++
    ((conn.turn (.step (.act .close))).turns early).writtenBy late) = _
  rw [hsilent, ByteArray.append_empty]
  exact hwritten

/-- A close without room in the queue ends the writer where it is. -/
theorem broken_of_close (hroom : conn.queue.hasRoom = false) (later : List Turn) :
    conn.close.2.writtenBy later = ByteArray.empty ∧
      (conn.close.2.turns later).writer = .ended := by
  have hlived := h.lived.turn (.step (.act .close))
  have hclosed : conn.close.2.queue.isOpen = false := by
    rw [h.close_eq, hroom]
    rfl
  exact hlived.silent_run hclosed later

end Upright

/-- What happens in time, when a close begins at an instant: before the owner has waited for as long
as a close waits. -/
def within (closedAt : Instant) (later : List (Instant × Turn)) : List Turn :=
  (later.takeWhile fun timed => timed.1 < closedAt.after closeLinger).map Prod.snd

/-- What happens behind that. -/
def behind (closedAt : Instant) (later : List (Instant × Turn)) : List Turn :=
  (later.dropWhile fun timed => timed.1 < closedAt.after closeLinger).map Prod.snd

section InTime

variable {closedAt : Instant} {later : List (Instant × Turn)}

theorem within_append_behind :
    within closedAt later ++ behind closedAt later = later.map Prod.snd := by
  rw [within, behind, ← List.map_append, List.takeWhile_append_dropWhile]

/-- A writer that is not stopped before the owner has waited is not stopped in time. -/
theorem cuts_of_within
    (h : ∀ timed ∈ later, timed.2.cuts = true → closedAt.after closeLinger ≤ timed.1) :
    ∀ turn ∈ within closedAt later, turn.cuts = false := by
  intro turn hturn
  obtain ⟨timed, htimed, rfl⟩ := List.mem_map.1 hturn
  have hearly := List.all_eq_true.1 List.all_takeWhile timed htimed
  rw [Bool.eq_false_iff]
  intro hcuts
  have hlate := h timed (List.takeWhile_subset _ htimed) hcuts
  exact absurd (of_decide_eq_true hearly) (Nat.not_lt.2 hlate)

end InTime

/-- What comes of the frames in the queue when an owner closes a connection that nothing has ended,
at any fill of the queue and anywhere in a frame. If the queue has room, the owner waits. Let
nothing stop the writer in that time, and let the transport take all that the writer has to give.
Then the other side reads all messages that were given to the writer, whole and in order, the last
frame behind them, and the end of the stream. If the queue is full, the writer ends at once, and
nothing more is written. -/
theorem parting_of_close (options : ConnectionOptions) (cluster connectionId : String)
    (decoder : Decoder) (run : List Turn)
    (hendings : (new options cluster connectionId decoder).endings run = [])
    (hrun : .step (.act .endWriter) ∉ run) (closedAt : Instant) :
    let start := new options cluster connectionId decoder
    let conn := start.turns run
    ∃ messages : List Message,
      start.acceptedBy run = messages.map (fun message => .frame message.bytes) ∧
      (∀ message ∈ messages, message.Fits ∧
        (message.asked?.isSome = true ∨ message.isAnswer = true)) ∧
      conn.writer.held ++ conn.queue.items <:+ start.acceptedBy run ∧
      (conn.queue.hasRoom = true → conn.close.1 = true ∧
        ∀ later : List (Instant × Turn),
          (∀ timed ∈ later, timed.2.cuts = true → closedAt.after closeLinger ≤ timed.1) →
          (conn.close.2.turns (within closedAt later)).AtRest →
          let whole := run ++ .step (.act .close) :: later.map Prod.snd
          (start.turns whole).writer = .ended ∧
          start.writtenBy whole = Message.spell (messages ++ [.close none]) ∧
          (Decoder.mk (start.writtenBy whole)).drain =
            (messages.map .item ++ [.item (.close none), .needMore], ⟨ByteArray.empty⟩)) ∧
      (conn.queue.hasRoom = false → conn.close.1 = false ∧
        ∀ later : List Turn,
          let whole := run ++ .step (.act .close) :: later
          (start.turns whole).writer = .ended ∧ start.writtenBy whole = start.writtenBy run) := by
  intro start conn
  have hnew : Upright ByteArray.empty [] start := upright_new options cluster connectionId decoder
  have hup := hnew.run hendings hrun
  rw [ByteArray.empty_append, List.nil_append] at hup
  obtain ⟨messages, hmessages, hsaid⟩ := exists_messages hup.frames hup.lived.placed.frames
  have hwhole : ∀ later : List Turn,
      start.turns (run ++ .step (.act .close) :: later) = conn.close.2.turns later ∧
      start.writtenBy (run ++ .step (.act .close) :: later) =
        start.writtenBy run ++ conn.close.2.writtenBy later := by
    intro later
    refine ⟨turns_append _ _ _, ?_⟩
    rw [writtenBy_append, writtenBy]
    show _ ++ (ByteArray.empty ++ _) = _
    rw [ByteArray.empty_append]
    rfl
  refine ⟨messages, hmessages, hsaid, hup.suffix, ?_, ?_⟩
  · intro hroom
    refine ⟨by rw [hup.close_eq, if_pos hroom], ?_⟩
    intro later hcuts hrest whole
    obtain ⟨hended, hwritten⟩ :=
      hup.settled_of_close hroom (cuts_of_within hcuts) hrest (behind closedAt later)
    rw [within_append_behind] at hended hwritten
    have hbytes : start.writtenBy whole = Message.spell (messages ++ [.close none]) := by
      rw [(hwhole _).2, hwritten, hmessages, script_messages, Message.spell_append,
        Message.spell_singleton]
    refine ⟨by rw [(hwhole _).1]; exact hended, hbytes, ?_⟩
    have hfits : ∀ message ∈ messages ++ [.close none], message.Fits := by
      intro message hmessage
      rcases List.mem_append.1 hmessage with hold | hlast
      · exact (hsaid message hold).1
      · rw [List.mem_singleton.1 hlast]
        decide
    rw [hbytes, Decoder.drain_spell_whole hfits, List.map_append, List.append_assoc]
    rfl
  · intro hroom
    refine ⟨by rw [hup.close_eq, hroom]; rfl, ?_⟩
    intro later whole
    obtain ⟨hsilent, hended⟩ := hup.broken_of_close hroom later
    rw [(hwhole later).1, (hwhole later).2, hsilent, ByteArray.append_empty]
    exact ⟨hended, rfl⟩

/-! ## A frame underway -/

/-- A connection whose write queue takes two items. -/
def modest : Connection := new (narrowOptions.withWriteQueueCapacity 2) "clients" "conn-1" .new

/-- Two calls. The transport has taken five bytes of the frame of the first, and that of the second
is in the queue. -/
def underwayRun : List Turn :=
  [.step (.request "svc" ⟨#[1]⟩ (.ofSecs 30) 0), .step (.act .takeItem), .step (.write 5),
    .step (.request "svc" ⟨#[2]⟩ (.ofSecs 30) 0)]

/-- Three rounds in the first millisecond behind a close, and the owner stops the writer at the end
of the time. -/
def promptTurns : List (Instant × Turn) :=
  (rounds 1000 3).map (Prod.mk 1000000) ++ [(250000000, .step (.act .endWriter))]

/-- A transport that takes everything brings both frames to the other side, and the last frame. -/
theorem parting_of_underwayRun :
    modest.endings underwayRun = [] ∧ .step (.act .endWriter) ∉ underwayRun ∧
      ∃ messages : List Message, messages.length = 2 ∧
        (Decoder.mk (modest.writtenBy
            (underwayRun ++ .step (.act .close) :: promptTurns.map Prod.snd))).drain =
          (messages.map .item ++ [.item (.close none), .needMore], ⟨ByteArray.empty⟩) := by
  have hendings : modest.endings underwayRun = [] := by decide +kernel
  have hrun : .step (.act .endWriter) ∉ underwayRun := by simp [underwayRun]
  obtain ⟨messages, haccepted, -, -, hroom, -⟩ :=
    parting_of_close (narrowOptions.withWriteQueueCapacity 2) "clients" "conn-1" .new underwayRun
      hendings hrun 0
  refine ⟨hendings, hrun, messages, ?_, ?_⟩
  · have hlength := congrArg List.length haccepted
    rw [List.length_map] at hlength
    rw [← hlength]
    decide +kernel
  · have hrest : (modest.turns underwayRun).close.2.turns (within 0 promptTurns) =
        (modest.turns underwayRun).close.2.turns (rounds 1000 3) := rfl
    refine ((hroom (by decide +kernel)).2 promptTurns ?_ ?_).2.2
    · decide +kernel
    · show ((modest.turns underwayRun).close.2.turns (within 0 promptTurns)).AtRest
      rw [hrest]
      apply atRest_of_rounds
      · decide +kernel
      · decide +kernel
      · decide +kernel

/-- The same calls with a queue that takes one frame. The queue is full when the owner closes.
Nobody stops the writer, and the transport takes all that it is given. It is given nothing more, and
what it has is the beginning of the first frame. -/
theorem cut_of_underwayRun :
    narrow.endings underwayRun = [] ∧ (narrow.turns underwayRun).close.1 = false ∧
      (narrow.turns underwayRun).queue.items.length = 1 ∧
      (narrow.writtenBy (underwayRun ++ .step (.act .close) :: rounds 1000 3)).size = 5 ∧
      5 < (script (narrow.acceptedBy underwayRun)).size := by
  decide +kernel

end Connection

end Switchboard
