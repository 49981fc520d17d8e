import Switchboard.Proofs.Connection.Calls

/-!
# What the end of a connection does to its calls

A connection ends when the reader or the writer finds that the stream is gone, when the relay says
so, or when the owner closes it (`endsBy`). From then on the table of waiting calls is closed. A
call that has had no answer fails with the news that the connection is closed as soon as its caller
looks after it, unless it still stands in line in front of a write queue that has stayed open: such
a call runs into its deadline (`closed_of_lost`). This happens where the reader has ended the
connection while the queue was full, because the writer is then not told of the end
(`timeout_of_stalledRun`).
-/

namespace Switchboard

namespace Connection

/-! ## The steps that end a connection -/

/-- Whether the reader ends with what it has taken off the stream. -/
def endsIn : List (Decoder.Outcome Message) → Bool
  | [] => false
  | .needMore :: outcomes => endsIn outcomes
  | .failed fault :: outcomes => if fault.isRecoverable then endsIn outcomes else true
  | .item message :: outcomes =>
      if message.envelope.kind = .close then true else endsIn outcomes

/-- Whether a step ends the connection. -/
def endsBy (conn : Connection) : Step → Bool
  | .receive data =>
      match conn.reader with
      | none => false
      | some decoder => endsIn (decoder.extend data).drain.1
  | .receiveEnd | .act (.receiveFault _) => conn.reader.isSome
  | .act (.writeFault _) =>
      match conn.writer with
      | .writing _ _ => true
      | _ => false
  | .act .close | .act .drop => true
  | _ => false

/-- A connection behind a step that does not end it. Nobody gets in line any more when the
connection has been lost. -/
structure Lasts (before after : Connection) : Prop where
  connected : after.connected = before.connected
  closing : after.closing = before.closing
  losses : after.losses = before.losses
  isOpen : after.queue.isOpen = true → before.queue.isOpen = true
  line : before.connected = false →
    ∀ waiter ∈ after.queue.line, waiter.call ≠ none → waiter ∈ before.queue.line

namespace Lasts

theorem refl (conn : Connection) : Lasts conn conn where
  connected := rfl
  closing := rfl
  losses := rfl
  isOpen := id
  line := fun _ _ h _ => h

/-- A step that changes the queue only in that frames of calls leave it, or that it is closed. -/
theorem of_queue {before after : Connection} (hconnected : after.connected = before.connected)
    (hclosing : after.closing = before.closing) (hlosses : after.losses = before.losses)
    (hopen : after.queue.isOpen = true → before.queue.isOpen = true)
    (hline : after.queue.line.Sublist before.queue.line) : Lasts before after where
  connected := hconnected
  closing := hclosing
  losses := hlosses
  isOpen := hopen
  line := fun _ _ h _ => hline.subset h

theorem trans {a b c : Connection} (hab : Lasts a b) (hbc : Lasts b c) : Lasts a c where
  connected := hbc.connected.trans hab.connected
  closing := hbc.closing.trans hab.closing
  losses := hbc.losses.trans hab.losses
  isOpen := fun h => hab.isOpen (hbc.isOpen h)
  line := fun hlost waiter hwaiter hcall =>
    hab.line hlost waiter (hbc.line (hab.connected.trans hlost) waiter hwaiter hcall) hcall

end Lasts

/-- What a step does to the connection as a whole, by whether it ends it. -/
inductive Course (conn : Connection) : Bool → Connection → Prop
  /-- The connection goes on as it was. -/
  | lasts {after : Connection} (h : Lasts conn after) : Course conn false after
  /-- The reader ends. -/
  | readerEnds {middle : Connection} (reason : ClientError) (h : Lasts conn middle)
      (hreason : ∀ fault, reason ≠ .sendFailed fault) : Course conn true (middle.endReader reason)
  /-- The writer or the owner ends the connection: unless its end had begun before, the queue is
  closed or nobody stands in line. -/
  | ended {after : Connection} (hconnected : after.connected = false)
      (hclosing : after.closing = true) (hpending : after.pending.closed = true)
      (hline : after.queue.isOpen = true →
        (conn.closing = true ∧ after.losses = conn.losses ∧ after.queue = conn.queue) ∨
          after.queue.line = []) :
      Course conn true after

theorem connected_tearDown (conn : Connection) (reason : ClientError) :
    (conn.tearDown reason).connected = false := by
  unfold tearDown
  simp only
  split <;> rfl

/-- A connection stays up until a step ends it. -/
theorem Course.connected {conn after : Connection} {ends : Bool} (h : Course conn ends after) :
    after.connected = (conn.connected && !ends) := by
  cases h with
  | lasts h => rw [h.connected, Bool.not_false, Bool.and_true]
  | readerEnds reason h hreason =>
      rw [Bool.not_true, Bool.and_false]
      exact connected_tearDown _ reason
  | ended hconnected hclosing hpending hline => rw [hconnected, Bool.not_true, Bool.and_false]

section Steps

variable (conn : Connection)

theorem lasts_dispatch {message : Message} (hmessage : message.envelope.kind ≠ .close) :
    (conn.dispatch message).1 = none ∧ Lasts conn (conn.dispatch message).2 := by
  unfold dispatch
  cases henvelope : message.envelope with
  | close reason =>
      rw [henvelope] at hmessage
      exact absurd rfl hmessage
  | hello version cluster clientName => exact ⟨rfl, .refl conn⟩
  | welcome connectionId => exact ⟨rfl, .refl conn⟩
  | request id cluster timeoutMs => exact ⟨rfl, { Lasts.refl conn with }⟩
  | reply id => exact ⟨rfl, { Lasts.refl conn with }⟩
  | errorReply id error => exact ⟨rfl, { Lasts.refl conn with }⟩

theorem dispatch_of_close {message : Message} (hmessage : message.envelope.kind = .close) :
    conn.dispatch message = (some .connectionClosed, conn) := by
  unfold dispatch
  cases henvelope : message.envelope <;> rw [henvelope] at hmessage <;> cases hmessage

theorem dispatchAll_course {middle : Connection} (h : Lasts conn middle)
    (outcomes : List (Decoder.Outcome Message)) :
    Course conn (endsIn outcomes) (middle.dispatchAll outcomes) := by
  induction outcomes generalizing middle with
  | nil => exact .lasts h
  | cons outcome outcomes ih =>
      cases outcome with
      | needMore => exact ih h
      | failed fault =>
          rw [endsIn, dispatchAll]
          by_cases hfault : fault.isRecoverable = true
          · rw [if_pos hfault, if_pos hfault]
            exact ih h
          · rw [if_neg hfault, if_neg hfault]
            apply Course.readerEnds _ h
            rintro fault ⟨⟩
      -- A message that is not a close leaves the connection up, and the reader goes on with the
      -- next.
      | item message =>
          rw [endsIn, dispatchAll]
          by_cases hclose : message.envelope.kind = .close
          · rw [if_pos hclose, dispatch_of_close middle hclose]
            apply Course.readerEnds _ h
            rintro fault ⟨⟩
          · obtain ⟨hnone, hlasts⟩ := lasts_dispatch middle hclose
            rw [if_neg hclose]
            generalize middle.dispatch message = dealt at hnone hlasts ⊢
            obtain ⟨reason, next⟩ := dealt
            cases hnone
            exact ih (h.trans hlasts)

theorem lasts_dropCall (call : Call) : Lasts conn (conn.dropCall call) :=
  .of_queue rfl rfl rfl id List.filter_sublist

theorem lasts_poll (call : Call) (now : Instant) : Lasts conn (conn.poll call now).2 := by
  unfold poll
  by_cases hholds : conn.queue.holds call.key = true
  · rw [if_pos hholds]
    split
    · exact lasts_dropCall conn call
    · split
      · exact lasts_dropCall conn call
      · exact .refl conn
  · rw [if_neg hholds]
    simp only
    split
    · exact .of_queue rfl rfl rfl id List.filter_sublist
    · exact .refl conn

/-- A connection that has been lost refuses calls. -/
theorem request_of_lost (hlost : conn.connected = false) (cluster : String) (payload : ByteArray)
    {timeout : Duration} (htimeout : timeout ≠ .zero) (now : Instant) :
    conn.request cluster payload timeout now = (.refused .connectionClosed, conn) := by
  unfold request
  rw [if_neg htimeout, hlost]
  rfl

theorem lasts_request (cluster : String) (payload : ByteArray) (timeout : Duration)
    (now : Instant) :
    Lasts conn (conn.request cluster payload timeout now).2 := by
  have heffect := request_effect conn cluster payload timeout now
  generalize hstart : (conn.request cluster payload timeout now).1 = start at heffect
  generalize (conn.request cluster payload timeout now).2 = after at heffect ⊢
  cases heffect with
  | declined error => exact .refl conn
  | exhausted hid => exact { Lasts.refl conn with }
  | unregistered error hid => exact { Lasts.refl conn with }
  | unwritten slot pending fault hid hregister => exact { Lasts.refl conn with }
  | started slot pending hid hregister hfits =>
      refine ⟨rfl, rfl, rfl, ?_, ?_⟩
      · exact fun hopen => (WriteQueue.isOpen_push _).symm.trans hopen
      · -- A call that has begun has found the connection up.
        intro hlost
        by_cases htimeout : timeout = .zero
        · unfold request at hstart
          rw [if_pos htimeout] at hstart
          cases hstart
        · rw [request_of_lost conn hlost cluster payload htimeout now] at hstart
          cases hstart

theorem lasts_complete (service : Service) (result : HandlerResult) :
    Lasts conn (conn.complete service result) := by
  rw [complete_eq]
  by_cases hfits : (result.toMessage service.id).Fits
  · rw [if_pos hfits]
    refine ⟨rfl, rfl, rfl, ?_, ?_⟩
    · exact fun hopen => (WriteQueue.isOpen_push _).symm.trans hopen
    · -- An answer is not the frame of a call.
      intro _ waiter hwaiter hcall
      simp only [WriteQueue.push] at hwaiter
      split at hwaiter
      · exact hwaiter
      · rcases List.mem_append.1 hwaiter with hold | hnew
        · exact hold
        · rw [List.mem_singleton.1 hnew] at hcall
          exact absurd rfl hcall
  · rw [if_neg hfits]
    exact { Lasts.refl conn with }

theorem lasts_endWriter : Lasts conn conn.endWriter :=
  .of_queue rfl rfl rfl (fun hopen => nomatch hopen) (List.Sublist.refl _)

theorem lasts_takeItem : Lasts conn conn.takeItem := by
  have heffect := takeItem_effect conn
  generalize conn.takeItem = after at heffect ⊢
  cases heffect with
  | idle hidle => exact .refl conn
  | frame bytes queue hwriter hpop =>
      exact .of_queue rfl rfl rfl (fun hopen => (WriteQueue.isOpen_of_pop hpop).symm.trans hopen)
        (WriteQueue.line_of_pop hpop)
  | farewell bytes queue hwriter hpop =>
      exact .of_queue rfl rfl rfl (fun hopen => (WriteQueue.isOpen_of_pop hpop).symm.trans hopen)
        (WriteQueue.line_of_pop hpop)
  | ended queue hwriter hpop =>
      have hline : queue.line.Sublist conn.queue.line := WriteQueue.line_of_pop hpop
      exact .of_queue rfl rfl rfl (fun hopen => nomatch hopen) hline

theorem writeFault_course (fault : TransportFault) :
    Course conn (conn.endsBy (.act (.writeFault fault))) (conn.writeFault fault) := by
  unfold endsBy writeFault
  cases conn.writer with
  | idle => exact .lasts (.refl conn)
  | ended => exact .lasts (.refl conn)
  -- A writer that has been told to part ends without news of its own.
  | parting frame written => exact .lasts (lasts_endWriter conn)
  | writing frame written =>
      have hdown : (conn.tearDown (.sendFailed fault)).closing = true ∧
          (conn.tearDown (.sendFailed fault)).pending.closed = true := by
        unfold tearDown
        by_cases hclosing : conn.cutOff.closing = true
        · simp only [hclosing, if_true]
          exact ⟨trivial, rfl⟩
        · simp only [hclosing]
          exact ⟨rfl, rfl⟩
      exact .ended (connected_tearDown conn _) hdown.1 hdown.2 fun hopen => nomatch hopen

/-- An owner that closes a connection while there is room leaves nobody in line, and one that finds
no room closes the queue. -/
theorem close_course (hturn : conn.queue.InTurn) : Course conn true conn.close.2 := by
  have hfarewell : farewell = .ok (Message.close none).bytes :=
    Message.encode_of_fits (by decide)
  unfold close
  simp only [hfarewell]
  by_cases hbegun : conn.closing = true
  · rw [if_pos hbegun]
    exact .ended rfl rfl rfl fun _ => Or.inl ⟨hbegun, rfl, rfl⟩
  · rw [if_neg hbegun]
    by_cases hroom : conn.cutOff.queue.hasRoom = true
    · rw [if_pos hroom]
      refine .ended rfl rfl rfl fun _ => Or.inr ?_
      exact (WriteQueue.line_offer _ _).trans (hturn hroom)
    · rw [if_neg hroom]
      exact .ended rfl rfl rfl fun hopen => nomatch hopen

/-- Every step leaves the connection as it was, or ends it. -/
theorem perform_course (hturn : conn.queue.InTurn) (step : Step) :
    Course conn (conn.endsBy step) (conn.perform step) := by
  -- A reader that ends takes the connection with it, unless it had ended before.
  have hreader : ∀ reason : ClientError, (∀ fault, reason ≠ .sendFailed fault) →
      Course conn conn.reader.isSome
        (if conn.reader.isSome then conn.endReader reason else conn) := by
    intro reason hreason
    by_cases hreader : conn.reader.isSome = true
    · rw [if_pos hreader, hreader]
      exact .readerEnds reason (.refl conn) hreason
    · rw [if_neg hreader, Bool.eq_false_iff.2 hreader]
      exact .lasts (.refl conn)
  cases step with
  | receive data =>
      show Course conn (conn.endsBy (.receive data)) (conn.receive data)
      simp only [endsBy]
      cases hdecoder : conn.reader with
      | none =>
          rw [receive_of_none hdecoder]
          exact .lasts (.refl conn)
      | some decoder =>
          have hread : Lasts conn { conn with reader := some (decoder.extend data).drain.2 } :=
            { Lasts.refl conn with }
          rw [receive_eq hdecoder]
          exact dispatchAll_course conn hread _
  | receiveEnd =>
      apply hreader
      rintro fault ⟨⟩
  | write room =>
      rcases write_effect conn room with ⟨writer, hafter⟩ | hafter
      · show Course conn false (conn.write room).2
        rw [hafter]
        exact .lasts { Lasts.refl conn with }
      · show Course conn false (conn.write room).2
        rw [hafter]
        exact .lasts (lasts_endWriter conn)
  | request cluster payload timeout now =>
      exact .lasts (lasts_request conn cluster payload timeout now)
  | poll key now =>
      show Course conn false (conn.pollBy key now).2
      cases hcall : conn.call? key with
      | none =>
          rw [pollBy_of_none hcall]
          exact .lasts (.refl conn)
      | some call =>
          rw [pollBy_of_some hcall]
          exact .lasts (lasts_poll conn call now)
  | act act =>
      cases act with
      | abandon key =>
          show Course conn false (conn.abandon key)
          unfold abandon
          split
          · exact .lasts (lasts_dropCall conn _)
          · exact .lasts (.refl conn)
      | complete key result =>
          show Course conn false (conn.completeBy key result)
          cases hservice : conn.service? key with
          | some service =>
              rw [completeBy_of_some hservice]
              exact .lasts (lasts_complete conn service result)
          | none =>
              rw [completeBy_of_none hservice]
              exact .lasts (.refl conn)
      | takeItem => exact .lasts (lasts_takeItem conn)
      | writeFault fault => exact writeFault_course conn fault
      | receiveFault fault =>
          apply hreader
          rintro fault' ⟨⟩
      | close => exact close_course conn hturn
      | endWriter => exact .lasts (lasts_endWriter conn)
      | drop => exact .ended rfl rfl rfl fun hopen => nomatch hopen

end Steps

/-! ## A connection that has been lost -/

/-- What holds from the loss of a connection on: the table of waiting calls is closed, and calls
stand in line in front of an open queue only if the reader has found the loss. -/
structure Parted (conn : Connection) : Prop where
  closing : conn.closing = !conn.connected
  losses : conn.connected = true → conn.losses = []
  closed : conn.connected = false → conn.pending.closed = true
  stranded : conn.connected = false → conn.queue.isOpen = true →
    ∀ waiter ∈ conn.queue.line, waiter.call ≠ none →
      ∃ reason, conn.losses = [reason] ∧ ∀ fault, reason ≠ .sendFailed fault

theorem parted_new (options : ConnectionOptions) (cluster connectionId : String)
    (decoder : Decoder) :
    (new options cluster connectionId decoder).Parted where
  closing := rfl
  losses := fun _ => rfl
  closed := fun hlost => nomatch hlost
  stranded := fun hlost => nomatch hlost

namespace Parted

variable {conn : Connection} (h : conn.Parted)

include h

theorem lost_of_closing (hclosing : conn.closing = true) : conn.connected = false := by
  have hboth := h.closing
  rw [hclosing] at hboth
  simpa using hboth.symm

theorem of_lasts {after : Connection} (hlasts : Lasts conn after)
    (hclosed : conn.pending.closed = true → after.pending.closed = true) : after.Parted where
  closing := by rw [hlasts.closing, hlasts.connected, h.closing]
  losses := by
    intro hup
    rw [hlasts.losses]
    exact h.losses (hlasts.connected.symm.trans hup)
  closed := fun hlost => hclosed (h.closed (hlasts.connected.symm.trans hlost))
  stranded := by
    intro hlost hopen waiter hwaiter hcall
    have hlost' : conn.connected = false := hlasts.connected.symm.trans hlost
    rw [hlasts.losses]
    exact h.stranded hlost' (hlasts.isOpen hopen) waiter (hlasts.line hlost' waiter hwaiter hcall)
      hcall

/-- The reader tells the writer of the end, if there is room, and notes its reason, unless the end
has begun before. -/
theorem endReader {middle : Connection} (hlasts : Lasts conn middle) (reason : ClientError)
    (hreason : ∀ fault, reason ≠ .sendFailed fault) : (middle.endReader reason).Parted := by
  unfold Connection.endReader tearDown
  by_cases hclosing : middle.closing = true
  · have hlost := h.lost_of_closing (hlasts.closing.symm.trans hclosing)
    simp only [cutOff, hclosing, if_true]
    refine ⟨rfl, (fun hup => nomatch hup), fun _ => rfl, ?_⟩
    intro _ hopen waiter hwaiter hcall
    have hbefore := h.stranded hlost (hlasts.isOpen hopen) waiter
      (hlasts.line hlost waiter hwaiter hcall) hcall
    rw [← hlasts.losses] at hbefore
    exact hbefore
  · have hup : conn.connected = true := by
      have hboth := h.closing
      rw [← hlasts.closing, Bool.eq_false_iff.2 hclosing] at hboth
      simpa using hboth.symm
    have hnone : middle.losses = [] := hlasts.losses.trans (h.losses hup)
    simp only [cutOff, hclosing]
    refine ⟨rfl, (fun hup => nomatch hup), fun _ => rfl, ?_⟩
    intro _ _ _ _ _
    exact ⟨reason, by rw [hnone]; rfl, hreason⟩

theorem of_course {ends : Bool} {after : Connection} (hcourse : Course conn ends after)
    (hclosed : conn.pending.closed = true → after.pending.closed = true) : after.Parted := by
  cases hcourse with
  | lasts hlasts => exact h.of_lasts hlasts hclosed
  | readerEnds reason hlasts hreason => exact h.endReader hlasts reason hreason
  | ended hconnected hclosing hpending hline =>
      refine ⟨by rw [hclosing, hconnected]; rfl, ?_, fun _ => hpending, ?_⟩
      · intro hup
        rw [hconnected] at hup
        cases hup
      · intro _ hopen waiter hwaiter hcall
        rcases hline hopen with ⟨hbegun, hlosses, hqueue⟩ | hnobody
        · have hlost := h.lost_of_closing hbegun
          rw [hqueue] at hopen hwaiter
          rw [hlosses]
          exact h.stranded hlost hopen waiter hwaiter hcall
        · rw [hnobody] at hwaiter
          cases hwaiter

end Parted

/-- What a run keeps. -/
theorem parted_run {log : List CallEvent} {conn : Connection} (hsound : conn.Sound)
    (htold : Desk.Told log conn.desk) (h : conn.Parted) (steps : List Step) :
    (conn.run steps).Sound ∧ (conn.run steps).Parted := by
  induction steps generalizing log conn with
  | nil => exact ⟨hsound, h⟩
  | cons step steps ih =>
      have hmoves := moves_perform htold.kept step
      exact ih (sound_perform hsound step) (htold.moves hmoves)
        (h.of_course (perform_course conn hsound.turn step) hmoves.closed)

/-- Nobody's slot waits in a closed table. A call that has had no answer is told that the connection
is closed, unless it stands in line. -/
theorem verdict_of_closed {log : List CallEvent} {conn : Connection}
    (htold : Desk.Told log conn.desk)
    (hclosed : conn.pending.closed = true) {call : Call} {slot : Slot}
    (hslot : slot ∈ conn.pending.slots) (hident : slot.ident = call.ident)
    (hanswer : firstAnswer log call.ident = none) (now : Instant) :
    conn.verdict call slot.state now =
      if conn.queue.holds call.key && conn.queue.isOpen then
        if call.deadline ≤ now then some (.error .requestTimeout) else none
      else some (.error .connectionClosed) := by
  have hoff : slot.state.outcome? = some .closed := by
    have hstate := htold.states slot hslot
    rw [hident, hanswer] at hstate
    cases hfound : slot.state with
    | waiting =>
        have hentry := htold.kept.matched.waits slot hslot hfound
        rw [htold.kept.matched.shut hclosed] at hentry
        cases hentry
    | orphaned => rfl
    | resolved outcome => rw [hstate outcome hfound]; rfl
  unfold verdict
  rw [hoff]
  cases conn.queue.holds call.key with
  | false => rfl
  | true => cases conn.queue.isOpen <;> rfl

/-- What the end of a connection does to calls, in any run. A connection is up until one of the
steps that end it. From then on a call that has had no answer is told that the connection is closed,
unless it stands in line in front of a queue that is open: then its deadline passes. A call stands
there only if the queue is full and the loss has not been found by the writer nor brought about by
the owner. Calls that begin afterwards are refused, and change nothing. -/
theorem closed_of_lost (options : ConnectionOptions) (cluster connectionId : String)
    (decoder : Decoder) (steps : List Step) :
    let start := new options cluster connectionId decoder
    let conn := start.run steps
    let log := start.callTrace steps
    (∀ step, (conn.perform step).connected = (conn.connected && !conn.endsBy step)) ∧
    (conn.connected = false →
      (∀ call ∈ conn.calls, firstAnswer log call.ident = none → ∀ now,
        (conn.poll call now).1 =
          if conn.queue.holds call.key && conn.queue.isOpen then
            if call.deadline ≤ now then some (.error .requestTimeout) else none
          else some (.error .connectionClosed)) ∧
      (∀ call ∈ conn.calls, conn.queue.holds call.key = true → conn.queue.isOpen = true →
        conn.queue.hasRoom = false ∧
          ∃ reason, conn.losses = [reason] ∧ ∀ fault, reason ≠ .sendFailed fault) ∧
      (∀ name payload timeout now, timeout ≠ .zero →
        conn.request name payload timeout now = (.refused .connectionClosed, conn))) := by
  intro start conn log
  have hnew : Desk.Told [] start.desk := Desk.told_new
  have htold : Desk.Told log conn.desk := told_trace options cluster connectionId decoder steps
  obtain ⟨hsound, hparted⟩ := parted_run (sound_new options cluster connectionId decoder) hnew
    (parted_new options cluster connectionId decoder) steps
  refine ⟨fun step => (perform_course conn hsound.turn step).connected, ?_⟩
  intro hlost
  refine ⟨?_, ?_, ?_⟩
  · intro call hcall hanswer now
    obtain ⟨slot, hslot, hident⟩ := htold.kept.exists_slot hcall
    rw [poll_eq_verdict htold.kept.matched hslot (congrArg Prod.fst hident)]
    exact verdict_of_closed htold (hparted.closed hlost) hslot hident hanswer now
  · intro call _ hholds hopen
    obtain ⟨waiter, hwaiter, hname⟩ := List.any_eq_true.1 hholds
    have hcall : waiter.call = some call.key := of_decide_eq_true hname
    refine ⟨?_, hparted.stranded hlost hopen waiter hwaiter ?_⟩
    · -- Nobody stands in line while there is room.
      cases hroom : conn.queue.hasRoom with
      | false => rfl
      | true =>
          rw [hsound.turn hroom] at hwaiter
          cases hwaiter
    · rw [hcall]
      exact Option.some_ne_none _
  · intro name payload timeout now htimeout
    exact request_of_lost conn hlost name payload htimeout now

/-! ## A call in line -/

/-- The options of a connection whose write queue takes one frame. -/
def narrowOptions : ConnectionOptions :=
  (ConnectionOptions.new (.v4 .loopback defaultPort)).withWriteQueueCapacity 1

/-- A connection whose write queue takes one frame. -/
def narrow : Connection := new narrowOptions "clients" "conn-1" .new

/-- Three calls while the transport takes nothing: the writer has the frame of the first, that of
the second fills the queue, and the third stands in line. Then the stream ends. -/
def stalledRun : List Step :=
  [.request "svc" ⟨#[1]⟩ (.ofSecs 30) 0, .act .takeItem, .request "svc" ⟨#[2]⟩ (.ofSecs 30) 0,
    .request "svc" ⟨#[3]⟩ (.ofSecs 30) 0, .receiveEnd]

/-- The second of the calls, which has got its frame into the queue. -/
def queuedCall : Call := ⟨1, ⟨2⟩, 1, 30000000000⟩

/-- The third of the calls. -/
def stalledCall : Call := ⟨2, ⟨3⟩, 2, 30000000000⟩

/-- The call whose frame is in the queue is told at once that the connection is closed. -/
theorem closed_of_stalledRun :
    (narrow.run stalledRun).connected = false ∧ queuedCall ∈ (narrow.run stalledRun).calls ∧
      ((narrow.run stalledRun).poll queuedCall 0).1 = some (.error .connectionClosed) :=
  have hlost : (narrow.run stalledRun).connected = false := by decide +kernel
  have hcall : queuedCall ∈ (narrow.run stalledRun).calls := by decide +kernel
  have htold := (closed_of_lost narrowOptions "clients" "conn-1" .new stalledRun).2 hlost
  ⟨hlost, hcall, (htold.1 queuedCall hcall (by decide +kernel) 0).trans (by decide +kernel)⟩

/-- The call in line hears nothing of the loss, and runs into its deadline. -/
theorem timeout_of_stalledRun :
    (narrow.run stalledRun).connected = false ∧ stalledCall ∈ (narrow.run stalledRun).calls ∧
      firstAnswer (narrow.callTrace stalledRun) stalledCall.ident = none ∧
      ((narrow.run stalledRun).poll stalledCall 0).1 = none ∧
      ((narrow.run stalledRun).poll stalledCall stalledCall.deadline).1 =
        some (.error .requestTimeout) := by
  decide +kernel

end Connection

end Switchboard
