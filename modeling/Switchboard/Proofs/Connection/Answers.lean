import Mathlib.Data.List.Perm.Basic
import Switchboard.Proofs.Connection.Run
import Switchboard.Proofs.EnvelopeSize
import Switchboard.Proofs.Router.Operations

/-!
# Which requests a connection answers

Every request that a connection hears is served under a name of its own, and every service that
comes to its end hands at most one frame to the writer. It hands over exactly one where its answer
fits into a frame, and none where it does not: a payload beyond the limit, or the text of an error
that is too long for a header, leaves the request without any answer (`answers_of_completed`,
`unanswered_of_size`). While the write queue is open the answers reach the writer in the order in
which the services ended, and none is lost on the way.
-/

namespace Switchboard

open Json (quotedSize digitCount)

/-- The answer that a frame brings, if it brings one. -/
def answerIn (frame : ByteArray) : Option Message :=
  match Message.decode frame with
  | .taken (.ok message) _ => if message.isAnswer then some message else none
  | _ => none

theorem answerIn_bytes {message : Message} (hfits : message.Fits) :
    answerIn message.bytes = if message.isAnswer then some message else none := by
  have hdecode := Message.decode_bytes hfits ByteArray.empty
  rw [ByteArray.append_empty] at hdecode
  unfold answerIn
  rw [hdecode]

namespace HandlerResult

/-- Whether what became of a request can be told in one frame: the payload is within the limit, or
the text of the error leaves room for the rest of the header. -/
def Tellable (id : RequestId) : HandlerResult → Prop
  | answered payload => payload.size ≤ maxPayloadSize
  | failed text => 73 + digitCount id.value.toNat + quotedSize text ≤ maxHeaderSize
  | brokeOff text =>
      75 + digitCount id.value.toNat + quotedSize (text.getD "handler panicked") ≤ maxHeaderSize

instance (id : RequestId) (result : HandlerResult) : Decidable (result.Tellable id) := by
  cases result <;> exact inferInstanceAs (Decidable (_ ≤ _))

theorem fits_toMessage_iff (id : RequestId) (result : HandlerResult) :
    (result.toMessage id).Fits ↔ result.Tellable id := by
  cases result with
  | answered payload => exact ⟨fun h => h.1, fun h => Message.fits_reply h id⟩
  | failed text =>
      have hname : quotedSize ErrorCode.handlerFailed.name = 16 := by decide
      have hsum : 57 + digitCount id.value.toNat + 16 + quotedSize text =
          73 + digitCount id.value.toNat + quotedSize text := by omega
      rw [toMessage, Message.fits_errorReply_iff, hname, hsum]
      exact Iff.rfl
  | brokeOff text =>
      have hname : quotedSize ErrorCode.handlerPanicked.name = 18 := by decide
      have hsum : 57 + digitCount id.value.toNat + 18 + quotedSize (text.getD "handler panicked") =
          75 + digitCount id.value.toNat + quotedSize (text.getD "handler panicked") := by omega
      rw [toMessage, Message.fits_errorReply_iff, hname, hsum]
      exact Iff.rfl

/-- The answer to a request: what the handler returned, or what kept it from returning, if that can
be told. -/
def answer? (id : RequestId) (result : HandlerResult) : Option Message :=
  if result.Tellable id then
    match result with
    | answered payload => some (.reply id payload)
    | failed text => some (.errorReply id .handlerFailed text)
    | brokeOff text => some (.errorReply id .handlerPanicked (text.getD "handler panicked"))
  else none

theorem answer?_eq (id : RequestId) (result : HandlerResult) :
    result.answer? id = if (result.toMessage id).Fits then some (result.toMessage id)
      else none := by
  have hiff := fits_toMessage_iff id result
  unfold answer?
  by_cases hfits : (result.toMessage id).Fits
  · rw [if_pos hfits, if_pos (hiff.1 hfits)]
    cases result <;> rfl
  · rw [if_neg hfits, if_neg fun htellable => hfits (hiff.2 htellable)]

theorem isAnswer_toMessage (id : RequestId) (result : HandlerResult) :
    (result.toMessage id).isAnswer = true := by
  cases result <;> rfl

end HandlerResult

namespace Connection

/-! ## What happens to requests -/

/-- What happens to the requests that a connection hears. -/
inductive Event where
  | heard (service : Service)
  | completed (service : Service) (result : HandlerResult)
  /-- The writer takes a frame. -/
  | taken (frame : ByteArray)

namespace Event

/-- The service that begins. -/
def heard? : Event → Option Service
  | heard service => some service
  | _ => none

/-- The service that comes to its end. -/
def completed? : Event → Option Service
  | completed service _ => some service
  | _ => none

/-- The frame that the writer takes. -/
def taken? : Event → Option ByteArray
  | taken frame => some frame
  | _ => none

/-- The answer to the service that comes to its end. -/
def answer? : Event → Option Message
  | completed service result => result.answer? service.id
  | _ => none

end Event

/-- What a step does to the requests that a connection hears. -/
def events (conn : Connection) : Step → List Event
  | .receive data => (conn.arrivals data).map .heard
  | .act (.complete key result) =>
      ((conn.service? key).map fun service => .completed service result).toList
  | .act .takeItem =>
      match conn.writer, conn.queue.pop with
      | .idle, some (item, _) => (item.frame?.map .taken).toList
      | _, _ => []
  | _ => []

/-- All that happens in a run, in order. -/
def trace (conn : Connection) : List Step → List Event
  | [] => []
  | step :: steps => conn.events step ++ trace (conn.perform step) steps

/-! ## The account of a run -/

/-- The account of what has happened. Every request that was heard is still served or has been
completed, and as long as the queue is open the answers of those that have been completed are with
the writer or on their way to it. -/
structure Accounted (log : List Event) (conn : Connection) : Prop where
  sound : conn.Sound
  /-- Calls do not answer anything. -/
  calls : ∀ waiter ∈ conn.queue.line, waiter.call ≠ none → answerIn waiter.frame = none
  keys : ∀ service ∈ log.filterMap Event.heard?, service.key < conn.nextService
  distinct : ((log.filterMap Event.heard?).map Service.key).Nodup
  served : (log.filterMap Event.heard?).Perm (log.filterMap Event.completed? ++ conn.services)
  answers : conn.queue.isOpen = true →
    (log.filterMap Event.taken? ++ conn.queue.frames).filterMap answerIn =
      log.filterMap Event.answer?

theorem accounted_new (options : ConnectionOptions) (cluster connectionId : String)
    (decoder : Decoder) : Accounted [] (new options cluster connectionId decoder) where
  sound := sound_new options cluster connectionId decoder
  calls := fun _ h => nomatch h
  keys := fun _ h => nomatch h
  distinct := List.nodup_nil
  served := List.Perm.refl _
  answers := fun _ => rfl

namespace Accounted

variable {log : List Event} {conn : Connection} (h : Accounted log conn)

include h

/-- A step in which nothing happens to a request. -/
theorem silent {after : Connection} (hsound : after.Sound)
    (hservices : after.services = conn.services) (hnext : after.nextService = conn.nextService)
    (hline : ∀ waiter ∈ after.queue.line, waiter.call ≠ none → answerIn waiter.frame = none)
    (hopen : after.queue.isOpen = true → conn.queue.isOpen = true)
    (hframes : after.queue.isOpen = true →
      after.queue.frames.filterMap answerIn = conn.queue.frames.filterMap answerIn) :
    Accounted log after where
  sound := hsound
  calls := hline
  keys := by
    rw [hnext]
    exact h.keys
  distinct := h.distinct
  served := by
    rw [hservices]
    exact h.served
  answers := by
    intro hafter
    rw [List.filterMap_append, hframes hafter, ← List.filterMap_append]
    exact h.answers (hopen hafter)

theorem of_wanes {after : Connection} (hwanes : Wanes conn after) : Accounted log after :=
  h.silent (h.sound.of_wanes hwanes) hwanes.services hwanes.nextService
    (fun waiter hwaiter => h.calls waiter (hwanes.queue.line.subset hwaiter))
    hwanes.queue.isOpen
    (fun hopen => hwanes.queue.filterMap_frames h.sound.turn hopen h.calls)

/-- A frame that answers nothing is pushed. -/
theorem pushed {after : Connection} (hsound : after.Sound) (waiter : Waiter)
    (hservices : after.services = conn.services) (hnext : after.nextService = conn.nextService)
    (hqueue : after.queue = conn.queue.push waiter) (hframe : answerIn waiter.frame = none) :
    Accounted log after := by
  refine h.silent hsound hservices hnext ?_ ?_ ?_
  · intro other hother hcall
    rw [hqueue] at hother
    unfold WriteQueue.push at hother
    split at hother
    · exact h.calls other hother hcall
    · rcases List.mem_append.1 hother with hold | hnew
      · exact h.calls other hold hcall
      · rw [List.mem_singleton.1 hnew]
        exact hframe
  · rw [hqueue, WriteQueue.isOpen_push]
    exact id
  · intro _
    rw [hqueue, WriteQueue.frames_push h.sound.turn, List.filterMap_append,
      List.filterMap_cons_none hframe, List.filterMap_nil, List.append_nil]

theorem request (cluster : String) (payload : ByteArray) (timeout : Duration) (now : Instant) :
    Accounted log (conn.request cluster payload timeout now).2 := by
  have hsound := h.sound.request cluster payload timeout now
  have heffect := request_effect conn cluster payload timeout now
  generalize (conn.request cluster payload timeout now).1 = start at heffect
  generalize (conn.request cluster payload timeout now).2 = after at heffect hsound ⊢
  cases heffect with
  | declined error => exact h
  | exhausted hid => exact h.silent hsound rfl rfl h.calls id fun _ => rfl
  | unregistered error hid => exact h.silent hsound rfl rfl h.calls id fun _ => rfl
  | unwritten slot pending fault hid hregister =>
      exact h.silent hsound rfl rfl h.calls id fun _ => rfl
  | started slot pending hid hregister hfits =>
      exact h.pushed hsound _ rfl rfl rfl (answerIn_bytes hfits)

/-- The requests that are heard are served from now on. -/
theorem receive (data : ByteArray) :
    Accounted (log ++ conn.events (.receive data)) (conn.receive data) := by
  cases hreader : conn.reader with
  | none =>
      have hnone : conn.events (.receive data) = [] := by
        unfold events arrivals
        rw [hreader]
        rfl
      rw [hnone, List.append_nil, receive_of_none hreader]
      exact h
  | some decoder =>
      have hread : Accounted log { conn with reader := some (decoder.extend data).drain.2 } :=
        h.silent (h.sound.of_queue conn.queue h.sound.turn conn.writer _) rfl rfl h.calls id
          fun _ => rfl
      obtain ⟨pending, hevolves, hwanes⟩ :=
        dispatchAll_effect _ hread.sound.pending (decoder.extend data).drain.1
      have hevents : conn.events (.receive data) =
          (servicesFrom conn.nextService
            ((heard (decoder.extend data).drain.1).filterMap Message.asked?)).map .heard := by
        unfold events arrivals
        rw [hreader]
      rw [receive_eq hreader, hevents]
      refine of_wanes ?_ hwanes
      generalize (heard (decoder.extend data).drain.1).filterMap Message.asked? = requests
      have hsound := hread.sound.withServices hevolves requests
      -- The log grows by services that are heard, and by nothing else.
      have hheard : ∀ services : List Service,
          (services.map Event.heard).filterMap Event.heard? = services := by
        intro services
        rw [List.filterMap_map]
        exact List.filterMap_some
      have hothers : ∀ {α : Type} (f : Event → Option α), (∀ service, f (.heard service) = none) →
          ∀ services : List Service, (services.map Event.heard).filterMap f = [] := by
        intro α f hnone services
        rw [List.filterMap_map]
        exact List.filterMap_eq_nil_iff.2 fun service _ => hnone service
      refine ⟨hsound, h.calls, ?_, ?_, ?_, ?_⟩
      · rw [List.filterMap_append, hheard]
        exact key_lt_of_mem_append_servicesFrom h.keys requests
      · rw [List.filterMap_append, hheard]
        exact nodup_key_append_servicesFrom h.keys requests h.distinct
      · rw [List.filterMap_append, hheard, List.filterMap_append, hothers _ fun _ => rfl,
          List.append_nil]
        have hserved := h.served.append_right (servicesFrom conn.nextService requests)
        rwa [List.append_assoc] at hserved
      · intro hopen
        have htaken : (log ++ (servicesFrom conn.nextService requests).map Event.heard).filterMap
            Event.taken? = log.filterMap Event.taken? := by
          rw [List.filterMap_append, hothers _ fun _ => rfl, List.append_nil]
        have hanswers : (log ++ (servicesFrom conn.nextService requests).map Event.heard).filterMap
            Event.answer? = log.filterMap Event.answer? := by
          rw [List.filterMap_append, hothers _ fun _ => rfl, List.append_nil]
        rw [htaken, hanswers]
        exact h.answers hopen

/-- A service that comes to its end hands over its answer, if that fits into a frame. -/
theorem complete {key : Nat} {service : Service} (hservice : conn.service? key = some service)
    (result : HandlerResult) :
    Accounted (log ++ [.completed service result]) (conn.complete service result) := by
  have hmem : service ∈ conn.services := List.mem_of_find?_eq_some hservice
  have hleft : conn.services.Perm
      (service :: conn.services.filter fun other => other.key ≠ service.key) :=
    Lookup.perm_cons_filter h.sound.servicesDistinct hmem
  have hsound := h.sound.complete service result
  have hheard : (log ++ [Event.completed service result]).filterMap Event.heard? =
      log.filterMap Event.heard? := by
    rw [List.filterMap_append]
    exact List.append_nil _
  have htaken : (log ++ [Event.completed service result]).filterMap Event.taken? =
      log.filterMap Event.taken? := by
    rw [List.filterMap_append]
    exact List.append_nil _
  have hanswer : (log ++ [Event.completed service result]).filterMap Event.answer? =
      log.filterMap Event.answer? ++ (result.answer? service.id).toList := by
    have hone : (Event.completed service result).answer? = result.answer? service.id := rfl
    rw [List.filterMap_append, List.filterMap_cons, hone]
    cases result.answer? service.id <;> rfl
  rw [complete_eq] at hsound ⊢
  refine ⟨hsound, ?_, ?_, ?_, ?_, ?_⟩
  · -- An answer that gets in line belongs to no call.
    intro waiter hwaiter hcall
    by_cases hfits : (result.toMessage service.id).Fits
    · simp only [if_pos hfits] at hwaiter
      unfold WriteQueue.push at hwaiter
      split at hwaiter
      · exact h.calls waiter hwaiter hcall
      · rcases List.mem_append.1 hwaiter with hold | hnew
        · exact h.calls waiter hold hcall
        · rw [List.mem_singleton.1 hnew] at hcall
          exact absurd rfl hcall
    · simp only [if_neg hfits] at hwaiter
      exact h.calls waiter hwaiter hcall
  · rw [hheard]
    exact h.keys
  · rw [hheard]
    exact h.distinct
  · -- The service moves from those that go on to those that have ended.
    rw [hheard, List.filterMap_append, List.append_assoc]
    refine h.served.trans (List.Perm.append_left _ ?_)
    exact hleft
  · intro hopen
    rw [htaken, hanswer, HandlerResult.answer?_eq]
    by_cases hfits : (result.toMessage service.id).Fits
    · simp only [if_pos hfits] at hopen ⊢
      rw [WriteQueue.isOpen_push] at hopen
      have hanswers := h.answers hopen
      have hframe : answerIn (result.toMessage service.id).bytes =
          some (result.toMessage service.id) := by
        rw [answerIn_bytes hfits, if_pos (HandlerResult.isAnswer_toMessage service.id result)]
      rw [WriteQueue.frames_push h.sound.turn, ← List.append_assoc, List.filterMap_append,
        hanswers, List.filterMap_cons_some hframe]
      rfl
    · simp only [if_neg hfits] at hopen ⊢
      rw [h.answers hopen]
      exact (List.append_nil _).symm

/-- The writer takes the first frame. -/
theorem takeItem : Accounted (log ++ conn.events (.act .takeItem)) conn.takeItem := by
  have hsound := h.sound.takeItem
  have htaken : ∀ (item : WriteItem) (queue : WriteQueue), conn.writer = .idle →
      conn.queue.pop = some (item, queue) →
        conn.events (.act .takeItem) = (item.frame?.map Event.taken).toList := by
    intro item queue hwriter hpop
    unfold events
    rw [hwriter, hpop]
  -- Whatever the writer takes goes from the front of the queue to the end of what it has taken.
  have hmoves : ∀ (item : WriteItem) (queue : WriteQueue) (after : Connection), after.Sound →
      after.services = conn.services → after.nextService = conn.nextService →
        after.queue = queue → conn.queue.pop = some (item, queue) →
          Accounted (log ++ (item.frame?.map Event.taken).toList) after := by
    intro item queue after hafter hservices hnext hqueue hpop
    have hthrough : ∀ {α : Type} (f : Event → Option α), (∀ frame, f (.taken frame) = none) →
        (log ++ (item.frame?.map Event.taken).toList).filterMap f = log.filterMap f := by
      intro α f hnone
      rw [List.filterMap_append]
      cases item.frame? with
      | none => exact List.append_nil _
      | some frame =>
          rw [Option.map_some, Option.toList_some, List.filterMap_cons_none (hnone frame)]
          exact List.append_nil _
    refine ⟨hafter, ?_, ?_, ?_, ?_, ?_⟩
    · intro waiter hwaiter
      rw [hqueue] at hwaiter
      exact h.calls waiter ((WriteQueue.line_of_pop hpop).subset hwaiter)
    · rw [hthrough Event.heard? fun _ => rfl, hnext]
      exact h.keys
    · rw [hthrough Event.heard? fun _ => rfl]
      exact h.distinct
    · rw [hthrough Event.heard? fun _ => rfl, hthrough Event.completed? fun _ => rfl, hservices]
      exact h.served
    · intro hopen
      rw [hqueue, WriteQueue.isOpen_of_pop hpop] at hopen
      have hframes := WriteQueue.frames_of_pop hpop
      have hout : (log ++ (item.frame?.map Event.taken).toList).filterMap Event.taken? =
          log.filterMap Event.taken? ++ item.frame?.toList := by
        rw [List.filterMap_append]
        cases item.frame? <;> rfl
      rw [hthrough Event.answer? fun _ => rfl, hout, hqueue, List.append_assoc, ← hframes]
      exact h.answers hopen
  have heffect := takeItem_effect conn
  generalize conn.takeItem = after at heffect hsound ⊢
  cases heffect with
  -- A writer that is busy or finds nothing takes nothing.
  | idle hidle =>
      have hnone : conn.events (.act .takeItem) = [] := by
        unfold events
        rcases hidle with hwriter | hpop
        · cases hstate : conn.writer with
          | idle => exact absurd hstate hwriter
          | writing frame written => rfl
          | parting frame written => rfl
          | ended => rfl
        · rw [hpop]
          cases conn.writer <;> rfl
      rw [hnone, List.append_nil]
      exact h
  | frame bytes queue hwriter hpop =>
      rw [htaken _ _ hwriter hpop]
      exact hmoves _ queue _ hsound rfl rfl rfl hpop
  | farewell bytes queue hwriter hpop =>
      rw [htaken _ _ hwriter hpop]
      exact hmoves _ queue _ hsound rfl rfl rfl hpop
  | ended queue hwriter hpop =>
      rw [htaken _ _ hwriter hpop]
      -- The queue goes on without its first item, and is closed behind that.
      have hqueue := h.sound.of_queue queue (WriteQueue.inTurn_of_pop h.sound.turn hpop)
        conn.writer conn.reader
      have hmoved := hmoves (.shutdown none) queue
        { conn with queue, writer := conn.writer, reader := conn.reader } hqueue rfl rfl rfl hpop
      exact hmoved.of_wanes (wanes_endWriter _)

theorem close : Accounted log conn.close.2 := by
  obtain ⟨middle, hwanes, hafter⟩ := close_effect conn
  have hmiddle := h.of_wanes hwanes
  rcases hafter with hafter | hafter
  · rw [hafter]
    exact hmiddle
  · rw [hafter]
    -- A farewell is no answer to anybody.
    have hfarewell : answerIn (Message.close none).bytes = none := answerIn_bytes (by decide)
    have hsound := hmiddle.sound.of_queue _ (WriteQueue.inTurn_offer hmiddle.sound.turn
      (.shutdown (some (Message.close none).bytes))) middle.writer middle.reader
    refine hmiddle.silent hsound rfl rfl ?_ ?_ ?_
    · intro waiter hwaiter
      refine hmiddle.calls waiter ?_
      rwa [← WriteQueue.line_offer middle.queue (.shutdown (some (Message.close none).bytes))]
    · show (middle.queue.offer _).isOpen = true → _
      rw [WriteQueue.isOpen_offer]
      exact id
    · intro _
      show (middle.queue.offer _).frames.filterMap answerIn = _
      rcases WriteQueue.frames_offer hmiddle.sound.turn
        (.shutdown (some (Message.close none).bytes)) with hsame | hsame
      · rw [hsame]
      · rw [hsame, List.filterMap_append]
        show _ ++ [(Message.close none).bytes].filterMap answerIn = _
        rw [List.filterMap_cons_none hfarewell]
        exact List.append_nil _

theorem write (room : Nat) : Accounted log (conn.write room).2 := by
  rcases write_effect conn room with ⟨writer, hafter⟩ | hafter
  · rw [hafter]
    exact h.silent (h.sound.of_queue conn.queue h.sound.turn writer conn.reader) rfl rfl h.calls id
      fun _ => rfl
  · rw [hafter]
    exact h.of_wanes (wanes_endWriter conn)

theorem act (act : Act) : Accounted (log ++ conn.events (.act act)) (conn.act act) := by
  cases act with
  | abandon key =>
      show Accounted (log ++ []) (conn.abandon key)
      rw [List.append_nil]
      exact h.of_wanes (wanes_abandon conn key)
  | complete key result =>
      show Accounted (log ++ ((conn.service? key).map _).toList) (conn.completeBy key result)
      cases hservice : conn.service? key with
      | some service =>
          rw [completeBy_of_some hservice]
          exact h.complete hservice result
      | none =>
          rw [completeBy_of_none hservice]
          show Accounted (log ++ []) conn
          rw [List.append_nil]
          exact h
  | takeItem => exact h.takeItem
  | writeFault fault =>
      show Accounted (log ++ []) (conn.writeFault fault)
      rw [List.append_nil]
      exact h.of_wanes (wanes_writeFault conn fault)
  | receiveFault fault =>
      show Accounted (log ++ []) (conn.receiveFault fault)
      rw [List.append_nil]
      exact h.of_wanes (wanes_receiveFault conn fault)
  | close =>
      show Accounted (log ++ []) conn.close.2
      rw [List.append_nil]
      exact h.close
  | endWriter =>
      show Accounted (log ++ []) conn.endWriter
      rw [List.append_nil]
      exact h.of_wanes (wanes_endWriter conn)
  | drop =>
      show Accounted (log ++ []) conn.drop
      rw [List.append_nil]
      exact h.of_wanes (wanes_drop conn)

/-- Every step keeps the account. -/
theorem perform (step : Step) : Accounted (log ++ conn.events step) (conn.perform step) := by
  cases step with
  | receive data => exact h.receive data
  | receiveEnd =>
      show Accounted (log ++ []) conn.receiveEnd
      rw [List.append_nil]
      exact h.of_wanes (wanes_receiveEnd conn)
  | write room =>
      show Accounted (log ++ []) (conn.write room).2
      rw [List.append_nil]
      exact h.write room
  | request cluster payload timeout now =>
      show Accounted (log ++ []) (conn.request cluster payload timeout now).2
      rw [List.append_nil]
      exact h.request cluster payload timeout now
  | poll key now =>
      show Accounted (log ++ []) (conn.pollBy key now).2
      rw [List.append_nil]
      exact h.of_wanes (wanes_pollBy conn key now)
  | act act => exact h.act act

/-- Every run keeps the account. -/
theorem run (steps : List Step) : Accounted (log ++ trace conn steps) (conn.run steps) := by
  induction steps generalizing log conn with
  | nil =>
      rw [trace, List.append_nil]
      exact h
  | cons step steps ih =>
      rw [trace, ← List.append_assoc]
      exact ih (h.perform step)

end Accounted

/-- A writer that waits takes the first frame, if there is one and the queue stays open. -/
theorem takes_first {conn : Connection} (hturn : conn.queue.InTurn)
    (hopen : conn.takeItem.queue.isOpen = true) (hcapacity : 0 < conn.queue.capacity)
    (hwriter : conn.writer = .idle) (hframes : conn.queue.frames ≠ []) :
    ∃ frame, conn.events (.act .takeItem) = [.taken frame] ∧
      conn.queue.frames = frame :: conn.takeItem.queue.frames := by
  have heffect := takeItem_effect conn
  generalize conn.takeItem = after at heffect hopen ⊢
  cases heffect with
  | idle hidle =>
      rcases hidle with hbusy | hnone
      · exact absurd hwriter hbusy
      · obtain ⟨item, queue, hpop⟩ := WriteQueue.exists_pop hturn hopen hcapacity hframes
        rw [hnone] at hpop
        cases hpop
  | frame bytes queue hwriter hpop =>
      refine ⟨bytes, ?_, WriteQueue.frames_of_pop hpop⟩
      unfold events
      rw [hwriter, hpop]
      rfl
  | farewell bytes queue hwriter hpop =>
      refine ⟨bytes, ?_, WriteQueue.frames_of_pop hpop⟩
      unfold events
      rw [hwriter, hpop]
      rfl
  | ended queue hwriter hpop => cases hopen

/-- What a connection does about the requests that it hears, in any run. Each of them is served
under a name of its own, and each service either goes on or has come to its end, once. While the
write queue is open, the answers among the frames that the writer has taken or will get are those of
the services that have come to their ends, one for each whose result can be told in one frame, in
the order of the ends, and none for the others; and a writer that waits takes the first of the
frames. -/
theorem answers_of_completed (options : ConnectionOptions) (cluster connectionId : String)
    (decoder : Decoder) (steps : List Step) :
    let start := new options cluster connectionId decoder
    let conn := start.run steps
    let log := start.trace steps
    ((log.filterMap Event.heard?).map Service.key).Nodup ∧
    (log.filterMap Event.heard?).Perm (log.filterMap Event.completed? ++ conn.services) ∧
    (conn.queue.isOpen = true →
      (log.filterMap Event.taken? ++ conn.queue.frames).filterMap answerIn =
        log.filterMap Event.answer?) ∧
    (conn.takeItem.queue.isOpen = true → 0 < conn.queue.capacity → conn.writer = .idle →
      conn.queue.frames ≠ [] →
        ∃ frame, conn.events (.act .takeItem) = [.taken frame] ∧
          conn.queue.frames = frame :: conn.takeItem.queue.frames) := by
  intro start conn log
  have haccount := (accounted_new options cluster connectionId decoder).run steps
  rw [List.nil_append] at haccount
  exact ⟨haccount.distinct, haccount.served, haccount.answers, takes_first haccount.sound.turn⟩

/-! ## A request without an answer -/

/-- A request of somebody else. -/
def inbound : Message := .request ⟨7⟩ "clients" 1000 ByteArray.empty

/-- A connection that has just been opened. -/
def opened : Connection :=
  new (.new (.v4 .loopback defaultPort)) "clients" "conn-1" .new

/-- A run in which a request is heard and served. -/
def servedRun (result : HandlerResult) : List Step :=
  [.receive inbound.bytes, .act (.complete 0 result)]

theorem drain_inbound :
    (Decoder.new.extend inbound.bytes).drain = ([.item inbound, .needMore], ⟨ByteArray.empty⟩) := by
  have hfits : inbound.Fits := by decide
  have hdecode := Message.decode_bytes hfits ByteArray.empty
  rw [ByteArray.append_empty] at hdecode
  have hbuffer : (Decoder.new.extend inbound.bytes).buffer = inbound.bytes :=
    ByteArray.empty_append
  have hempty : Decoder.drain ⟨ByteArray.empty⟩ = ([.needMore], ⟨ByteArray.empty⟩) :=
    Decoder.drain_of_needMore Message.decode_empty
  rw [Decoder.drain_of_taken (by rw [hbuffer]; exact hdecode), hempty]

/-- A payload beyond the limit goes to nobody: the request is heard and served, the connection is up
and its writer waits, and there is nothing for it to write. -/
theorem unanswered_of_size {payload : ByteArray} (hsize : maxPayloadSize < payload.size) :
    ∃ service, service.id = ⟨7⟩ ∧
      opened.trace (servedRun (.answered payload)) =
        [.heard service, .completed service (.answered payload)] ∧
      (opened.run (servedRun (.answered payload))).services = [] ∧
      (opened.run (servedRun (.answered payload))).connected = true ∧
      (opened.run (servedRun (.answered payload))).writer = .idle ∧
      (opened.run (servedRun (.answered payload))).queue.isOpen = true ∧
      (opened.run (servedRun (.answered payload))).queue.frames = [] := by
  have hnot : ¬ ((HandlerResult.answered payload).toMessage ⟨7⟩).Fits := by
    rw [HandlerResult.fits_toMessage_iff]
    exact Nat.not_le_of_lt hsize
  have hreceive : opened.receive inbound.bytes =
      { opened with
        reader := some ⟨ByteArray.empty⟩, services := [⟨0, ⟨7⟩, ByteArray.empty⟩]
        nextService := 1 } := by
    have hreader : opened.reader = some .new := rfl
    rw [receive_eq hreader, drain_inbound]
    rfl
  have hevents : opened.events (.receive inbound.bytes) =
      [.heard ⟨0, ⟨7⟩, ByteArray.empty⟩] := by
    show ((servicesFrom 0 ((heard (Decoder.new.extend inbound.bytes).drain.1).filterMap
      Message.asked?)).map Event.heard) = _
    rw [drain_inbound]
    rfl
  have hrun : opened.run (servedRun (.answered payload)) =
      { opened with reader := some ⟨ByteArray.empty⟩, services := [], nextService := 1 } := by
    show (opened.receive inbound.bytes).act (.complete 0 (.answered payload)) = _
    rw [hreceive]
    show completeBy _ 0 (.answered payload) = _
    have hservice : service? { opened with
        reader := some ⟨ByteArray.empty⟩, services := [⟨0, ⟨7⟩, ByteArray.empty⟩]
        nextService := 1 } 0 = some ⟨0, ⟨7⟩, ByteArray.empty⟩ := rfl
    rw [completeBy_of_some hservice, complete_eq, if_neg hnot]
    rfl
  refine ⟨⟨0, ⟨7⟩, ByteArray.empty⟩, rfl, ?_, ?_⟩
  · show opened.events (.receive inbound.bytes) ++
      ((opened.receive inbound.bytes).events (.act (.complete 0 (.answered payload))) ++ []) = _
    rw [hevents, hreceive]
    rfl
  · rw [hrun]
    exact ⟨rfl, rfl, rfl, rfl, rfl⟩

/-- A payload that is one byte too long. -/
def hugePayload : ByteArray := ⟨Array.replicate (maxPayloadSize + 1) 0⟩

theorem size_hugePayload : hugePayload.size = maxPayloadSize + 1 := Array.size_replicate

/-- A request may be left without any answer while the connection is up and its writer waits. -/
theorem huge_unanswered :
    ∃ service, service.id = ⟨7⟩ ∧
      opened.trace (servedRun (.answered hugePayload)) =
        [.heard service, .completed service (.answered hugePayload)] ∧
      (opened.run (servedRun (.answered hugePayload))).services = [] ∧
      (opened.run (servedRun (.answered hugePayload))).connected = true ∧
      (opened.run (servedRun (.answered hugePayload))).writer = .idle ∧
      (opened.run (servedRun (.answered hugePayload))).queue.isOpen = true ∧
      (opened.run (servedRun (.answered hugePayload))).queue.frames = [] :=
  unanswered_of_size (by rw [size_hugePayload]; exact Nat.lt_succ_self _)

end Connection

end Switchboard
