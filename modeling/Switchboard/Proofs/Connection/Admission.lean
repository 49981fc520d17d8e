import Switchboard.Proofs.Connection.Run
import Switchboard.Proofs.Router.Operations

/-!
# What comes into a write queue

Callers, handlers and those who end a connection put items into one bounded queue, from which the
writer takes them in order. Whoever finds it full waits in line, and moves up when the writer takes
an item. What a step does to calls, queue and line is said once for all steps, with the items that
it puts into the queue (`Traffic`, `perform_traffic`). A call that is refused puts nothing there
(`queue_of_not_started`).
-/

namespace Switchboard

/-! ## Frames and their numbers -/

/-- The number of the request that a frame brings, if it brings one. -/
def askedIn (frame : ByteArray) : Option RequestId :=
  match Message.decode frame with
  | .taken (.ok message) _ => message.asked?.map Prod.fst
  | _ => none

theorem askedIn_bytes {message : Message} (hfits : message.Fits) :
    askedIn message.bytes = message.asked?.map Prod.fst := by
  have hdecode := Message.decode_bytes hfits ByteArray.empty
  rw [ByteArray.append_empty] at hdecode
  simp only [askedIn, hdecode]

theorem asked?_of_isAnswer {message : Message} (h : message.isAnswer = true) :
    message.asked? = none := by
  unfold Message.isAnswer at h
  unfold Message.asked?
  cases henvelope : message.envelope <;> simp_all

/-- What a client says in a session: a request, or an answer to one. -/
def Uttered (frame : ByteArray) : Prop :=
  ∃ message : Message, message.Fits ∧ frame = message.bytes ∧
    (message.asked?.isSome = true ∨ message.isAnswer = true)

/-- The numbers of the requests among some items, in order. -/
def requestIds (items : List WriteItem) : List RequestId :=
  items.filterMap fun item =>
    match item with
    | .frame bytes => askedIn bytes
    | .shutdown _ => none

theorem requestIds_append (items more : List WriteItem) :
    requestIds (items ++ more) = requestIds items ++ requestIds more := List.filterMap_append

theorem requestIds_frame (frame : ByteArray) :
    requestIds [.frame frame] = (askedIn frame).toList := by
  cases h : askedIn frame <;> simp [requestIds, h]

theorem requestIds_shutdown (farewell : Option ByteArray) :
    requestIds [.shutdown farewell] = [] := rfl

theorem mem_requestIds {items : List WriteItem} {id : RequestId} :
    id ∈ requestIds items ↔ ∃ frame, .frame frame ∈ items ∧ askedIn frame = some id := by
  constructor
  · intro hid
    obtain ⟨item, hitem, hasked⟩ := List.mem_filterMap.1 hid
    cases item with
    | frame bytes => exact ⟨bytes, hitem, hasked⟩
    | shutdown farewell => cases hasked
  · rintro ⟨frame, hframe, hasked⟩
    exact List.mem_filterMap.2 ⟨_, hframe, hasked⟩

namespace WriteQueue

variable {queue : WriteQueue}

/-- The numbers of the requests whose frames stand in line. -/
def waitingIds (queue : WriteQueue) : List RequestId :=
  queue.line.filterMap fun waiter => askedIn waiter.frame

/-- The items that come in with somebody who has a frame for the writer. -/
def entering (queue : WriteQueue) (waiter : Waiter) : List WriteItem :=
  if queue.hasRoom then [.frame waiter.frame] else []

/-- The items that come in when there is room for one. -/
def rising (queue : WriteQueue) : List WriteItem :=
  (queue.line.head?.map fun waiter => .frame waiter.frame).toList

theorem items_push (waiter : Waiter) :
    (queue.push waiter).items = queue.items ++ queue.entering waiter := by
  unfold push entering
  split <;> simp

theorem items_offer {item : WriteItem} (hroom : queue.hasRoom = true) :
    (queue.offer item).items = queue.items ++ [item] := by
  rw [offer, if_pos hroom]

theorem offer_of_full {item : WriteItem} (hfull : ¬ queue.hasRoom = true) :
    queue.offer item = queue :=
  if_neg hfull

/-- Somebody who has a frame stands in line, unless there is room. Then nobody else stood there. -/
theorem line_push (h : queue.InTurn) (waiter : Waiter) :
    (queue.hasRoom = true ∧ queue.line = [] ∧ (queue.push waiter).line = []) ∨
      (¬ queue.hasRoom = true ∧ (queue.push waiter).line = queue.line ++ [waiter]) := by
  unfold push
  by_cases hroom : queue.hasRoom = true
  · rw [if_pos hroom]
    exact Or.inl ⟨hroom, h hroom, h hroom⟩
  · rw [if_neg hroom]
    exact Or.inr ⟨hroom, rfl⟩

/-- What the writer takes was the first item, and the first in line moves up. -/
theorem items_of_pop {item : WriteItem} {next : WriteQueue} (hpop : queue.pop = some (item, next)) :
    ∃ items, queue.items = item :: items ∧ next.items = items ++ queue.rising ∧
      next.line = queue.line.tail := by
  unfold pop at hpop
  unfold rising
  split at hpop
  · cases hpop
  · rename_i items hitems hline
    cases hpop
    exact ⟨_, hitems, by simp [hline], by simp [hline]⟩
  · rename_i items first line hitems hline
    cases hpop
    exact ⟨_, hitems, by simp [hline], by simp [hline]⟩

theorem items_of_pop_eq_none (hpop : queue.pop = none) : queue.items = [] := by
  unfold pop at hpop
  split at hpop
  · assumption
  · cases hpop
  · cases hpop

/-- The numbers in line are those that move up and those that stay. -/
theorem waitingIds_eq (queue : WriteQueue) :
    queue.waitingIds =
      requestIds queue.rising ++ queue.line.tail.filterMap fun waiter => askedIn waiter.frame := by
  unfold waitingIds rising
  cases queue.line with
  | nil => rfl
  | cons first line =>
      rw [List.head?_cons, Option.map_some, Option.toList_some, requestIds_frame,
        List.filterMap_cons]
      cases askedIn first.frame <;> rfl

/-- Whoever has a frame brings its number, into the queue or into the line. -/
theorem numbers_push (h : queue.InTurn) (waiter : Waiter) :
    requestIds (queue.entering waiter) ++ (queue.push waiter).waitingIds =
      queue.waitingIds ++ (askedIn waiter.frame).toList := by
  unfold waitingIds entering
  rcases line_push h waiter with ⟨hroom, hnone, hline⟩ | ⟨hfull, hline⟩
  · rw [if_pos hroom, hline, hnone, requestIds_frame]
    simp
  · rw [if_neg hfull, hline, List.filterMap_append]
    cases hasked : askedIn waiter.frame <;> simp [requestIds, hasked]

theorem holds_congr {other : WriteQueue} (hline : other.line = queue.line) (call : CallKey) :
    other.holds call = queue.holds call := by
  rw [holds, holds, hline]

theorem holds_iff {call : CallKey} :
    queue.holds call = true ↔ ∃ waiter ∈ queue.line, waiter.call = some call := by
  simp [holds]

end WriteQueue

/-- What a writer does that has taken an item. -/
def Writer.taking : WriteItem → Writer
  | .frame bytes => .writing bytes 0
  | .shutdown (some bytes) => .parting bytes 0
  | .shutdown none => .ended

namespace Connection

/-! ## What a step does to the queue -/

/-- Whether a step begins a call. -/
def Step.isRequest : Step → Bool
  | request .. => true
  | _ => false

/-- The item that the writer takes in a step. -/
def taken? (conn : Connection) : Step → Option WriteItem
  | .act .takeItem => if conn.writer = .idle then conn.queue.items.head? else none
  | _ => none

/-- The items that a step puts into the write queue: what stands behind the items that were there
before and have not been taken. -/
def admitted (conn : Connection) (step : Step) : List WriteItem :=
  (conn.perform step).queue.items.drop
    (conn.queue.items.length - (conn.taken? step).toList.length)

/-- What a step does to the calls and to the write queue, and the items that it puts there. -/
inductive Traffic (conn : Connection) (step : Step) (after : Connection) : List WriteItem → Prop
  /-- Nothing comes or goes. -/
  | still (hcalls : after.calls = conn.calls) (hqueue : after.queue = conn.queue)
      (hwriter : (∃ room, step = .write room) ∨ after.writer = conn.writer) :
      Traffic conn step after []
  /-- The writer is told to end the stream. -/
  | told (farewell : Option ByteArray)
      (hfarewell : ∀ bytes, farewell = some bytes → bytes = (Message.close none).bytes)
      (hroom : conn.queue.hasRoom = true) (hcalls : after.calls = conn.calls)
      (hqueue : after.queue = conn.queue.offer (.shutdown farewell))
      (hwriter : after.writer = conn.writer) :
      Traffic conn step after [.shutdown farewell]
  /-- The writer ends. -/
  | closed (hcalls : after.calls = conn.calls) (hqueue : after.queue = conn.queue.close)
      (hwriter : after.writer = .ended) : Traffic conn step after []
  /-- A call ends. -/
  | dropped (call : Call) (hcall : call ∈ conn.calls)
      (hcalls : after.calls = conn.calls.filter fun other => other.key ≠ call.key)
      (hqueue : after.queue = conn.queue.withdraw call.key) (hwriter : after.writer = conn.writer) :
      Traffic conn step after []
  /-- A call begins. -/
  | began (call : Call) (message : Message) (hfits : message.Fits)
      (hasked : message.asked?.map Prod.fst = some call.id) (hid : call.id = ⟨conn.ids.next⟩)
      (hnumber : conn.ids.next ≠ RequestIds.exhausted) (hnext : after.ids.next = conn.ids.next + 1)
      (hstep : step.isRequest = true) (hcalls : after.calls = conn.calls ++ [call])
      (hqueue : after.queue = conn.queue.push ⟨some call.key, message.bytes⟩)
      (hwriter : after.writer = conn.writer) :
      Traffic conn step after (conn.queue.entering ⟨some call.key, message.bytes⟩)
  /-- A handler gives its answer. -/
  | answered (message : Message) (hfits : message.Fits) (hanswer : message.isAnswer = true)
      (hcalls : after.calls = conn.calls)
      (hqueue : after.queue = conn.queue.push ⟨none, message.bytes⟩)
      (hwriter : after.writer = conn.writer) :
      Traffic conn step after (conn.queue.entering ⟨none, message.bytes⟩)
  /-- The writer takes an item. -/
  | took (item : WriteItem) (hidle : conn.writer = .idle)
      (hpop : conn.queue.pop = some (item, after.queue)) (hcalls : after.calls = conn.calls)
      (hwriter : after.writer = .taking item) (hlive : item ≠ .shutdown none) :
      Traffic conn step after conn.queue.rising
  /-- The writer takes the order to end. -/
  | ended (next : WriteQueue) (hidle : conn.writer = .idle)
      (hpop : conn.queue.pop = some (.shutdown none, next)) (hcalls : after.calls = conn.calls)
      (hqueue : after.queue = next.close) (hwriter : after.writer = .ended) :
      Traffic conn step after []

section Admitted

variable {conn : Connection} {step : Step}

theorem admitted_of_items {new : List WriteItem} (htaken : conn.taken? step = none)
    (hitems : (conn.perform step).queue.items = conn.queue.items ++ new) :
    conn.admitted step = new := by
  simp [admitted, htaken, hitems]

theorem admitted_of_closed (hitems : (conn.perform step).queue.items = []) :
    conn.admitted step = [] := by
  simp [admitted, hitems]

theorem admitted_of_taken {item : WriteItem} {items new : List WriteItem}
    (htaken : conn.taken? step = some item) (hbefore : conn.queue.items = item :: items)
    (hitems : (conn.perform step).queue.items = items ++ new) : conn.admitted step = new := by
  simp [admitted, htaken, hbefore, hitems]

end Admitted

/-- A connection on which nobody comes or goes, while the writer may be told to end the stream. -/
structure Steady (before after : Connection) : Prop where
  calls : after.calls = before.calls
  writer : after.writer = before.writer
  queue : after.queue = before.queue ∨ after.queue = before.queue.offer (.shutdown none)

namespace Steady

theorem refl (conn : Connection) : Steady conn conn := ⟨rfl, rfl, Or.inl rfl⟩

/-- Before the writer is told to end, there may be steps that leave the queue alone. -/
theorem of_eq {before middle after : Connection} (h : Steady middle after)
    (hcalls : middle.calls = before.calls) (hwriter : middle.writer = before.writer)
    (hqueue : middle.queue = before.queue) : Steady before after where
  calls := h.calls.trans hcalls
  writer := h.writer.trans hwriter
  queue := hqueue ▸ h.queue

theorem tearDown (conn : Connection) (reason : ClientError) :
    Steady conn (conn.tearDown reason) := by
  unfold Connection.tearDown
  simp only
  split
  · exact ⟨rfl, rfl, Or.inl rfl⟩
  · exact ⟨rfl, rfl, Or.inr rfl⟩

theorem endReader (conn : Connection) (reason : ClientError) :
    Steady conn (conn.endReader reason) :=
  (tearDown { conn with reader := none } reason).of_eq rfl rfl rfl

/-- What the reader takes off the stream does not come into the write queue. -/
theorem dispatchAll (conn : Connection) (outcomes : List (Decoder.Outcome Message)) :
    Steady conn (conn.dispatchAll outcomes) := by
  induction outcomes generalizing conn with
  | nil => exact .refl conn
  | cons outcome outcomes ih =>
      cases outcome with
      | needMore => exact ih conn
      | failed fault =>
          rw [Connection.dispatchAll]
          split
          · exact ih conn
          · exact endReader conn _
      | item message =>
          have hsame : (conn.dispatch message).2.calls = conn.calls ∧
              (conn.dispatch message).2.writer = conn.writer ∧
              (conn.dispatch message).2.queue = conn.queue := by
            unfold dispatch
            cases message.envelope <;> exact ⟨rfl, rfl, rfl⟩
          obtain ⟨hcalls, hwriter, hqueue⟩ := hsame
          rw [Connection.dispatchAll]
          generalize conn.dispatch message = dealt at hcalls hwriter hqueue ⊢
          obtain ⟨reason, next⟩ := dealt
          cases reason with
          | none => exact (ih next).of_eq hcalls hwriter hqueue
          | some reason => exact (endReader next reason).of_eq hcalls hwriter hqueue

theorem receive (conn : Connection) (data : ByteArray) : Steady conn (conn.receive data) := by
  cases hreader : conn.reader with
  | none =>
      rw [receive_of_none hreader]
      exact .refl conn
  | some decoder =>
      rw [receive_eq hreader]
      exact (dispatchAll { conn with reader := some (decoder.extend data).drain.2 } _).of_eq
        rfl rfl rfl

theorem receiveEnd (conn : Connection) : Steady conn conn.receiveEnd := by
  unfold Connection.receiveEnd
  split
  · exact endReader conn _
  · exact .refl conn

theorem receiveFault (conn : Connection) (fault : TransportFault) :
    Steady conn (conn.receiveFault fault) := by
  unfold Connection.receiveFault
  split
  · exact endReader conn _
  · exact .refl conn

end Steady

section Steps

variable (conn : Connection) {step : Step}

theorem Steady.traffic {conn : Connection} (h : Steady conn (conn.perform step))
    (htaken : conn.taken? step = none) :
    Traffic conn step (conn.perform step) (conn.admitted step) := by
  have hsame : (conn.perform step).queue = conn.queue →
      Traffic conn step (conn.perform step) (conn.admitted step) := by
    intro hqueue
    rw [admitted_of_items htaken (by rw [hqueue, List.append_nil])]
    exact .still h.calls hqueue (Or.inr h.writer)
  rcases h.queue with hqueue | hqueue
  · exact hsame hqueue
  · by_cases hroom : conn.queue.hasRoom = true
    · rw [admitted_of_items htaken (by rw [hqueue, WriteQueue.items_offer hroom])]
      exact .told none (fun _ h => nomatch h) hroom h.calls hqueue h.writer
    · exact hsame (hqueue.trans (WriteQueue.offer_of_full hroom))

/-- A step behind which the writer has ended. -/
theorem traffic_of_closed (hcalls : (conn.perform step).calls = conn.calls)
    (hqueue : (conn.perform step).queue = conn.queue.close)
    (hwriter : (conn.perform step).writer = .ended) :
    Traffic conn step (conn.perform step) (conn.admitted step) := by
  rw [admitted_of_closed (by rw [hqueue]; rfl)]
  exact .closed hcalls hqueue hwriter

/-- A step that leaves calls and queue alone. -/
theorem traffic_of_eq (htaken : conn.taken? step = none)
    (hcalls : (conn.perform step).calls = conn.calls)
    (hqueue : (conn.perform step).queue = conn.queue)
    (hwriter : (∃ room, step = .write room) ∨ (conn.perform step).writer = conn.writer) :
    Traffic conn step (conn.perform step) (conn.admitted step) := by
  rw [admitted_of_items htaken (by rw [hqueue, List.append_nil])]
  exact .still hcalls hqueue hwriter

theorem traffic_write (room : Nat) :
    Traffic conn (.write room) (conn.perform (.write room)) (conn.admitted (.write room)) := by
  have hafter : (∃ writer, conn.perform (.write room) = { conn with writer }) ∨
      conn.perform (.write room) = conn.endWriter := write_effect conn room
  rcases hafter with ⟨writer, hafter⟩ | hafter
  · exact traffic_of_eq conn rfl (by rw [hafter]) (by rw [hafter]) (Or.inl ⟨room, rfl⟩)
  · exact traffic_of_closed conn (by rw [hafter]; rfl) (by rw [hafter]; rfl) (by rw [hafter]; rfl)

theorem traffic_request (cluster : String) (payload : ByteArray) (timeout : Duration)
    (now : Instant) :
    Traffic conn (.request cluster payload timeout now)
      (conn.perform (.request cluster payload timeout now))
      (conn.admitted (.request cluster payload timeout now)) := by
  have heffect := request_effect conn cluster payload timeout now
  have hadmitted : ∀ new, (conn.request cluster payload timeout now).2.queue.items =
      conn.queue.items ++ new → conn.admitted (.request cluster payload timeout now) = new :=
    fun new hitems => admitted_of_items rfl hitems
  change Traffic conn _ (conn.request cluster payload timeout now).2 _
  generalize conn.admitted (.request cluster payload timeout now) = admitted at hadmitted ⊢
  generalize (conn.request cluster payload timeout now).1 = start at heffect
  generalize (conn.request cluster payload timeout now).2 = after at heffect hadmitted ⊢
  cases heffect with
  | started slot pending hid hregister hfits =>
      rw [hadmitted _ (WriteQueue.items_push _)]
      exact .began _ _ hfits rfl rfl hid rfl rfl rfl rfl rfl
  | _ =>
      rw [hadmitted [] (List.append_nil _).symm]
      exact .still rfl rfl (Or.inr rfl)

/-- A step in which a call ends. -/
theorem traffic_of_dropped (htaken : conn.taken? step = none) {before : Connection} {call : Call}
    (hcall : call ∈ conn.calls) (hafter : conn.perform step = before.dropCall call)
    (hcalls : before.calls = conn.calls) (hqueue : before.queue = conn.queue)
    (hwriter : before.writer = conn.writer) :
    Traffic conn step (conn.perform step) (conn.admitted step) := by
  have hitems : (conn.perform step).queue.items = conn.queue.items ++ [] := by
    rw [hafter, ← hqueue, List.append_nil]
    rfl
  rw [admitted_of_items htaken hitems, hafter]
  refine .dropped call hcall ?_ ?_ ?_
  · rw [← hcalls]
    rfl
  · rw [← hqueue]
    rfl
  · rw [← hwriter]
    rfl

/-- A caller that looks after its call leaves all else alone, whether the call ends or not. -/
theorem poll_eq_dropCall (call : Call) (now : Instant) :
    (conn.poll call now).2 = conn ∨ ∃ before : Connection,
      (conn.poll call now).2 = before.dropCall call ∧
      before.calls = conn.calls ∧ before.queue = conn.queue ∧ before.writer = conn.writer := by
  unfold poll
  by_cases hholds : conn.queue.holds call.key = true
  · rw [if_pos hholds]
    split
    · exact Or.inr ⟨conn, rfl, rfl, rfl, rfl⟩
    · split
      · exact Or.inr ⟨conn, rfl, rfl, rfl, rfl⟩
      · exact Or.inl rfl
  · rw [if_neg hholds]
    simp only
    split
    · exact Or.inr ⟨_, rfl, rfl, rfl, rfl⟩
    · exact Or.inl rfl

theorem traffic_poll (key : CallKey) (now : Instant) :
    Traffic conn (.poll key now) (conn.perform (.poll key now))
      (conn.admitted (.poll key now)) := by
  have hafter : conn.perform (.poll key now) = (conn.pollBy key now).2 := rfl
  have hsame : conn.perform (.poll key now) = conn →
      Traffic conn (.poll key now) (conn.perform (.poll key now)) (conn.admitted (.poll key now)) :=
    fun h => traffic_of_eq conn rfl (by rw [h]) (by rw [h]) (Or.inr (by rw [h]))
  cases hcall : conn.call? key with
  | none =>
      rw [pollBy_of_none hcall] at hafter
      exact hsame hafter
  | some call =>
      rw [pollBy_of_some hcall] at hafter
      rcases poll_eq_dropCall conn call now with hpoll | ⟨before, hpoll, hcalls, hqueue, hwriter⟩
      · exact hsame (hafter.trans hpoll)
      · exact traffic_of_dropped conn rfl (List.mem_of_find?_eq_some hcall) (hafter.trans hpoll)
          hcalls hqueue hwriter

theorem traffic_abandon (key : CallKey) :
    Traffic conn (.act (.abandon key)) (conn.perform (.act (.abandon key)))
      (conn.admitted (.act (.abandon key))) := by
  have hafter : conn.perform (.act (.abandon key)) = conn.abandon key := rfl
  unfold abandon at hafter
  split at hafter
  · rename_i call hcall
    exact traffic_of_dropped conn rfl (List.mem_of_find?_eq_some hcall) hafter rfl rfl rfl
  · exact traffic_of_eq conn rfl (by rw [hafter]) (by rw [hafter]) (Or.inr (by rw [hafter]))

theorem traffic_complete (key : Nat) (result : HandlerResult) :
    Traffic conn (.act (.complete key result)) (conn.perform (.act (.complete key result)))
      (conn.admitted (.act (.complete key result))) := by
  have hafter : conn.perform (.act (.complete key result)) = conn.completeBy key result := rfl
  cases hservice : conn.service? key with
  | none =>
      rw [completeBy_of_none hservice] at hafter
      exact traffic_of_eq conn rfl (by rw [hafter]) (by rw [hafter]) (Or.inr (by rw [hafter]))
  | some service =>
      rw [completeBy_of_some hservice, complete_eq] at hafter
      by_cases hfits : (result.toMessage service.id).Fits
      · have hanswer : (result.toMessage service.id).isAnswer = true := by cases result <;> rfl
        rw [if_pos hfits] at hafter
        rw [admitted_of_items rfl (by rw [hafter]; exact WriteQueue.items_push _), hafter]
        exact .answered _ hfits hanswer rfl rfl rfl
      · -- An answer that fits into no frame is not sent.
        rw [if_neg hfits] at hafter
        exact traffic_of_eq conn rfl (by rw [hafter]) (by rw [hafter]) (Or.inr (by rw [hafter]))

theorem traffic_takeItem :
    Traffic conn (.act .takeItem) (conn.perform (.act .takeItem))
      (conn.admitted (.act .takeItem)) := by
  have hafter : conn.perform (.act .takeItem) = conn.takeItem := rfl
  have htaken : ∀ {item : WriteItem} {items : List WriteItem}, conn.writer = .idle →
      conn.queue.items = item :: items → conn.taken? (.act .takeItem) = some item := by
    intro item items hwriter hitems
    simp [taken?, hwriter, hitems]
  -- An item that is taken goes from the front, and the first in line moves up.
  have htook : ∀ {item : WriteItem} {next : WriteQueue} {after : Connection}, conn.writer = .idle →
      conn.queue.pop = some (item, next) → conn.takeItem = after → after.queue = next →
      after.calls = conn.calls → after.writer = .taking item → item ≠ .shutdown none →
        Traffic conn (.act .takeItem) (conn.perform (.act .takeItem))
          (conn.admitted (.act .takeItem)) := by
    intro item next after hidle hpop htake hqueue hcalls hwriter hlive
    obtain ⟨items, hitems, hnext, -⟩ := WriteQueue.items_of_pop hpop
    rw [← htake, ← hafter] at hqueue hcalls hwriter
    rw [admitted_of_taken (htaken hidle hitems) hitems (by rw [hqueue, hnext])]
    exact .took item hidle (hqueue ▸ hpop) hcalls hwriter hlive
  have heffect := takeItem_effect conn
  generalize htake : conn.takeItem = after at heffect
  cases heffect with
  | idle hidle =>
      have hnone : conn.taken? (.act .takeItem) = none := by
        rcases hidle with hwriter | hpop
        · exact if_neg hwriter
        · simp [taken?, WriteQueue.items_of_pop_eq_none hpop]
      rw [htake] at hafter
      exact traffic_of_eq conn hnone (by rw [hafter]) (by rw [hafter]) (Or.inr (by rw [hafter]))
  | frame bytes next hwriter hpop => exact htook hwriter hpop htake rfl rfl rfl nofun
  | farewell bytes next hwriter hpop => exact htook hwriter hpop htake rfl rfl rfl nofun
  | ended next hwriter hpop =>
      rw [htake] at hafter
      rw [admitted_of_closed (by rw [hafter]; rfl), hafter]
      exact .ended next hwriter hpop rfl rfl rfl

theorem traffic_writeFault (fault : TransportFault) :
    Traffic conn (.act (.writeFault fault)) (conn.perform (.act (.writeFault fault)))
      (conn.admitted (.act (.writeFault fault))) := by
  have hafter : conn.perform (.act (.writeFault fault)) = conn.writeFault fault := rfl
  unfold writeFault at hafter
  split at hafter
  · -- Whether the writer was told to end before does not matter to a queue that is closed.
    have hsteady := Steady.tearDown conn (.sendFailed fault)
    have hclose : (conn.tearDown (.sendFailed fault)).queue.close = conn.queue.close := by
      rcases hsteady.queue with hqueue | hqueue
      · rw [hqueue]
      · rw [hqueue, WriteQueue.offer]
        split <;> rfl
    refine traffic_of_closed conn ?_ ?_ ?_
    · rw [hafter]
      exact hsteady.calls
    · rw [hafter]
      exact hclose
    · rw [hafter]
      rfl
  · exact traffic_of_closed conn (by rw [hafter]; rfl) (by rw [hafter]; rfl) (by rw [hafter]; rfl)
  · exact traffic_of_eq conn rfl (by rw [hafter]) (by rw [hafter]) (Or.inr (by rw [hafter]))

theorem traffic_close :
    Traffic conn (.act .close) (conn.perform (.act .close)) (conn.admitted (.act .close)) := by
  have hafter : conn.perform (.act .close) = conn.close.2 := rfl
  have hfarewell : farewell = .ok (Message.close none).bytes :=
    Message.encode_of_fits (by decide)
  unfold close at hafter
  simp only [hfarewell] at hafter
  split at hafter
  · exact traffic_of_eq conn rfl (by rw [hafter]; rfl) (by rw [hafter]; rfl)
      (Or.inr (by rw [hafter]; rfl))
  · split at hafter
    · rename_i hroom
      have hitems : (conn.perform (.act .close)).queue.items =
          conn.queue.items ++ [.shutdown (some (Message.close none).bytes)] := by
        rw [hafter]
        exact WriteQueue.items_offer hroom
      rw [admitted_of_items rfl hitems, hafter]
      refine .told _ ?_ hroom rfl rfl rfl
      rintro bytes ⟨⟩
      rfl
    · exact traffic_of_closed conn (by rw [hafter]; rfl) (by rw [hafter]; rfl) (by rw [hafter]; rfl)

/-- Every step is one of those listed. -/
theorem perform_traffic (step : Step) :
    Traffic conn step (conn.perform step) (conn.admitted step) := by
  cases step with
  | receive data => exact (Steady.receive conn data).traffic rfl
  | receiveEnd => exact (Steady.receiveEnd conn).traffic rfl
  | write room => exact traffic_write conn room
  | request cluster payload timeout now => exact traffic_request conn cluster payload timeout now
  | poll key now => exact traffic_poll conn key now
  | act act =>
      cases act with
      | abandon key => exact traffic_abandon conn key
      | complete key result => exact traffic_complete conn key result
      | takeItem => exact traffic_takeItem conn
      | writeFault fault => exact traffic_writeFault conn fault
      | receiveFault fault => exact (Steady.receiveFault conn fault).traffic rfl
      | close => exact traffic_close conn
      | endWriter => exact traffic_of_closed conn rfl rfl rfl
      | drop => exact traffic_of_closed conn rfl rfl rfl

/-- A call that is refused, or finds no number, leaves the queue alone. -/
theorem queue_of_not_started {cluster : String} {payload : ByteArray} {timeout : Duration}
    {now : Instant}
    (h : ∀ key, (conn.request cluster payload timeout now).1 ≠ .started key) :
    (conn.request cluster payload timeout now).2.queue = conn.queue := by
  have heffect := request_effect conn cluster payload timeout now
  generalize (conn.request cluster payload timeout now).1 = start at heffect h
  generalize (conn.request cluster payload timeout now).2 = after at heffect ⊢
  cases heffect with
  | started slot pending hid hregister hfits => exact absurd rfl (h _)
  | _ => rfl

end Steps

end Connection

end Switchboard
