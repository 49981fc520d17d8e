import Switchboard.Proofs.Connection.Desk
import Switchboard.Proofs.Connection.Run

/-!
# The calls of a connection along a run

Every step of a connection is a sequence of moves of its desk (`moves_perform`), so a run keeps the
account of what its callers have been told (`told_run`). What a caller finds when it looks after its
call depends on the line in front of the write queue and on the state of its slot alone
(`poll_eq_verdict`).
-/

namespace Switchboard

/-- The number and the outcome that an answer brings. -/
def Message.outcome? (message : Message) : Option (RequestId × Outcome) :=
  match message.envelope with
  | .reply id => some (id, .reply message.payload)
  | .errorReply id error => some (id, .rejected error)
  | _ => none

/-- Callers are told apart what became of their requests. -/
theorem Outcome.toResult_injective {a b : Outcome} (h : a.toResult = b.toResult) : a = b := by
  cases a <;> cases b <;> cases h <;> rfl

namespace Connection

/-- The calls in progress and the table they wait in. -/
def desk (conn : Connection) : Desk := ⟨conn.calls, conn.nextCall, conn.pending⟩

/-! ## What is told of a run -/

/-- What a message tells the calls. -/
def hearing (conn : Connection) (message : Message) : List CallEvent :=
  (message.outcome?.map fun answer =>
    .heard answer.1 answer.2 (conn.pending.holder? answer.1)).toList

/-- What is told while the reader deals with what it has taken off the stream. -/
def hearings (conn : Connection) : List (Decoder.Outcome Message) → List CallEvent
  | [] => []
  | .needMore :: outcomes => conn.hearings outcomes
  | .failed fault :: outcomes => if fault.isRecoverable then conn.hearings outcomes else []
  | .item message :: outcomes =>
      conn.hearing message ++
        match conn.dispatch message with
        | (none, conn) => conn.hearings outcomes
        | (some _, _) => []

/-- What a step tells of the calls. -/
def callEvents (conn : Connection) : Step → List CallEvent
  | .receive data =>
      match conn.reader with
      | none => []
      | some decoder =>
          { conn with reader := some (decoder.extend data).drain.2 }.hearings
            (decoder.extend data).drain.1
  | .poll key now =>
      match conn.call? key with
      | none => []
      | some call => ((conn.poll call now).1.map (.ended call)).toList
  | _ => []

/-- All that is told of the calls in a run, in order. -/
def callTrace (conn : Connection) : List Step → List CallEvent
  | [] => []
  | step :: steps => conn.callEvents step ++ callTrace (conn.perform step) steps

/-! ## What a caller finds -/

/-- What a caller is told that looks after its call, when its slot is in the given state. In line it
fails when the queue is closed or its time is over. Behind that it is told what its slot holds, and
fails without an outcome when its time is over. -/
def verdict (conn : Connection) (call : Call) (state : SlotState) (now : Instant) :
    Option (Except ClientError ByteArray) :=
  if conn.queue.holds call.key then
    if !conn.queue.isOpen then some (.error .connectionClosed)
    else if call.deadline ≤ now then some (.error .requestTimeout)
    else none
  else
    (state.outcome?.or (if call.deadline ≤ now then some .timedOut else none)).map Outcome.toResult

/-- The verdict comes from the slot of the call, and a call that ends is dropped. -/
theorem poll_eq_verdict {conn : Connection} (h : conn.pending.Matched) {call : Call} {slot : Slot}
    (hslot : slot ∈ conn.pending.slots) (hkey : slot.key = call.slot) (now : Instant) :
    conn.poll call now =
      (conn.verdict call slot.state now,
        if (conn.verdict call slot.state now).isSome then conn.dropCall call else conn) := by
  unfold poll verdict
  -- A call in line asks the queue, and one behind it asks its slot.
  by_cases hholds : conn.queue.holds call.key = true
  · rw [if_pos hholds, if_pos hholds]
    by_cases hclosed : (!conn.queue.isOpen) = true
    · rw [if_pos hclosed, if_pos hclosed]
      rfl
    · rw [if_neg hclosed, if_neg hclosed]
      by_cases hlate : call.deadline ≤ now
      · rw [if_pos hlate, if_pos hlate]
        rfl
      · rw [if_neg hlate, if_neg hlate]
        rfl
  · rw [if_neg hholds, if_neg hholds, ← hkey]
    by_cases hlate : call.deadline ≤ now
    · -- The time is over: what the slot had before counts, and else the timeout.
      have hdrop : dropCall { conn with pending := conn.pending.expire slot.key } call =
          conn.dropCall call := by
        unfold dropCall
        rw [← hkey]
        simp only [h.drop_expire hslot]
      simp only [if_pos hlate, h.poll_expire hslot, hdrop]
      cases slot.state.outcome? <;> rfl
    · simp only [if_neg hlate, h.poll_eq hslot, Option.or_none]
      cases slot.state.outcome? <;> rfl

/-- A caller that is told of an answer has found it in its slot. -/
theorem outcome?_of_verdict {conn : Connection} {call : Call} {state : SlotState} {now : Instant}
    {outcome : Outcome} (hanswer : outcome.isAnswer = true)
    (h : conn.verdict call state now = some outcome.toResult) : state.outcome? = some outcome := by
  have hsame : ∀ other : Outcome, some other.toResult = some outcome.toResult → other = outcome :=
    fun other hresult => Outcome.toResult_injective (Option.some.inj hresult)
  unfold verdict at h
  split at h
  · -- In line a call ends without an answer.
    split at h
    · cases hsame .closed h
      cases hanswer
    · split at h
      · cases hsame .timedOut h
        cases hanswer
      · cases h
  · cases hfound : state.outcome? with
    | some found =>
        rw [hfound] at h
        rw [hsame found h]
    | none =>
        rw [hfound] at h
        split at h
        · cases hsame .timedOut h
          cases hanswer
        · cases h

/-! ## Steps are moves -/

section Moves

variable (conn : Connection)

theorem desk_cutOff : Desk.Moves conn.desk [] conn.cutOff.desk := Desk.Move.cancel.moves

theorem desk_tearDown (reason : ClientError) : (conn.tearDown reason).desk = conn.cutOff.desk := by
  unfold tearDown
  simp only
  split <;> rfl

theorem moves_endReader (reason : ClientError) :
    Desk.Moves conn.desk [] (conn.endReader reason).desk := by
  unfold endReader
  rw [desk_tearDown]
  exact desk_cutOff { conn with reader := none }

theorem moves_dispatch (message : Message) :
    Desk.Moves conn.desk (conn.hearing message) (conn.dispatch message).2.desk := by
  unfold hearing dispatch Message.outcome?
  cases message.envelope with
  | reply id => exact (Desk.Move.hear id (.reply message.payload)).moves
  | errorReply id error => exact (Desk.Move.hear id (.rejected error)).moves
  | hello version cluster clientName => exact .refl _
  | welcome connectionId => exact .refl _
  | request id cluster timeoutMs => exact .refl _
  | close reason => exact .refl _

theorem moves_dispatchAll (outcomes : List (Decoder.Outcome Message)) :
    Desk.Moves conn.desk (conn.hearings outcomes) (conn.dispatchAll outcomes).desk := by
  induction outcomes generalizing conn with
  | nil => exact .refl _
  | cons outcome outcomes ih =>
      cases outcome with
      | needMore => exact ih conn
      | failed fault =>
          rw [hearings, dispatchAll]
          by_cases hfault : fault.isRecoverable = true
          · rw [if_pos hfault, if_pos hfault]
            exact ih conn
          · rw [if_neg hfault, if_neg hfault]
            exact moves_endReader conn _
      | item message =>
          have hfirst := moves_dispatch conn message
          rw [hearings, dispatchAll]
          generalize conn.dispatch message = dealt at hfirst ⊢
          obtain ⟨reason, next⟩ := dealt
          apply hfirst.trans
          cases reason with
          | none => exact ih next
          | some reason => exact moves_endReader next reason

theorem moves_receive (data : ByteArray) :
    Desk.Moves conn.desk (conn.callEvents (.receive data)) (conn.receive data).desk := by
  unfold callEvents
  cases hreader : conn.reader with
  | none =>
      rw [receive_of_none hreader]
      exact .refl _
  | some decoder =>
      rw [receive_eq hreader]
      exact moves_dispatchAll { conn with reader := some (decoder.extend data).drain.2 } _

theorem moves_receiveEnd : Desk.Moves conn.desk [] conn.receiveEnd.desk := by
  unfold receiveEnd
  split
  · exact moves_endReader conn _
  · exact .refl _

theorem moves_receiveFault (fault : TransportFault) :
    Desk.Moves conn.desk [] (conn.receiveFault fault).desk := by
  unfold receiveFault
  split
  · exact moves_endReader conn _
  · exact .refl _

theorem desk_write (room : Nat) : (conn.write room).2.desk = conn.desk := by
  rcases write_effect conn room with ⟨writer, h⟩ | h <;> rw [h] <;> rfl

theorem desk_takeItem : conn.takeItem.desk = conn.desk := by
  have heffect := takeItem_effect conn
  generalize conn.takeItem = after at heffect ⊢
  cases heffect <;> rfl

theorem desk_completeBy (key : Nat) (result : HandlerResult) :
    (conn.completeBy key result).desk = conn.desk := by
  cases hservice : conn.service? key with
  | some service =>
      rw [completeBy_of_some hservice, complete_eq]
      rfl
  | none => rw [completeBy_of_none hservice]

theorem moves_writeFault (fault : TransportFault) :
    Desk.Moves conn.desk [] (conn.writeFault fault).desk := by
  unfold writeFault
  split
  · show Desk.Moves conn.desk [] (conn.tearDown (.sendFailed fault)).desk
    rw [desk_tearDown]
    exact desk_cutOff conn
  · exact .refl _
  · exact .refl _

theorem desk_close : conn.close.2.desk = conn.cutOff.desk := by
  unfold close
  simp only
  split
  · rfl
  · split
    · rfl
    · split <;> rfl

theorem moves_close : Desk.Moves conn.desk [] conn.close.2.desk := by
  rw [desk_close]
  exact desk_cutOff conn

theorem moves_abandon (key : CallKey) : Desk.Moves conn.desk [] (conn.abandon key).desk := by
  unfold abandon
  cases hcall : conn.call? key with
  | none => exact .refl _
  | some call =>
      have hmem : call ∈ conn.desk.calls := List.mem_of_find?_eq_some hcall
      exact (Desk.Move.abandon call hmem).moves

end Moves

section Kept

variable {conn : Connection} (h : conn.desk.Kept)

include h

theorem moves_request (cluster : String) (payload : ByteArray) (timeout : Duration)
    (now : Instant) :
    Desk.Moves conn.desk [] (conn.request cluster payload timeout now).2.desk := by
  have heffect := request_effect conn cluster payload timeout now
  generalize (conn.request cluster payload timeout now).1 = start at heffect
  generalize (conn.request cluster payload timeout now).2 = after at heffect ⊢
  cases heffect with
  | declined error => exact .refl _
  | exhausted hid => exact .refl _
  | unregistered error hid => exact .refl _
  | unwritten slot pending fault hid hregister =>
      show Desk.Moves conn.desk [] ⟨conn.calls, conn.nextCall, pending.drop slot⟩
      rw [PendingTable.Matched.drop_register h.matched hregister]
      exact Desk.Move.skip.moves
  | started slot pending hid hregister hfits =>
      have hmove := Desk.Move.begin
        ⟨conn.nextCall, ⟨conn.ids.next⟩, slot, now.after (timeout.atMost farFuture)⟩ pending rfl
        (show conn.desk.pending.register ⟨conn.ids.next⟩ = (.ok slot, pending) from hregister)
      exact hmove.moves

/-- A caller that looks after its call goes on, or its call ends. -/
theorem moves_pollBy (key : CallKey) (now : Instant) :
    Desk.Moves conn.desk (conn.callEvents (.poll key now)) (conn.pollBy key now).2.desk := by
  simp only [callEvents]
  cases hcall : conn.call? key with
  | none =>
      rw [pollBy_of_none hcall]
      exact .refl _
  | some call =>
      have hmem : call ∈ conn.desk.calls := List.mem_of_find?_eq_some hcall
      obtain ⟨slot, hslot, hident⟩ := h.exists_slot hmem
      have hkey : slot.key = call.slot := congrArg Prod.fst hident
      rw [pollBy_of_some hcall]
      simp only [poll_eq_verdict h.matched hslot hkey]
      cases hverdict : conn.verdict call slot.state now with
      | none => exact .refl conn.desk
      | some result =>
          refine (Desk.Move.finish call result hmem ?_).moves
          intro outcome hanswer hresult
          rw [hresult] at hverdict
          rw [← hkey]
          exact (h.matched.poll_eq hslot).trans (outcome?_of_verdict hanswer hverdict)

/-- Every step is a sequence of moves. -/
theorem moves_perform (step : Step) :
    Desk.Moves conn.desk (conn.callEvents step) (conn.perform step).desk := by
  cases step with
  | receive data => exact moves_receive conn data
  | receiveEnd => exact moves_receiveEnd conn
  | write room =>
      show Desk.Moves conn.desk [] (conn.write room).2.desk
      rw [desk_write]
      exact .refl _
  | request cluster payload timeout now => exact moves_request h cluster payload timeout now
  | poll key now => exact moves_pollBy h key now
  | act act =>
      cases act with
      | abandon key => exact moves_abandon conn key
      | complete key result =>
          show Desk.Moves conn.desk [] (conn.completeBy key result).desk
          rw [desk_completeBy]
          exact .refl _
      | takeItem =>
          show Desk.Moves conn.desk [] conn.takeItem.desk
          rw [desk_takeItem]
          exact .refl _
      | writeFault fault => exact moves_writeFault conn fault
      | receiveFault fault => exact moves_receiveFault conn fault
      | close => exact moves_close conn
      | endWriter => exact .refl _
      | drop => exact desk_cutOff conn

end Kept

/-! ## The account of a run -/

theorem told_run {log : List CallEvent} {conn : Connection} (h : Desk.Told log conn.desk)
    (steps : List Step) : Desk.Told (log ++ conn.callTrace steps) (conn.run steps).desk := by
  induction steps generalizing log conn with
  | nil =>
      rw [callTrace, List.append_nil]
      exact h
  | cons step steps ih =>
      rw [callTrace, ← List.append_assoc]
      exact ih (h.moves (moves_perform h.kept step))

/-- What callers have been told in a run from the beginning. -/
theorem told_trace (options : ConnectionOptions) (cluster connectionId : String) (decoder : Decoder)
    (steps : List Step) :
    Desk.Told ((new options cluster connectionId decoder).callTrace steps)
      ((new options cluster connectionId decoder).run steps).desk := by
  have hnew : Desk.Told [] (new options cluster connectionId decoder).desk := Desk.told_new
  exact told_run hnew steps

end Connection

end Switchboard
