import Mathlib.Data.Set.Basic
import Switchboard.Proofs.Connection.Deliveries
import Switchboard.Proofs.Connection.Reception
import Switchboard.Proofs.Resynchronisation

/-!
# A reader and the portions of its stream

Bytes that a reader receives one portion after the other do the same as the portions together
(`receive_receive`): what a decoder has left goes on behind more bytes as if they had been there
before (`drain_extend`), and a reader that has ended takes no notice of what comes later. Between
two portions nothing is left that could be dealt with (`Drained`), so a portion without bytes does
nothing (`receive_empty`). Nor does a frame that is of no use, where the reader has nothing left
(`IsNoise`, `receive_noise`). Other steps leave the reader as it is or end it, and all leave the
name of the connection (`Remains`). What portions bring to handlers and callers adds up in the same
way (`yield_receive_receive`).
-/

namespace Switchboard

namespace Decoder

/-- A decoder that has been drained goes on behind more bytes as if it had had them before, unless
the stream is out of step. -/
theorem drain_extend (decoder : Decoder) (more : ByteArray) :
    (∃ taken, decoder.drain.1 = taken ++ [.needMore] ∧
      Message.decode decoder.drain.2.buffer = .needMore ∧
      (decoder.extend more).drain =
        (taken ++ (decoder.drain.2.extend more).drain.1, (decoder.drain.2.extend more).drain.2)) ∨
    ∃ taken fault, decoder.drain.1 = taken ++ [.failed fault] ∧ fault.isRecoverable = false ∧
      (decoder.extend more).drain.1 = decoder.drain.1 := by
  -- The induction follows the decoder: each result leaves a shorter buffer.
  induction hsize : decoder.buffer.size using Nat.strongRecOn generalizing decoder with
  | ind size ih =>
      have hmore : (decoder.extend more).buffer = decoder.buffer ++ more := rfl
      cases hfront : Message.decode decoder.buffer with
      | needMore =>
          left
          have hdrain : decoder.drain = ([.needMore], decoder) := by rw [drain_eq, hfront]
          rw [hdrain]
          exact ⟨[], rfl, hfront, rfl⟩
      | refused fault =>
          right
          rw [drain_eq decoder, drain_eq (decoder.extend more), hmore,
            Message.decode_append_of_refused hfront, hfront]
          exact ⟨[], fault, rfl, Message.isRecoverable_of_refused hfront, rfl⟩
      | taken result rest =>
          have hshorter : rest.size < size := hsize ▸ Message.size_lt_of_decode_eq_taken hfront
          have hrest := ih rest.size hshorter ⟨rest⟩ rfl
          have hbehind : (Decoder.mk (rest ++ more)) = (Decoder.mk rest).extend more := rfl
          rw [drain_eq decoder, drain_eq (decoder.extend more), hmore,
            Message.decode_append_of_taken hfront, hfront]
          dsimp only
          rw [hbehind]
          rcases hrest with ⟨taken, htaken, hneed, hdrain⟩ | ⟨taken, fault, htaken, hfault, hdrain⟩
          · exact Or.inl ⟨.ofResult result :: taken, by rw [htaken]; rfl,
              hneed, by rw [hdrain]; rfl⟩
          · exact Or.inr ⟨.ofResult result :: taken, fault, by rw [htaken]; rfl,
              hfault, by rw [hdrain]⟩

end Decoder

namespace Connection

theorem reader_endReader (conn : Connection) (reason : ClientError) :
    (conn.endReader reason).reader = none := by
  rcases (wanes_tearDown { conn with reader := none } reason).reader with hsame | hnone
  · exact hsame
  · exact hnone

/-- A reader that has found its end takes no notice of more bytes. -/
theorem receive_endReader (conn : Connection) (reason : ClientError) (data : ByteArray) :
    (conn.endReader reason).receive data = conn.endReader reason :=
  receive_of_none (reader_endReader conn reason) data

/-- What a reader has left is lost when it ends. -/
theorem endReader_withReader (conn : Connection) (messages : List Message) (reader : Option Decoder)
    (reason : ClientError) :
    ({ conn with reader }.hear messages).endReader reason = (conn.hear messages).endReader reason :=
  rfl

theorem heard_needMore (taken : List (Decoder.Outcome Message)) :
    heard (taken ++ [.needMore]) = heard taken := by
  rw [heard_append]
  simp [heard]

theorem reasonIn_needMore (taken : List (Decoder.Outcome Message)) :
    reasonIn (taken ++ [.needMore]) = reasonIn taken := by
  rw [reasonIn_append]
  simp [reasonIn]

/-- A stream that is out of step ends the reader. -/
theorem exists_reasonIn (taken : List (Decoder.Outcome Message)) {fault : ProtocolError}
    (hfault : fault.isRecoverable = false) :
    ∃ reason, reasonIn (taken ++ [.failed fault]) = some reason := by
  apply Option.isSome_iff_exists.1
  rw [reasonIn_append]
  simp [reasonIn, hfault]

/-- Portions of a stream that are received one after the other do the same as when they are received
together. -/
theorem receive_receive {conn : Connection} (h : conn.pending.Matched) (data more : ByteArray) :
    (conn.receive data).receive more = conn.receive (data ++ more) := by
  cases hreader : conn.reader with
  | none => rw [receive_of_none hreader, receive_of_none hreader, receive_of_none hreader]
  | some decoder =>
      have hextend : decoder.extend (data ++ more) = (decoder.extend data).extend more := by
        simp only [Decoder.extend, ByteArray.append_assoc]
      rw [receive_eq_hear h hreader (data ++ more), hextend, receive_eq_hear h hreader data]
      rcases (decoder.extend data).drain_extend more with
        ⟨taken, htaken, hneed, hmore⟩ | ⟨taken, fault, htaken, hfault, hmore⟩
      · rw [htaken, hmore, heard_needMore, reasonIn_needMore, heard_append, reasonIn_append]
        cases hreason : reasonIn taken with
        | some reason =>
            simp only [endOn, receive_endReader, Option.isSome_some, if_true, List.append_nil,
              Option.some_or, endReader_withReader]
        | none =>
            -- The reader has not ended, and goes on with what it has left.
            have hfirst : ({ conn with reader := some (decoder.extend data).drain.2 } :
                Connection).pending.Matched := h
            have hheard := receive_eq_hear (matched_hear hfirst (heard taken)) rfl more
            simp only [endOn, Option.isSome_none, Bool.false_eq_true, if_false, Option.none_or]
            rw [hheard, ← hear_hear]
            rfl
      · obtain ⟨reason, hreason⟩ := exists_reasonIn taken hfault
        rw [hmore, htaken, hreason]
        simp only [endOn, receive_endReader, endReader_withReader]

/-! ## Between two portions -/

/-- A reader that has not ended needs more bytes. -/
def Drained (conn : Connection) : Prop :=
  ∀ decoder, conn.reader = some decoder → Message.decode decoder.buffer = .needMore

/-- A portion without bytes does nothing. -/
theorem receive_empty {conn : Connection} (h : conn.Drained) :
    conn.receive ByteArray.empty = conn := by
  cases hreader : conn.reader with
  | none => exact receive_of_none hreader _
  | some decoder =>
      have hextend : decoder.extend ByteArray.empty = decoder := by
        simp only [Decoder.extend, ByteArray.append_empty]
      rw [receive_eq hreader, hextend, Decoder.drain_of_needMore (h decoder hreader), ← hreader]
      rfl

/-- A reader deals with all that it can. -/
theorem drained_receive {conn : Connection} (h : conn.pending.Matched) (data : ByteArray) :
    (conn.receive data).Drained := by
  intro left hleft
  cases hreader : conn.reader with
  | none =>
      rw [receive_of_none hreader, hreader] at hleft
      cases hleft
  | some decoder =>
      rw [receive_eq_hear h hreader] at hleft
      rcases (decoder.extend data).drain_extend ByteArray.empty with
        ⟨taken, htaken, hneed, -⟩ | ⟨taken, fault, htaken, hfault, -⟩
      · rw [htaken, reasonIn_needMore] at hleft
        cases hreason : reasonIn taken with
        | some reason =>
            rw [hreason] at hleft
            cases (reader_endReader _ reason).symm.trans hleft
        | none =>
            rw [hreason] at hleft
            cases hleft
            exact hneed
      · obtain ⟨reason, hreason⟩ := exists_reasonIn taken hfault
        rw [htaken, hreason] at hleft
        cases (reader_endReader _ reason).symm.trans hleft

/-! ## What stays with a connection -/

/-- The name that the relay has given stays, and the reader stays or has ended. -/
structure Remains (conn after : Connection) : Prop where
  connectionId : after.connectionId = conn.connectionId
  reader : after.reader = conn.reader ∨ after.reader = none

section Remains

variable (conn : Connection)

theorem Remains.refl : Remains conn conn := ⟨rfl, Or.inl rfl⟩

theorem remains_tearDown (reason : ClientError) : Remains conn (conn.tearDown reason) where
  connectionId := by
    unfold tearDown
    simp only
    split <;> rfl
  reader := (wanes_tearDown conn reason).reader

theorem remains_endOn (reason : Option ClientError) : Remains conn (conn.endOn reason) := by
  cases reason with
  | none => exact .refl conn
  | some reason =>
      have hends := remains_tearDown { conn with reader := none } reason
      exact ⟨hends.connectionId, Or.inr (reader_endReader conn reason)⟩

/-- A reader that may find its end. -/
theorem remains_readerEnds (reason : ClientError) :
    Remains conn (if conn.reader.isSome then conn.endReader reason else conn) := by
  split
  · exact remains_endOn conn (some reason)
  · exact .refl conn

theorem remains_request (cluster : String) (payload : ByteArray) (timeout : Duration)
    (now : Instant) : Remains conn (conn.request cluster payload timeout now).2 := by
  have heffect := request_effect conn cluster payload timeout now
  generalize (conn.request cluster payload timeout now).1 = start at heffect
  generalize (conn.request cluster payload timeout now).2 = after at heffect ⊢
  cases heffect <;> exact ⟨rfl, Or.inl rfl⟩

theorem remains_write (room : Nat) : Remains conn (conn.write room).2 := by
  rcases write_effect conn room with ⟨writer, hafter⟩ | hafter
  · rw [hafter]
    exact ⟨rfl, Or.inl rfl⟩
  · rw [hafter]
    exact ⟨rfl, Or.inl rfl⟩

theorem remains_pollBy (hkept : conn.desk.Kept) (key : CallKey) (now : Instant) :
    Remains conn (conn.pollBy key now).2 := by
  cases hcall : conn.call? key with
  | none =>
      rw [pollBy_of_none hcall]
      exact .refl conn
  | some call =>
      obtain ⟨slot, hslot, hident⟩ := hkept.exists_slot (List.mem_of_find?_eq_some hcall)
      rw [pollBy_of_some hcall, poll_eq_verdict hkept.matched hslot (congrArg Prod.fst hident)]
      simp only
      split
      · exact ⟨rfl, Or.inl rfl⟩
      · exact .refl conn

theorem remains_completeBy (key : Nat) (result : HandlerResult) :
    Remains conn (conn.completeBy key result) := by
  cases hservice : conn.service? key with
  | none =>
      rw [completeBy_of_none hservice]
      exact .refl conn
  | some service =>
      rw [completeBy_of_some hservice, complete_eq]
      exact ⟨rfl, Or.inl rfl⟩

theorem remains_takeItem : Remains conn conn.takeItem := by
  have heffect := takeItem_effect conn
  generalize conn.takeItem = after at heffect ⊢
  cases heffect <;> exact ⟨rfl, Or.inl rfl⟩

theorem remains_close : Remains conn conn.close.2 := by
  unfold close
  simp only
  split
  · exact ⟨rfl, Or.inr rfl⟩
  · split
    · exact ⟨rfl, Or.inr rfl⟩
    · split <;> exact ⟨rfl, Or.inr rfl⟩

theorem remains_act (act : Act) : Remains conn (conn.perform (.act act)) := by
  cases act with
  | abandon key =>
      show Remains conn (conn.abandon key)
      unfold abandon
      split <;> exact ⟨rfl, Or.inl rfl⟩
  | complete key result => exact remains_completeBy conn key result
  | takeItem => exact remains_takeItem conn
  | writeFault fault =>
      show Remains conn (conn.writeFault fault)
      unfold writeFault
      split
      · have hends := remains_tearDown conn (.sendFailed fault)
        exact ⟨hends.connectionId, hends.reader⟩
      · exact ⟨rfl, Or.inl rfl⟩
      · exact .refl conn
  | receiveFault fault => exact remains_readerEnds conn (.transport fault)
  | close => exact remains_close conn
  | endWriter => exact ⟨rfl, Or.inl rfl⟩
  | drop => exact ⟨rfl, (wanes_drop conn).reader⟩

end Remains

/-- The reader receives bytes. -/
def Step.isRead : Step → Bool
  | .receive _ => true
  | _ => false

/-- The bytes that a step brings. -/
def Step.data : Step → ByteArray
  | .receive data => data
  | _ => ByteArray.empty

theorem Step.data_of_not_isRead {step : Step} (h : step.isRead = false) :
    step.data = ByteArray.empty := by
  cases step with
  | receive data => cases h
  | _ => rfl

theorem Step.eq_receive {step : Step} (h : step.isRead = true) : step = .receive step.data := by
  cases step with
  | receive data => rfl
  | _ => cases h

/-- Only bytes give a reader something to deal with. -/
theorem remains_perform (conn : Connection) (hkept : conn.desk.Kept) {step : Step}
    (hstep : step.isRead = false) : Remains conn (conn.perform step) := by
  cases step with
  | receive data => cases hstep
  | receiveEnd => exact remains_readerEnds conn .connectionClosed
  | write room => exact remains_write conn room
  | request cluster payload timeout now => exact remains_request conn cluster payload timeout now
  | poll key now => exact remains_pollBy conn hkept key now
  | act act => exact remains_act conn act

theorem connectionId_receive {conn : Connection} (h : conn.pending.Matched) (data : ByteArray) :
    (conn.receive data).connectionId = conn.connectionId := by
  cases hreader : conn.reader with
  | none => rw [receive_of_none hreader]
  | some decoder =>
      rw [receive_eq_hear h hreader, (remains_endOn _ _).connectionId]
      rfl

/-- A connection keeps the name that the relay has given it. -/
theorem connectionId_perform {conn : Connection} (hkept : conn.desk.Kept) (step : Step) :
    (conn.perform step).connectionId = conn.connectionId := by
  cases hstep : step.isRead with
  | true =>
      rw [Step.eq_receive hstep]
      exact connectionId_receive hkept.matched step.data
  | false => exact (remains_perform conn hkept hstep).connectionId

/-- Whatever happens, the reader has dealt with all that it can. -/
theorem Drained.perform {conn : Connection} (h : conn.Drained) (hkept : conn.desk.Kept)
    (step : Step) :
    (conn.perform step).Drained := by
  cases hstep : step.isRead with
  | true =>
      rw [Step.eq_receive hstep]
      exact drained_receive hkept.matched step.data
  | false =>
      intro decoder hdecoder
      rcases (remains_perform conn hkept hstep).reader with hsame | hnone
      · exact h decoder (hsame.symm.trans hdecoder)
      · cases hnone.symm.trans hdecoder

/-! ## What a step brings -/

/-- What steps of a connection bring to those who use it. -/
@[ext]
structure Yield where
  /-- Requests for the handler, in order. -/
  inbound : List Service
  /-- Slots of calls, each with the outcome that it has received. -/
  given : Set Slot
  /-- How calls have begun, in order. -/
  starts : List CallStart

namespace Yield

/-- What a step brings that brings nothing. -/
def nothing : Yield := ⟨[], ∅, []⟩

instance : Append Yield where
  append first more :=
    ⟨first.inbound ++ more.inbound, first.given ∪ more.given, first.starts ++ more.starts⟩

@[simp] theorem append_nothing (yield : Yield) : yield ++ nothing = yield := by
  apply Yield.ext
  · exact List.append_nil _
  · exact Set.union_empty _
  · exact List.append_nil _

theorem append_assoc (first more last : Yield) :
    first ++ more ++ last = first ++ (more ++ last) := by
  apply Yield.ext
  · exact List.append_assoc _ _ _
  · exact Set.union_assoc _ _ _
  · exact List.append_assoc _ _ _

end Yield

/-- How a call begins with a step. -/
def startsBy (conn : Connection) : Step → List CallStart
  | .request cluster payload timeout now => [(conn.request cluster payload timeout now).1]
  | _ => []

/-- What a step brings: the services and the outcomes in slots that are there behind it and were not
there before, and the start of a call. -/
def yield (conn : Connection) (step : Step) : Yield where
  inbound := (conn.perform step).services.drop conn.services.length
  given := {slot | slot ∈ PendingTable.received conn.pending (conn.perform step).pending}
  starts := conn.startsBy step

/-- A step brings nothing that leaves services and table alone, and is no call. -/
theorem yield_eq_nothing {conn : Connection} {step : Step}
    (hservices : (conn.perform step).services = conn.services)
    (hgiven : PendingTable.received conn.pending (conn.perform step).pending = [])
    (hstarts : conn.startsBy step = []) : conn.yield step = .nothing := by
  apply Yield.ext
  · show (conn.perform step).services.drop conn.services.length = []
    rw [hservices, List.drop_length]
  · show {slot | slot ∈ PendingTable.received conn.pending (conn.perform step).pending} = ∅
    simp [hgiven]
  · exact hstarts

theorem yield_of_eq {conn : Connection} {step : Step} (h : conn.perform step = conn)
    (hstarts : conn.startsBy step = []) : conn.yield step = .nothing :=
  yield_eq_nothing (by rw [h]) (by rw [h, PendingTable.received_self]) hstarts

/-- What numbers are settled with by messages, and by the end of the reader if there is a reason. -/
def settlingOn (messages : List Message) (reason : Option ClientError) (id : RequestId) :
    Option SlotState :=
  (settling messages id).or (reason.map fun _ => .resolved .closed)

theorem settlingOn_ne_waiting (messages : List Message) (reason : Option ClientError)
    (id : RequestId) : settlingOn messages reason id ≠ some .waiting := by
  unfold settlingOn
  cases hsettling : settling messages id with
  | none => cases reason <;> simp
  | some state =>
      rintro hwaiting
      exact settling_ne_waiting messages id (hsettling.trans hwaiting)

/-- What a reader learns settles the numbers of calls. -/
theorem pending_endOn {conn : Connection} (h : conn.pending.Matched) (messages : List Message)
    (reason : Option ClientError) :
    ((conn.hear messages).endOn reason).pending =
      { conn.pending.settleBy (settlingOn messages reason) with
        closed := conn.pending.closed || reason.isSome } := by
  cases reason with
  | none =>
      have hsettling : settlingOn messages none = settling messages := by
        funext id
        simp [settlingOn]
      rw [hsettling, Option.isSome_none, Bool.or_false]
      rfl
  | some reason =>
      have hdesk :=
        congrArg Desk.pending (desk_tearDown { conn.hear messages with reader := none } reason)
      have hcancel := (matched_hear h messages).cancelAll_eq .closed
      rw [Option.isSome_some, Bool.or_true]
      refine hdesk.trans (hcancel.trans ?_)
      show { (conn.pending.settleBy (settling messages)).settleBy _ with closed := true } = _
      rw [PendingTable.settleBy_settleBy _ (settling_ne_waiting messages)]
      rfl

/-- The requests that a reader learns of become services. -/
theorem services_endOn (conn : Connection) (messages : List Message) (reason : Option ClientError) :
    ((conn.hear messages).endOn reason).services =
      conn.services ++ servicesFrom conn.nextService (messages.filterMap Message.asked?) := by
  cases reason with
  | none => rfl
  | some reason => exact (wanes_endReader (conn.hear messages) reason).services

/-- What a reader brings that learns of messages, and of a reason to end if there is one: services
for the requests, and for each number that waits what it is settled with. -/
def learning (conn : Connection) (messages : List Message) (reason : Option ClientError) :
    Yield where
  inbound := servicesFrom conn.nextService (messages.filterMap Message.asked?)
  given := {slot | ∃ entry ∈ conn.pending.entries, ∃ outcome,
    settlingOn messages reason entry.1 = some (.resolved outcome) ∧
      slot = ⟨entry.2, entry.1, .resolved outcome⟩}
  starts := []

/-- Settling gives outcomes to the slots of the entries whose numbers it has outcomes for. -/
theorem mem_received_entries {table : PendingTable} (h : table.Matched)
    {f : RequestId → Option SlotState} {slot : Slot} :
    slot ∈ PendingTable.received table (table.settleBy f) ↔
      ∃ entry ∈ table.entries, ∃ outcome, f entry.1 = some (.resolved outcome) ∧
        slot = ⟨entry.2, entry.1, .resolved outcome⟩ := by
  rw [h.mem_received_settleBy]
  constructor
  · rintro ⟨old, hold, hstate, outcome, houtcome, rfl⟩
    exact ⟨(old.id, old.key), h.waits old hold hstate, outcome, houtcome, rfl⟩
  · rintro ⟨entry, hentry, outcome, houtcome, rfl⟩
    obtain ⟨old, hold, hident, hstate⟩ := h.owned entry hentry
    obtain ⟨hkey, hid⟩ := Prod.mk.inj hident
    refine ⟨old, hold, hstate, outcome, ?_, ?_⟩
    · rwa [hid]
    · rw [← hkey, ← hid]

theorem yield_of_learning {conn : Connection} (h : conn.pending.Matched) {step : Step}
    {reader : Option Decoder} {messages : List Message} {reason : Option ClientError}
    (hafter : conn.perform step = ({ conn with reader }.hear messages).endOn reason)
    (hstarts : conn.startsBy step = []) : conn.yield step = conn.learning messages reason := by
  have hread : ({ conn with reader } : Connection).pending.Matched := h
  apply Yield.ext
  · show (conn.perform step).services.drop conn.services.length = _
    rw [hafter, services_endOn, List.drop_left]
    rfl
  · ext slot
    show slot ∈ PendingTable.received conn.pending (conn.perform step).pending ↔ _
    rw [hafter, pending_endOn hread]
    exact mem_received_entries h
  · exact hstarts

theorem yield_receive {conn : Connection} (h : conn.pending.Matched) {decoder : Decoder}
    (hreader : conn.reader = some decoder) (data : ByteArray) :
    conn.yield (.receive data) =
      conn.learning (heard (decoder.extend data).drain.1)
        (reasonIn (decoder.extend data).drain.1) :=
  yield_of_learning h (receive_eq_hear h hreader data) rfl

/-- What a slot has received stays in it while the reader goes on. -/
theorem mem_slots_receive {conn : Connection} (h : conn.pending.Matched) (data : ByteArray)
    {slot : Slot} (hslot : slot ∈ conn.pending.slots) (hresolved : slot.state.isResolved = true) :
    slot ∈ (conn.receive data).pending.slots := by
  cases hreader : conn.reader with
  | none =>
      rw [receive_of_none hreader]
      exact hslot
  | some decoder =>
      have hread : ({ conn with reader := some (decoder.extend data).drain.2 } :
          Connection).pending.Matched := h
      have hwaiting : slot.state ≠ .waiting := by
        rintro hwaiting
        rw [hwaiting] at hresolved
        cases hresolved
      rw [receive_eq_hear h hreader, pending_endOn hread]
      exact List.mem_map.2 ⟨slot, hslot, Slot.settledBy_of_state hwaiting⟩

theorem prefix_services_receive {conn : Connection} (h : conn.pending.Matched) (data : ByteArray) :
    ∃ services, (conn.receive data).services = conn.services ++ services := by
  cases hreader : conn.reader with
  | none =>
      rw [receive_of_none hreader]
      exact ⟨[], (List.append_nil _).symm⟩
  | some decoder =>
      rw [receive_eq_hear h hreader, services_endOn]
      exact ⟨_, rfl⟩

theorem matched_receive {conn : Connection} (h : conn.pending.Matched) (data : ByteArray) :
    (conn.receive data).pending.Matched := by
  cases hreader : conn.reader with
  | none =>
      rw [receive_of_none hreader]
      exact h
  | some decoder =>
      have hread : ({ conn with reader := some (decoder.extend data).drain.2 } :
          Connection).pending.Matched := h
      have hsettled := h.settleBy (settlingOn_ne_waiting (heard (decoder.extend data).drain.1)
        (reasonIn (decoder.extend data).drain.1))
      rw [receive_eq_hear h hreader, pending_endOn hread]
      refine { hsettled with sound := { hsettled.sound with }, shut := ?_ }
      intro hclosed
      rcases Bool.or_eq_true _ _ ▸ hclosed with hbefore | hends
      · exact hsettled.shut hbefore
      · -- A reader that ends settles every number.
        obtain ⟨reason, hreason⟩ := Option.isSome_iff_exists.1 hends
        apply List.filter_eq_nil_iff.2
        rintro entry -
        simp [settlingOn, hreason]

/-- Portions bring one after the other what they bring together. -/
theorem yield_receive_receive {conn : Connection} (h : conn.pending.Matched)
    (data more : ByteArray) :
    conn.yield (.receive data) ++ (conn.receive data).yield (.receive more) =
      conn.yield (.receive (data ++ more)) := by
  have hmore : ∀ slot ∈ (conn.receive data).pending.slots, slot.state.isResolved = true →
      slot ∈ (conn.receive (data ++ more)).pending.slots := by
    intro slot hslot hresolved
    rw [← receive_receive h]
    exact mem_slots_receive (matched_receive h data) more hslot hresolved
  obtain ⟨services, hservices⟩ := prefix_services_receive h data
  obtain ⟨others, hothers⟩ := prefix_services_receive (matched_receive h data) more
  rw [receive_receive h] at hothers
  apply Yield.ext
  · show (conn.receive data).services.drop conn.services.length ++
      ((conn.receive data).receive more).services.drop (conn.receive data).services.length =
        (conn.receive (data ++ more)).services.drop conn.services.length
    rw [receive_receive h, hothers, List.drop_left, hservices, List.drop_left, List.append_assoc,
      List.drop_left]
  · ext slot
    show slot ∈ PendingTable.received conn.pending (conn.receive data).pending ∨
      slot ∈ PendingTable.received (conn.receive data).pending
        ((conn.receive data).receive more).pending ↔
      slot ∈ PendingTable.received conn.pending (conn.receive (data ++ more)).pending
    rw [receive_receive h]
    simp only [PendingTable.mem_received]
    constructor
    · rintro (⟨hslot, hresolved, hnew⟩ | ⟨hslot, hresolved, hnew⟩)
      · exact ⟨hmore slot hslot hresolved, hresolved, hnew⟩
      · exact ⟨hslot, hresolved, fun hold => hnew (mem_slots_receive h data hold hresolved)⟩
    · rintro ⟨hslot, hresolved, hnew⟩
      by_cases hfirst : slot ∈ (conn.receive data).pending.slots
      · exact Or.inl ⟨hfirst, hresolved, hnew⟩
      · exact Or.inr ⟨hslot, hresolved, hfirst⟩
  · rfl

/-- A reader that goes on has left what has not been read out. -/
theorem standing_of_receive {conn : Connection} (h : conn.pending.Matched) {decoder left : Decoder}
    {data : ByteArray} (hreader : conn.reader = some decoder)
    (hleft : (conn.receive data).reader = some left) :
    (decoder.extend data).readOut.standing = .ok left.buffer := by
  rw [receive_eq_hear h hreader] at hleft
  obtain ⟨houtcomes, hstays⟩ := (decoder.extend data).drain_eq_readOut
  rcases (decoder.extend data).drain_extend ByteArray.empty with
    ⟨taken, htaken, -⟩ | ⟨taken, fault, htaken, hfault, -⟩
  · cases hstanding : (decoder.extend data).readOut.standing with
    | ok rest =>
        rw [hstays rest hstanding, htaken, reasonIn_needMore] at hleft
        cases hreason : reasonIn taken with
        | some reason =>
            rw [hreason] at hleft
            cases (reader_endReader _ reason).symm.trans hleft
        | none =>
            rw [hreason] at hleft
            cases hleft
            rfl
    | error fault =>
        -- The decoder says that it needs more bytes, and the reading that it is out of step.
        rw [htaken, Reading.outcomes, hstanding] at houtcomes
        have hlast := (List.append_inj' houtcomes rfl).2
        cases hlast
  · obtain ⟨reason, hreason⟩ := exists_reasonIn taken hfault
    rw [htaken, hreason] at hleft
    cases (reader_endReader _ reason).symm.trans hleft

/-! ## Frames that are of no use -/

/-- Whether bytes are one frame that no reader makes anything of: a frame that cannot be read but is
as long as it says, or a message that belongs to the opening of a session. -/
def IsNoise (noise : ByteArray) : Prop :=
  ∃ result, Message.decode noise = .taken result ByteArray.empty ∧
    ∀ message, result = .ok message →
      message.envelope.kind = .hello ∨ message.envelope.kind = .welcome

/-- A piece of a stream that brings no message is noise: its checksum is wrong, or its header is not
an envelope. -/
theorem isNoise_of_useless {piece : Piece} (h : piece.message? = none) : IsNoise piece.bytes := by
  have hdecode := piece.decode_bytes ByteArray.empty
  rw [ByteArray.append_empty] at hdecode
  refine ⟨piece.result, hdecode, ?_⟩
  intro message hresult
  cases piece with
  | good message bytes hencode => cases h
  | foreign frame stored hsound hstored hheader => cases hresult
  | damaged frame hsound hflag damage => cases hresult

/-- A message of an opening is noise on a connection. -/
theorem isNoise_of_encode {message : Message} {bytes : ByteArray} (h : message.encode = .ok bytes)
    (hkind : message.envelope.kind = .hello ∨ message.envelope.kind = .welcome) :
    IsNoise bytes := by
  have hdecode := (Piece.good message bytes h).decode_bytes ByteArray.empty
  rw [ByteArray.append_empty] at hdecode
  refine ⟨.ok message, hdecode, ?_⟩
  rintro other hsame
  cases hsame
  exact hkind

/-- A reader that has nothing left passes noise over. -/
theorem receive_noise {conn : Connection} {noise : ByteArray} (hnoise : IsNoise noise)
    (hreader : conn.reader = none ∨ conn.reader = some ⟨ByteArray.empty⟩) :
    conn.receive noise = conn := by
  obtain ⟨result, hdecode, hopening⟩ := hnoise
  rcases hreader with hnone | hreader
  · exact receive_of_none hnone noise
  · have hextend : Decoder.extend ⟨ByteArray.empty⟩ noise = ⟨noise⟩ := by
      simp only [Decoder.extend, ByteArray.empty_append]
    have hbehind : (Decoder.mk ByteArray.empty).drain = ([.needMore], ⟨ByteArray.empty⟩) :=
      Decoder.drain_of_needMore Message.decode_empty
    rw [receive_eq hreader, hextend, Decoder.drain_eq, hdecode]
    cases result with
    | error fault =>
        have hfault := Message.isRecoverable_of_taken hdecode
        simp only [hbehind, Decoder.Outcome.ofResult, dispatchAll, hfault, if_true]
        rw [← hreader]
    | ok message =>
        have hdispatch : ∀ conn : Connection, conn.dispatch message = (none, conn) := by
          intro conn
          rcases hopening message rfl with hkind | hkind
          all_goals
            unfold dispatch
            cases henvelope : message.envelope <;> rw [henvelope] at hkind <;> cases hkind
        simp only [hbehind, Decoder.Outcome.ofResult, dispatchAll, hdispatch]
        rw [← hreader]

end Connection

end Switchboard
