import Switchboard.Proofs.Connection.Steps

/-!
# Runs of a connection

A run is any sequence of steps of a connection: bytes come and go in any portions, calls begin, are
looked after and given up, handlers come to their ends in any order, and the connection may break or
be closed at any point. Along a run names stay apart, and every slot is the slot of one call
(`sound_perform`).
-/

namespace Switchboard

namespace Connection

/-- One step of a connection. -/
inductive Step where
  | receive (data : ByteArray)
  | receiveEnd
  | write (room : Nat)
  | request (cluster : String) (payload : ByteArray) (timeout : Duration) (now : Instant)
  | poll (key : CallKey) (now : Instant)
  | act (act : Act)

/-- The connection behind a step. -/
def perform (conn : Connection) : Step → Connection
  | .receive data => conn.receive data
  | .receiveEnd => conn.receiveEnd
  | .write room => (conn.write room).2
  | .request cluster payload timeout now => (conn.request cluster payload timeout now).2
  | .poll key now => (conn.pollBy key now).2
  | .act act => conn.act act

/-- The connection behind a run. -/
def run (conn : Connection) (steps : List Step) : Connection := steps.foldl perform conn

/-! ## What the steps do -/

/-- The services that begin when the reader receives bytes. -/
def arrivals (conn : Connection) (data : ByteArray) : List Service :=
  match conn.reader with
  | none => []
  | some decoder =>
      servicesFrom conn.nextService
        ((heard (decoder.extend data).drain.1).filterMap Message.asked?)

/-- A reader that receives bytes deals with all that it can take off them. -/
theorem receive_eq {conn : Connection} {decoder : Decoder} (hreader : conn.reader = some decoder)
    (data : ByteArray) :
    conn.receive data =
      { conn with reader := some (decoder.extend data).drain.2 }.dispatchAll
        (decoder.extend data).drain.1 := by
  unfold receive
  rw [hreader]

theorem receive_of_none {conn : Connection} (hreader : conn.reader = none) (data : ByteArray) :
    conn.receive data = conn := by
  unfold receive
  rw [hreader]

/-- A handler that is done leaves its service, and its answer comes last, if it fits into a
frame. -/
theorem complete_eq (conn : Connection) (service : Service) (result : HandlerResult) :
    conn.complete service result =
      { conn with
        services := conn.services.filter fun other => other.key ≠ service.key
        queue :=
          if (result.toMessage service.id).Fits then
            conn.queue.push ⟨none, (result.toMessage service.id).bytes⟩
          else conn.queue } := by
  unfold complete
  by_cases hfits : (result.toMessage service.id).Fits
  · rw [if_pos hfits, Message.encode_of_fits hfits]
  · obtain ⟨fault, hfault⟩ := Message.encode_of_not_fits hfits
    rw [if_neg hfits, hfault]

/-- What becomes of a connection whose writer may take an item. -/
inductive TakeEffect (conn : Connection) : Connection → Prop
  /-- The writer does not wait, or there is nothing for it. -/
  | idle (hidle : conn.writer ≠ .idle ∨ conn.queue.pop = none) : TakeEffect conn conn
  | frame (bytes : ByteArray) (queue : WriteQueue) (hwriter : conn.writer = .idle)
      (hpop : conn.queue.pop = some (.frame bytes, queue)) :
      TakeEffect conn { conn with queue, writer := .writing bytes 0 }
  | farewell (bytes : ByteArray) (queue : WriteQueue) (hwriter : conn.writer = .idle)
      (hpop : conn.queue.pop = some (.shutdown (some bytes), queue)) :
      TakeEffect conn { conn with queue, writer := .parting bytes 0 }
  | ended (queue : WriteQueue) (hwriter : conn.writer = .idle)
      (hpop : conn.queue.pop = some (.shutdown none, queue)) :
      TakeEffect conn ({ conn with queue }.endWriter)

theorem takeItem_effect (conn : Connection) : TakeEffect conn conn.takeItem := by
  unfold takeItem
  split
  · rename_i bytes queue hwriter hpop
    exact .frame bytes queue hwriter hpop
  · rename_i bytes queue hwriter hpop
    exact .farewell bytes queue hwriter hpop
  · rename_i queue hwriter hpop
    exact .ended queue hwriter hpop
  · rename_i hframe hfarewell hended
    refine .idle ?_
    by_cases hwriter : conn.writer = .idle
    · right
      cases hpop : conn.queue.pop with
      | none => rfl
      | some found =>
          obtain ⟨item, queue⟩ := found
          cases item with
          | frame bytes => exact (hframe bytes queue hwriter hpop).elim
          | shutdown farewell =>
              cases farewell with
              | none => exact (hended queue hwriter hpop).elim
              | some bytes => exact (hfarewell bytes queue hwriter hpop).elim
    · exact Or.inl hwriter

/-- When the writer gives bytes to the transport, nothing else changes, unless it has written its
last frame. -/
theorem write_effect (conn : Connection) (room : Nat) :
    (∃ writer, (conn.write room).2 = { conn with writer }) ∨
      (conn.write room).2 = conn.endWriter := by
  unfold write
  cases hwriter : conn.writer with
  | idle => exact Or.inl ⟨conn.writer, rfl⟩
  | writing frame written => exact Or.inl ⟨_, rfl⟩
  | parting frame written =>
      simp only
      by_cases hend : min frame.size (written + room) = frame.size
      · rw [if_pos hend]
        exact Or.inr rfl
      · rw [if_neg hend]
        exact Or.inl ⟨_, rfl⟩
  | ended => exact Or.inl ⟨conn.writer, rfl⟩

/-! ## Names stay apart -/

/-- Calls, slots and services have names of their own, a call holds the slot of its number, and
nobody waits in line while there is room. -/
structure Sound (conn : Connection) : Prop where
  turn : conn.queue.InTurn
  pending : conn.pending.Sound
  callKeys : ∀ call ∈ conn.calls, call.key < conn.nextCall
  callsDistinct : (conn.calls.map Call.key).Nodup
  callSlots : ∀ call ∈ conn.calls, call.slot < conn.pending.nextKey ∧
    ∀ slot ∈ conn.pending.slots, slot.key = call.slot → slot.id = call.id
  serviceKeys : ∀ service ∈ conn.services, service.key < conn.nextService
  servicesDistinct : (conn.services.map Service.key).Nodup

theorem sound_new (options : ConnectionOptions) (cluster connectionId : String)
    (decoder : Decoder) :
    (new options cluster connectionId decoder).Sound where
  turn := fun _ => rfl
  pending := PendingTable.sound_new
  callKeys := fun _ h => nomatch h
  callsDistinct := List.nodup_nil
  callSlots := fun _ h => nomatch h
  serviceKeys := fun _ h => nomatch h
  servicesDistinct := List.nodup_nil

namespace Sound

variable {conn : Connection} (h : conn.Sound)

include h

theorem of_wanes {after : Connection} (hwanes : Wanes conn after) : after.Sound where
  turn := hwanes.queue.inTurn h.turn
  pending := hwanes.pending.sound h.pending
  callKeys := by
    intro call hcall
    rw [hwanes.nextCall]
    exact h.callKeys call (hwanes.calls.subset hcall)
  callsDistinct := h.callsDistinct.sublist (hwanes.calls.map Call.key)
  callSlots := by
    intro call hcall
    obtain ⟨hkey, hslots⟩ := h.callSlots call (hwanes.calls.subset hcall)
    refine ⟨hwanes.pending.nextKey ▸ hkey, ?_⟩
    intro slot hslot hname
    obtain ⟨old, hold, hkey', hid⟩ := hwanes.pending.exists_slot hslot
    rw [← hid]
    exact hslots old hold (hkey'.trans hname)
  serviceKeys := by
    rw [hwanes.services, hwanes.nextService]
    exact h.serviceKeys
  servicesDistinct := by
    rw [hwanes.services]
    exact h.servicesDistinct

/-- Services that begin are given new names. -/
theorem withServices {replied : RequestId → ByteArray → Prop} {pending : PendingTable}
    (hevolves : PendingTable.Evolves replied conn.pending pending)
    (requests : List (RequestId × ByteArray)) : (conn.withServices requests pending).Sound where
  turn := h.turn
  pending := hevolves.sound h.pending
  callKeys := h.callKeys
  callsDistinct := h.callsDistinct
  callSlots := by
    intro call hcall
    obtain ⟨hkey, hslots⟩ := h.callSlots call hcall
    refine ⟨hevolves.nextKey ▸ hkey, ?_⟩
    intro slot hslot hname
    obtain ⟨old, hold, hkey', hid⟩ := hevolves.exists_slot hslot
    rw [← hid]
    exact hslots old hold (hkey'.trans hname)
  serviceKeys := key_lt_of_mem_append_servicesFrom h.serviceKeys requests
  servicesDistinct := nodup_key_append_servicesFrom h.serviceKeys requests h.servicesDistinct

/-- A step that changes nothing but the writer, the reader, or what waits for the writer in turn. -/
theorem of_queue (queue : WriteQueue) (hturn : queue.InTurn) (writer : Writer)
    (reader : Option Decoder) : Sound { conn with queue, writer, reader } :=
  { h with turn := hturn }

theorem receive (data : ByteArray) : (conn.receive data).Sound := by
  cases hreader : conn.reader with
  | none =>
      rw [receive_of_none hreader]
      exact h
  | some decoder =>
      rw [receive_eq hreader]
      have hread : Sound { conn with reader := some (decoder.extend data).drain.2 } :=
        h.of_queue conn.queue h.turn conn.writer _
      obtain ⟨pending, hevolves, hwanes⟩ :=
        dispatchAll_effect _ hread.pending (decoder.extend data).drain.1
      exact (hread.withServices hevolves _).of_wanes hwanes

theorem request (cluster : String) (payload : ByteArray) (timeout : Duration) (now : Instant) :
    (conn.request cluster payload timeout now).2.Sound := by
  have hregistered : ∀ {slot : SlotKey} {pending : PendingTable},
      conn.pending.register ⟨conn.ids.next⟩ = (.ok slot, pending) →
        Sound { conn with ids := ⟨conn.ids.next + 1⟩, pending } := by
    intro slot pending hregister
    obtain ⟨-, hnext, -, hslots⟩ := PendingTable.register_eq_ok hregister
    refine { h with pending := PendingTable.sound_register h.pending hregister, callSlots := ?_ }
    intro call hcall
    obtain ⟨hkey, hfound⟩ := h.callSlots call hcall
    refine ⟨hnext ▸ Nat.lt_succ_of_lt hkey, ?_⟩
    intro other hother hname
    rw [hslots, List.mem_append, List.mem_singleton] at hother
    rcases hother with hother | rfl
    · exact hfound other hother hname
    · exact absurd hname (Nat.ne_of_gt hkey)
  have heffect := request_effect conn cluster payload timeout now
  generalize (conn.request cluster payload timeout now).1 = start at heffect
  generalize (conn.request cluster payload timeout now).2 = after at heffect ⊢
  cases heffect with
  | declined error => exact h
  | exhausted hid => exact { h with }
  | unregistered error hid => exact { h with }
  | unwritten slot pending fault hid hregister =>
      -- The request does not fit into a frame, and its slot is dropped again.
      have hevolves : PendingTable.Evolves (fun _ _ => False) pending (pending.drop slot) :=
        PendingTable.evolves_drop pending slot
      exact (hregistered hregister).of_wanes { Wanes.refl _ with pending := hevolves }
  | started slot pending hid hregister hfits =>
      have hsound := hregistered hregister
      obtain ⟨hslot, hnext, -, hslots⟩ := PendingTable.register_eq_ok hregister
      refine { hsound with
        turn := WriteQueue.inTurn_push h.turn _, callKeys := ?_, callsDistinct := ?_,
          callSlots := ?_ }
      · exact fun call hcall => Lookup.lt_succ_of_mem_snoc h.callKeys rfl hcall
      · exact Lookup.nodup_snoc h.callsDistinct fun call hcall =>
          Nat.ne_of_lt (h.callKeys call hcall)
      · intro call hcall
        rcases List.mem_append.1 hcall with hold | hnew
        · exact hsound.callSlots call hold
        · rw [List.mem_singleton.1 hnew]
          refine ⟨hslot ▸ hnext ▸ Nat.lt_succ_self _, ?_⟩
          intro other hother hname
          rw [hslots, List.mem_append, List.mem_singleton] at hother
          rcases hother with hother | rfl
          · exact absurd (hname.trans hslot) (Nat.ne_of_lt (h.pending.keys other hother))
          · rfl

theorem complete (service : Service) (result : HandlerResult) :
    (conn.complete service result).Sound := by
  rw [complete_eq]
  refine { h with turn := ?_, serviceKeys := ?_, servicesDistinct := ?_ }
  · show WriteQueue.InTurn (if _ then _ else _)
    split
    · exact WriteQueue.inTurn_push h.turn _
    · exact h.turn
  · intro other hother
    exact h.serviceKeys other (List.mem_of_mem_filter hother)
  · exact h.servicesDistinct.sublist (List.filter_sublist.map Service.key)

theorem takeItem : conn.takeItem.Sound := by
  have heffect := takeItem_effect conn
  generalize conn.takeItem = after at heffect ⊢
  cases heffect with
  | idle hidle => exact h
  | frame bytes queue hwriter hpop =>
      exact h.of_queue queue (WriteQueue.inTurn_of_pop h.turn hpop) _ conn.reader
  | farewell bytes queue hwriter hpop =>
      exact h.of_queue queue (WriteQueue.inTurn_of_pop h.turn hpop) _ conn.reader
  | ended queue hwriter hpop =>
      have hqueue := h.of_queue queue (WriteQueue.inTurn_of_pop h.turn hpop) conn.writer conn.reader
      exact hqueue.of_wanes (wanes_endWriter _)

theorem write (room : Nat) : (conn.write room).2.Sound := by
  rcases write_effect conn room with ⟨writer, hafter⟩ | hafter
  · rw [hafter]
    exact h.of_queue conn.queue h.turn writer conn.reader
  · rw [hafter]
    exact h.of_wanes (wanes_endWriter conn)

theorem close : conn.close.2.Sound := by
  obtain ⟨middle, hwanes, hafter⟩ := close_effect conn
  have hmiddle := h.of_wanes hwanes
  rcases hafter with hafter | hafter
  · rw [hafter]
    exact hmiddle
  · rw [hafter]
    exact hmiddle.of_queue _ (WriteQueue.inTurn_offer hmiddle.turn _) _ _

theorem act (act : Act) : (conn.act act).Sound := by
  cases act with
  | abandon key => exact h.of_wanes (wanes_abandon conn key)
  | complete key result =>
      show (conn.completeBy key result).Sound
      cases hservice : conn.service? key with
      | some service =>
          rw [completeBy_of_some hservice]
          exact h.complete service result
      | none =>
          rw [completeBy_of_none hservice]
          exact h
  | takeItem => exact h.takeItem
  | writeFault fault => exact h.of_wanes (wanes_writeFault conn fault)
  | receiveFault fault => exact h.of_wanes (wanes_receiveFault conn fault)
  | close => exact h.close
  | endWriter => exact h.of_wanes (wanes_endWriter conn)
  | drop => exact h.of_wanes (wanes_drop conn)

end Sound

theorem sound_perform {conn : Connection} (h : conn.Sound) (step : Step) :
    (conn.perform step).Sound := by
  cases step with
  | receive data => exact h.receive data
  | receiveEnd => exact h.of_wanes (wanes_receiveEnd conn)
  | write room => exact h.write room
  | request cluster payload timeout now => exact h.request cluster payload timeout now
  | poll key now => exact h.of_wanes (wanes_pollBy conn key now)
  | act act => exact h.act act

/-! ## Numbers of requests -/

theorem ids_receive {conn : Connection} (h : conn.Sound) (data : ByteArray) :
    (conn.receive data).ids = conn.ids := by
  cases hreader : conn.reader with
  | none => rw [receive_of_none hreader]
  | some decoder =>
      rw [receive_eq hreader]
      obtain ⟨pending, -, hwanes⟩ := dispatchAll_effect
        { conn with reader := some (decoder.extend data).drain.2 } h.pending
        (decoder.extend data).drain.1
      exact hwanes.ids

theorem ids_write (conn : Connection) (room : Nat) : (conn.write room).2.ids = conn.ids := by
  rcases write_effect conn room with ⟨writer, h⟩ | h
  · rw [h]
  · rw [h]
    rfl

theorem ids_takeItem (conn : Connection) : conn.takeItem.ids = conn.ids := by
  have heffect := takeItem_effect conn
  generalize conn.takeItem = after at heffect ⊢
  cases heffect <;> rfl

theorem ids_close (conn : Connection) : conn.close.2.ids = conn.ids := by
  obtain ⟨middle, hwanes, h | h⟩ := close_effect conn
  · rw [h]
    exact hwanes.ids
  · rw [h]
    exact hwanes.ids

/-- Nobody but a caller that begins a call draws a number. -/
theorem ids_act (conn : Connection) (act : Act) : (conn.act act).ids = conn.ids := by
  cases act with
  | abandon key => exact (wanes_abandon conn key).ids
  | complete key result =>
      show (conn.completeBy key result).ids = conn.ids
      cases hservice : conn.service? key with
      | some service => rw [completeBy_of_some hservice, complete_eq]
      | none => rw [completeBy_of_none hservice]
  | takeItem => exact ids_takeItem conn
  | writeFault fault => exact (wanes_writeFault conn fault).ids
  | receiveFault fault => exact (wanes_receiveFault conn fault).ids
  | close => exact ids_close conn
  | endWriter => exact (wanes_endWriter conn).ids
  | drop => exact (wanes_drop conn).ids

/-- A call that begins draws one number at most. -/
theorem ids_request (conn : Connection) (cluster : String) (payload : ByteArray)
    (timeout : Duration)
    (now : Instant) :
    (conn.request cluster payload timeout now).2.ids.next = conn.ids.next ∨
      (conn.request cluster payload timeout now).2.ids.next = conn.ids.next + 1 := by
  have heffect := request_effect conn cluster payload timeout now
  generalize (conn.request cluster payload timeout now).1 = start at heffect
  generalize (conn.request cluster payload timeout now).2 = after at heffect ⊢
  cases heffect with
  | declined error => exact Or.inl rfl
  | exhausted hid => exact Or.inr rfl
  | unregistered error hid => exact Or.inr rfl
  | unwritten slot pending fault hid hregister => exact Or.inr rfl
  | started slot pending hid hregister hfits => exact Or.inr rfl

end Connection

end Switchboard
