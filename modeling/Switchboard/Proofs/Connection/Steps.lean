import Switchboard.Client.Connection
import Switchboard.Proofs.Connection.Pending
import Switchboard.Proofs.Connection.Queue
import Switchboard.Proofs.Lookup
import Switchboard.Proofs.Streams

/-!
# Steps of a connection

What a step of a connection can do is said once for each kind of step. Those who leave, and those
who end the connection or a part of it, bring nothing new (`Wanes`). A call that begins has one of
five effects (`RequestEffect`). What the reader has taken off the stream becomes services and
replies, and may end the reader (`dispatchAll_effect`).
-/

namespace Switchboard

/-- The number and the payload of a request. -/
def Message.asked? (message : Message) : Option (RequestId × ByteArray) :=
  match message.envelope with
  | .request id _ _ => some (id, message.payload)
  | _ => none

namespace Connection

/-- What handlers, callers, writer and owner of a connection do in their own time. -/
inductive Act where
  | abandon (key : CallKey)
  | complete (key : Nat) (result : HandlerResult)
  | takeItem
  | writeFault (fault : TransportFault)
  | receiveFault (fault : TransportFault)
  | close
  | endWriter
  | drop

/-- The service of the given name, while it is in progress. -/
def service? (conn : Connection) (key : Nat) : Option Service :=
  conn.services.find? fun service => service.key = key

/-- The handler of the service of the given name is done. -/
def completeBy (conn : Connection) (key : Nat) (result : HandlerResult) : Connection :=
  ((conn.service? key).map fun service => conn.complete service result).getD conn

theorem completeBy_of_some {conn : Connection} {key : Nat} {service : Service}
    (h : conn.service? key = some service) (result : HandlerResult) :
    conn.completeBy key result = conn.complete service result := by
  rw [completeBy, h]
  rfl

theorem completeBy_of_none {conn : Connection} {key : Nat} (h : conn.service? key = none)
    (result : HandlerResult) : conn.completeBy key result = conn := by
  rw [completeBy, h]
  rfl

/-- The caller of the given name looks after its call. Returns its result, if it has ended. -/
def pollBy (conn : Connection) (key : CallKey) (now : Instant) :
    Option (Except ClientError ByteArray) × Connection :=
  ((conn.call? key).map fun call => conn.poll call now).getD (none, conn)

theorem pollBy_of_some {conn : Connection} {key : CallKey} {call : Call}
    (h : conn.call? key = some call) (now : Instant) :
    conn.pollBy key now = conn.poll call now := by
  rw [pollBy, h]
  rfl

theorem pollBy_of_none {conn : Connection} {key : CallKey} (h : conn.call? key = none)
    (now : Instant) : conn.pollBy key now = (none, conn) := by
  rw [pollBy, h]
  rfl

/-- The connection behind an act. -/
def act (conn : Connection) : Act → Connection
  | .abandon key => conn.abandon key
  | .complete key result => conn.completeBy key result
  | .takeItem => conn.takeItem
  | .writeFault fault => conn.writeFault fault
  | .receiveFault fault => conn.receiveFault fault
  | .close => conn.close.2
  | .endWriter => conn.endWriter
  | .drop => conn.drop

/-! ## Steps that bring nothing new -/

/-- A connection behind steps of those who leave or end. -/
structure Wanes (before after : Connection) : Prop where
  ids : after.ids = before.ids
  nextCall : after.nextCall = before.nextCall
  nextService : after.nextService = before.nextService
  services : after.services = before.services
  calls : after.calls.Sublist before.calls
  queue : before.queue.Thins after.queue
  pending : PendingTable.Evolves (fun _ _ => False) before.pending after.pending
  writer : after.writer = before.writer ∨ after.writer = .ended
  reader : after.reader = before.reader ∨ after.reader = none

namespace Wanes

theorem refl (conn : Connection) : Wanes conn conn where
  ids := rfl
  nextCall := rfl
  nextService := rfl
  services := rfl
  calls := List.Sublist.refl _
  queue := .refl
  pending := .refl _
  writer := Or.inl rfl
  reader := Or.inl rfl

theorem trans {a b c : Connection} (hab : Wanes a b) (hbc : Wanes b c) : Wanes a c where
  ids := hbc.ids.trans hab.ids
  nextCall := hbc.nextCall.trans hab.nextCall
  nextService := hbc.nextService.trans hab.nextService
  services := hbc.services.trans hab.services
  calls := hbc.calls.trans hab.calls
  queue := hab.queue.trans hbc.queue
  pending := hab.pending.trans hbc.pending
  writer := by
    rcases hbc.writer with h | h
    · rw [h]
      exact hab.writer
    · exact Or.inr h
  reader := by
    rcases hbc.reader with h | h
    · rw [h]
      exact hab.reader
    · exact Or.inr h

end Wanes

section Wanes

variable (conn : Connection)

theorem wanes_cutOff : Wanes conn conn.cutOff :=
  { Wanes.refl conn with
    pending := PendingTable.evolves_cancelAll conn.pending fun _ h => nomatch h }

theorem wanes_tearDown (reason : ClientError) : Wanes conn (conn.tearDown reason) := by
  unfold tearDown
  by_cases hclosing : conn.cutOff.closing = true
  · simp only [hclosing, if_true]
    exact wanes_cutOff conn
  · simp only [hclosing]
    exact { wanes_cutOff conn with queue := .shutdown (wanes_cutOff conn).queue }

theorem wanes_endReader (reason : ClientError) : Wanes conn (conn.endReader reason) := by
  have hstopped : Wanes conn { conn with reader := none } :=
    { Wanes.refl conn with reader := Or.inr rfl }
  exact hstopped.trans (wanes_tearDown _ reason)

theorem wanes_endWriter : Wanes conn conn.endWriter :=
  { Wanes.refl conn with queue := .close .refl, writer := Or.inr rfl }

theorem wanes_receiveEnd : Wanes conn conn.receiveEnd := by
  unfold receiveEnd
  split
  · exact wanes_endReader conn _
  · exact .refl conn

theorem wanes_receiveFault (fault : TransportFault) : Wanes conn (conn.receiveFault fault) := by
  unfold receiveFault
  split
  · exact wanes_endReader conn _
  · exact .refl conn

/-- A reader that finds the stream broken has ended. -/
theorem reader_receiveFault (fault : TransportFault) : (conn.receiveFault fault).reader = none := by
  unfold receiveFault
  by_cases hreader : conn.reader.isSome = true
  · rw [if_pos hreader]
    have hended := (wanes_tearDown { conn with reader := none } (.transport fault)).reader
    rcases hended with hsame | hnone
    · exact hsame
    · exact hnone
  · rw [if_neg hreader]
    exact Option.not_isSome_iff_eq_none.1 hreader

theorem wanes_writeFault (fault : TransportFault) : Wanes conn (conn.writeFault fault) := by
  unfold writeFault
  split
  · exact (wanes_tearDown conn _).trans (wanes_endWriter _)
  · exact wanes_endWriter conn
  · exact .refl conn

theorem wanes_drop : Wanes conn conn.drop := by
  have hstopped : Wanes conn.cutOff { conn.cutOff with closing := true, reader := none } :=
    { Wanes.refl conn.cutOff with reader := Or.inr rfl }
  exact ((wanes_cutOff conn).trans hstopped).trans (wanes_endWriter _)

theorem wanes_dropCall (call : Call) : Wanes conn (conn.dropCall call) :=
  { Wanes.refl conn with
    calls := List.filter_sublist
    queue := .withdraw call.key .refl
    pending := PendingTable.evolves_drop conn.pending call.slot }

theorem wanes_abandon (key : CallKey) : Wanes conn (conn.abandon key) := by
  unfold abandon
  split
  · exact wanes_dropCall conn _
  · exact .refl conn

/-- A call that is looked after may end. A reply that it ends with stood in its slot. -/
theorem poll_effect (call : Call) (now : Instant) :
    Wanes conn (conn.poll call now).2 ∧
      ∀ payload, (conn.poll call now).1 = some (.ok payload) →
        ∃ slot ∈ conn.pending.slots, slot.key = call.slot ∧
          slot.state = .resolved (.reply payload) := by
  unfold poll
  by_cases hholds : conn.queue.holds call.key = true
  · simp only [hholds, if_true]
    split
    · exact ⟨wanes_dropCall conn call, fun _ h => nomatch h⟩
    · split
      · exact ⟨wanes_dropCall conn call, fun _ h => nomatch h⟩
      · exact ⟨.refl conn, fun _ h => nomatch h⟩
  · simp only [hholds]
    generalize hpending : (if call.deadline ≤ now then conn.pending.expire call.slot
      else conn.pending) = pending
    have hevolves : PendingTable.Evolves (fun _ _ => False) conn.pending pending := by
      rw [← hpending]
      split
      · exact PendingTable.evolves_expire conn.pending call.slot
      · exact .refl conn.pending
    cases hpoll : pending.poll call.slot with
    | none => exact ⟨.refl conn, fun _ h => nomatch h⟩
    | some outcome =>
        have hexpired : Wanes conn { conn with pending } :=
          { Wanes.refl conn with pending := hevolves }
        refine ⟨hexpired.trans (wanes_dropCall _ call), ?_⟩
        intro payload hresult
        have houtcome : outcome = .reply payload := by
          cases outcome with
          | reply found => cases hresult; rfl
          | rejected error => cases hresult
          | timedOut => cases hresult
          | closed => cases hresult
        obtain ⟨slot, hslot, hkey, hstate⟩ := PendingTable.exists_slot_of_poll (houtcome ▸ hpoll)
        -- A deadline brings no reply, so this one was there before.
        rcases hevolves.replies slot hslot payload hstate with hold | hfalse
        · exact ⟨slot, hold, hkey, hstate⟩
        · exact hfalse.elim

/-- A call that is looked after goes on, or it has ended and is dropped. -/
theorem poll_eq (call : Call) (now : Instant) :
    conn.poll call now = (none, conn) ∨
      ∃ result before, conn.poll call now = (some result, dropCall before call) := by
  unfold poll
  by_cases hholds : conn.queue.holds call.key = true
  · rw [if_pos hholds]
    by_cases hclosed : (!conn.queue.isOpen) = true
    · rw [if_pos hclosed]
      exact Or.inr ⟨_, _, rfl⟩
    · rw [if_neg hclosed]
      by_cases hlate : call.deadline ≤ now
      · rw [if_pos hlate]
        exact Or.inr ⟨_, _, rfl⟩
      · rw [if_neg hlate]
        exact Or.inl rfl
  · rw [if_neg hholds]
    simp only
    split
    · exact Or.inr ⟨_, _, rfl⟩
    · exact Or.inl rfl

/-- A call that has ended is not in progress any more. -/
theorem key_ne_of_poll {conn : Connection} {call : Call} {now : Instant}
    {result : Except ClientError ByteArray} (h : (conn.poll call now).1 = some result) :
    ∀ other ∈ (conn.poll call now).2.calls, other.key ≠ call.key := by
  intro other hother
  rcases conn.poll_eq call now with hpoll | ⟨found, before, hpoll⟩
  · rw [hpoll] at h
    cases h
  · rw [hpoll] at hother
    simpa using List.of_mem_filter hother

theorem wanes_pollBy (key : CallKey) (now : Instant) : Wanes conn (conn.pollBy key now).2 := by
  cases hcall : conn.call? key with
  | none =>
      rw [pollBy_of_none hcall]
      exact .refl conn
  | some call =>
      rw [pollBy_of_some hcall]
      exact (poll_effect conn call now).1

/-- The owner closes the connection: nothing new comes in but a last frame. -/
theorem close_effect : ∃ middle, Wanes conn middle ∧
    (conn.close.2 = middle ∨
      conn.close.2 =
        { middle with
          queue := middle.queue.offer (.shutdown (some (Message.close none).bytes)) }) := by
  have hfarewell : farewell = .ok (Message.close none).bytes :=
    Message.encode_of_fits (by decide)
  have hstopped : Wanes conn { conn.cutOff with closing := true, reader := none } :=
    (wanes_cutOff conn).trans { Wanes.refl conn.cutOff with reader := Or.inr rfl }
  unfold close
  simp only [hfarewell]
  split
  · exact ⟨_, hstopped, Or.inl rfl⟩
  · split
    · exact ⟨_, hstopped, Or.inr rfl⟩
    · exact ⟨_, hstopped.trans (wanes_endWriter _), Or.inl rfl⟩

end Wanes

/-! ## Calls that begin -/

/-- What becomes of a connection when a call begins. -/
inductive RequestEffect (conn : Connection) (cluster : String) (payload : ByteArray)
    (timeout : Duration) (now : Instant) : CallStart → Connection → Prop
  /-- The call fails at once. -/
  | declined (error : ClientError) :
      RequestEffect conn cluster payload timeout now (.refused error) conn
  /-- There is no number for the call. -/
  | exhausted (hid : conn.ids.next = RequestIds.exhausted) :
      RequestEffect conn cluster payload timeout now .exhausted
        { conn with ids := ⟨conn.ids.next + 1⟩ }
  /-- The number cannot be registered. -/
  | unregistered (error : ClientError) (hid : conn.ids.next ≠ RequestIds.exhausted) :
      RequestEffect conn cluster payload timeout now (.refused error)
        { conn with ids := ⟨conn.ids.next + 1⟩ }
  /-- The request does not fit into a frame. -/
  | unwritten (slot : SlotKey) (pending : PendingTable) (fault : ProtocolError)
      (hid : conn.ids.next ≠ RequestIds.exhausted)
      (hregister : conn.pending.register ⟨conn.ids.next⟩ = (.ok slot, pending)) :
      RequestEffect conn cluster payload timeout now (.refused (.protocol fault))
        { conn with ids := ⟨conn.ids.next + 1⟩, pending := pending.drop slot }
  /-- The call goes on. -/
  | started (slot : SlotKey) (pending : PendingTable)
      (hid : conn.ids.next ≠ RequestIds.exhausted)
      (hregister : conn.pending.register ⟨conn.ids.next⟩ = (.ok slot, pending))
      (hfits : (Message.request ⟨conn.ids.next⟩ cluster (wireTimeout timeout) payload).Fits) :
      RequestEffect conn cluster payload timeout now (.started conn.nextCall)
        { conn with
          ids := ⟨conn.ids.next + 1⟩
          pending
          calls := conn.calls ++
            [⟨conn.nextCall, ⟨conn.ids.next⟩, slot, now.after (timeout.atMost farFuture)⟩]
          nextCall := conn.nextCall + 1
          queue := conn.queue.push ⟨some conn.nextCall,
            (Message.request ⟨conn.ids.next⟩ cluster (wireTimeout timeout) payload).bytes⟩ }

theorem request_effect (conn : Connection) (cluster : String) (payload : ByteArray)
    (timeout : Duration) (now : Instant) :
    RequestEffect conn cluster payload timeout now (conn.request cluster payload timeout now).1
      (conn.request cluster payload timeout now).2 := by
  unfold request
  by_cases hzero : timeout = .zero
  · rw [if_pos hzero]
    exact .declined _
  · rw [if_neg hzero]
    by_cases hconnected : (!conn.connected) = true
    · rw [if_pos hconnected]
      exact .declined _
    · rw [if_neg hconnected]
      unfold RequestIds.take
      by_cases hid : conn.ids.next = RequestIds.exhausted
      · simp only [if_pos hid]
        exact .exhausted hid
      · simp only [if_neg hid]
        cases hregister : conn.pending.register ⟨conn.ids.next⟩ with
        | mk result pending =>
            cases result with
            | error error =>
                rw [PendingTable.register_eq_error hregister]
                exact .unregistered error hid
            | ok slot =>
                by_cases hfits : (Message.request ⟨conn.ids.next⟩ cluster (wireTimeout timeout)
                    payload).Fits
                · simp only [Message.encode_of_fits hfits]
                  exact .started slot pending hid hregister hfits
                · obtain ⟨fault, hfault⟩ := Message.encode_of_not_fits hfits
                  simp only [hfault]
                  exact .unwritten slot pending fault hid hregister

/-! ## Messages that are heard -/

/-- The messages that a reader deals with, of what it has taken off the stream. It ends where the
stream is out of step, and with a message that ends the session. -/
def heard : List (Decoder.Outcome Message) → List Message
  | [] => []
  | .needMore :: outcomes => heard outcomes
  | .failed fault :: outcomes => if fault.isRecoverable then heard outcomes else []
  | .item message :: outcomes =>
      if message.envelope.kind = .close then [] else message :: heard outcomes

/-- Services of requests, named from `key` on. -/
def servicesFrom : Nat → List (RequestId × ByteArray) → List Service
  | _, [] => []
  | key, (id, payload) :: requests => ⟨key, id, payload⟩ :: servicesFrom (key + 1) requests

theorem servicesFrom_append (key : Nat) (requests others : List (RequestId × ByteArray)) :
    servicesFrom key (requests ++ others) =
      servicesFrom key requests ++ servicesFrom (key + requests.length) others := by
  induction requests generalizing key with
  | nil => rfl
  | cons request requests ih =>
      rw [List.cons_append, servicesFrom, ih, servicesFrom, List.cons_append, List.length_cons]
      congr 3
      omega

/-- Services are named in order. -/
theorem key_servicesFrom (key : Nat) (requests : List (RequestId × ByteArray)) :
    (servicesFrom key requests).map Service.key = List.range' key requests.length := by
  induction requests generalizing key with
  | nil => rfl
  | cons request requests ih =>
      rw [servicesFrom, List.map_cons, ih, List.length_cons, List.range'_succ]

theorem key_of_mem_servicesFrom {key : Nat} {requests : List (RequestId × ByteArray)}
    {service : Service}
    (h : service ∈ servicesFrom key requests) :
    key ≤ service.key ∧ service.key < key + requests.length := by
  have hmem := List.mem_map_of_mem (f := Service.key) h
  rwa [key_servicesFrom, List.mem_range'_1] at hmem

section Begun

variable {services : List Service} {next : Nat} (hkeys : ∀ service ∈ services, service.key < next)
  (requests : List (RequestId × ByteArray))

include hkeys

/-- Services that begin behind others leave the names that follow. -/
theorem key_lt_of_mem_append_servicesFrom :
    ∀ service ∈ services ++ servicesFrom next requests, service.key < next + requests.length := by
  intro service hservice
  rcases List.mem_append.1 hservice with hold | hnew
  · exact Nat.lt_add_right _ (hkeys service hold)
  · exact (key_of_mem_servicesFrom hnew).2

/-- Services that begin behind others have names of their own. -/
theorem nodup_key_append_servicesFrom (hdistinct : (services.map Service.key).Nodup) :
    ((services ++ servicesFrom next requests).map Service.key).Nodup := by
  rw [List.map_append, key_servicesFrom]
  refine List.nodup_append.2 ⟨hdistinct, List.nodup_range', ?_⟩
  intro a ha b hb
  obtain ⟨service, hservice, rfl⟩ := List.mem_map.1 ha
  have hlt := hkeys service hservice
  rw [List.mem_range'_1] at hb
  omega

end Begun

theorem request_servicesFrom (key : Nat) (requests : List (RequestId × ByteArray)) :
    (servicesFrom key requests).map (fun service => (service.id, service.payload)) = requests := by
  induction requests generalizing key with
  | nil => rfl
  | cons request requests ih => rw [servicesFrom, List.map_cons, ih]

/-- The connection with services for requests that have been heard, and with another table of calls
that wait. -/
def withServices (conn : Connection) (requests : List (RequestId × ByteArray))
    (pending : PendingTable) : Connection :=
  { conn with
    services := conn.services ++ servicesFrom conn.nextService requests
    nextService := conn.nextService + requests.length
    pending }

theorem withServices_nil (conn : Connection) : conn.withServices [] conn.pending = conn := by
  unfold withServices servicesFrom
  rw [List.append_nil]
  rfl

theorem withServices_withServices (conn : Connection)
    (requests others : List (RequestId × ByteArray))
    (pending pending' : PendingTable) :
    (conn.withServices requests pending).withServices others pending' =
      conn.withServices (requests ++ others) pending' := by
  unfold withServices
  simp only [List.append_assoc, servicesFrom_append, List.length_append, Nat.add_assoc]

/-- What one message does that does not end the session. -/
theorem dispatch_effect (conn : Connection) (hsound : conn.pending.Sound) {message : Message}
    (hmessage : message.envelope.kind ≠ .close) :
    ∃ pending, PendingTable.Evolves
        (fun id payload => message.envelope = .reply id ∧ message.payload = payload)
        conn.pending pending ∧
      conn.dispatch message = (none, conn.withServices message.asked?.toList pending) := by
  have hnothing := withServices_nil conn
  unfold dispatch Message.asked?
  cases henvelope : message.envelope with
  | hello version cluster clientName => exact ⟨conn.pending, .refl _, by simp [hnothing]⟩
  | welcome connectionId => exact ⟨conn.pending, .refl _, by simp [hnothing]⟩
  | request id cluster timeoutMs => exact ⟨conn.pending, .refl _, rfl⟩
  | reply id =>
      refine ⟨(conn.pending.resolve id (.reply message.payload)).2,
        PendingTable.evolves_resolve ?_, ?_⟩
      · intro payload hpayload
        exact ⟨hsound, rfl, Outcome.reply.inj hpayload⟩
      · unfold withServices servicesFrom
        simp
  | errorReply id error =>
      refine ⟨(conn.pending.resolve id (.rejected error)).2,
        PendingTable.evolves_resolve fun _ h => (nomatch h), ?_⟩
      unfold withServices servicesFrom
      simp
  | close reason =>
      rw [henvelope] at hmessage
      exact absurd rfl hmessage

/-- What a reader has taken off the stream becomes services and replies. Behind that the reader may
end. -/
theorem dispatchAll_effect (conn : Connection) (hsound : conn.pending.Sound)
    (outcomes : List (Decoder.Outcome Message)) :
    ∃ pending, PendingTable.Evolves
        (fun id payload => ∃ message ∈ heard outcomes,
          message.envelope = .reply id ∧ message.payload = payload)
        conn.pending pending ∧
      Wanes (conn.withServices ((heard outcomes).filterMap Message.asked?) pending)
        (conn.dispatchAll outcomes) := by
  -- Every message changes the connection, so the induction is over all of them.
  induction outcomes generalizing conn with
  | nil =>
      refine ⟨conn.pending, .refl _, ?_⟩
      rw [heard, List.filterMap_nil, withServices_nil]
      exact .refl conn
  | cons outcome outcomes ih =>
      cases outcome with
      | needMore => exact ih conn hsound
      | failed fault =>
          rw [heard, dispatchAll]
          by_cases hfault : fault.isRecoverable = true
          · rw [if_pos hfault, if_pos hfault]
            exact ih conn hsound
          · -- The reader ends here, and what stands behind is not heard.
            rw [if_neg hfault, if_neg hfault, List.filterMap_nil]
            refine ⟨conn.pending, .refl _, ?_⟩
            rw [withServices_nil]
            exact wanes_endReader conn _
      | item message =>
          rw [heard, dispatchAll]
          by_cases hclose : message.envelope.kind = .close
          · rw [if_pos hclose, List.filterMap_nil]
            refine ⟨conn.pending, .refl _, ?_⟩
            have hdispatch : conn.dispatch message = (some .connectionClosed, conn) := by
              unfold dispatch
              cases henvelope : message.envelope <;> rw [henvelope] at hclose <;> cases hclose
            rw [withServices_nil, hdispatch]
            exact wanes_endReader conn _
          · rw [if_neg hclose]
            obtain ⟨pending, hevolves, hdispatch⟩ := dispatch_effect conn hsound hclose
            rw [hdispatch]
            obtain ⟨pending', hevolves', hwanes⟩ :=
              ih (conn.withServices message.asked?.toList pending) (hevolves.sound hsound)
            refine ⟨pending', ?_, ?_⟩
            · refine (hevolves.mono ?_).trans (hevolves'.mono ?_)
              · rintro id payload ⟨hreply, hpayload⟩
                exact ⟨message, List.mem_cons_self, hreply, hpayload⟩
              · rintro id payload ⟨other, hother, hreply⟩
                exact ⟨other, List.mem_cons_of_mem _ hother, hreply⟩
            · rw [withServices_withServices] at hwanes
              have hrequests : (message :: heard outcomes).filterMap Message.asked? =
                  message.asked?.toList ++ (heard outcomes).filterMap Message.asked? := by
                cases hasked : message.asked? with
                | none => rw [List.filterMap_cons_none hasked]; rfl
                | some request => rw [List.filterMap_cons_some hasked]; rfl
              rw [hrequests]
              exact hwanes

end Connection

end Switchboard
