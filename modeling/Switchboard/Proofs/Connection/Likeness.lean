import Switchboard.Proofs.Connection.Lifecycle
import Switchboard.Proofs.Connection.Portions

/-!
# What of a connection depends on its stream

Handlers, the writer, and callers that pick up their outcomes work beside the reader, each in its
own time. They do not touch what the reader and the callers that begin work on: two connections are
alike when they agree in that (`Alike`). What comes from the stream, and a call that begins, does
the same to connections that are alike, and brings the same (`Alike.perform`); what happens beside
it leaves a connection alike to what it was, and brings nothing (`alike_of_aside`). This holds while
no call is given up or runs out of time and nobody closes the connection from this side
(`Undisturbed`), and while the calls in progress have different numbers (`Permits`), as they have
until the numbers run out.
-/

namespace Switchboard

/-- Tables that agree in their entries give the same answer to a registration. -/
theorem PendingTable.register_congr {table other : PendingTable}
    (hentries : table.entries = other.entries) (hnextKey : table.nextKey = other.nextKey)
    (hclosed : table.closed = other.closed) (id : RequestId) :
    (table.register id).1 = (other.register id).1 := by
  have hholder : table.holder? id = other.holder? id := congrArg (List.lookup id) hentries
  unfold register
  by_cases hshut : other.closed = true
  · simp only [hclosed, if_pos hshut]
  · by_cases hheld : (other.holder? id).isSome = true
    · simp only [hclosed, hholder, if_neg hshut, if_pos hheld]
    · simp only [hclosed, hholder, hnextKey, if_neg hshut, if_neg hheld]

namespace Connection

/-! ## Connections that are alike -/

/-- Connections that agree in all that the reader and the callers that begin work on. -/
structure Alike (a b : Connection) : Prop where
  connectionId : a.connectionId = b.connectionId
  ids : a.ids = b.ids
  nextCall : a.nextCall = b.nextCall
  nextService : a.nextService = b.nextService
  reader : a.reader = b.reader
  entries : a.pending.entries = b.pending.entries
  nextKey : a.pending.nextKey = b.pending.nextKey
  life : a.life = b.life

namespace Alike

theorem refl (conn : Connection) : Alike conn conn := ⟨rfl, rfl, rfl, rfl, rfl, rfl, rfl, rfl⟩

theorem trans {a b c : Connection} (hab : Alike a b) (hbc : Alike b c) : Alike a c where
  connectionId := hab.connectionId.trans hbc.connectionId
  ids := hab.ids.trans hbc.ids
  nextCall := hab.nextCall.trans hbc.nextCall
  nextService := hab.nextService.trans hbc.nextService
  reader := hab.reader.trans hbc.reader
  entries := hab.entries.trans hbc.entries
  nextKey := hab.nextKey.trans hbc.nextKey
  life := hab.life.trans hbc.life

variable {a b : Connection} (h : Alike a b)

include h

theorem connected : a.connected = b.connected := congrArg Life.connected h.life

theorem closing : a.closing = b.closing := congrArg Life.closing h.life

theorem closed : a.pending.closed = b.pending.closed := congrArg Life.shut h.life

theorem losses : a.losses = b.losses := congrArg Life.losses h.life

/-- They learn the same. -/
theorem learning (messages : List Message) (reason : Option ClientError) :
    a.learning messages reason = b.learning messages reason := by
  simp only [Connection.learning, h.nextService, h.entries]

theorem withReader (reader : Option Decoder) : Alike { a with reader } { b with reader } :=
  { h with reader := rfl, life := h.life }

end Alike

/-- What the end of the reader leaves as it is. -/
theorem wanes_endOn (conn : Connection) (reason : Option ClientError) :
    Wanes conn (conn.endOn reason) := by
  cases reason with
  | none => exact .refl conn
  | some reason => exact wanes_endReader conn reason

theorem reader_endOn (conn : Connection) (reason : Option ClientError) :
    (conn.endOn reason).reader = if reason.isSome then none else conn.reader := by
  cases reason with
  | none => rfl
  | some reason => exact reader_endReader conn reason

/-- Connections that are alike learn the same and stay alike. -/
theorem Alike.endOn {a b : Connection} (h : Alike a b) (ha : a.pending.Matched)
    (hb : b.pending.Matched) (messages : List Message) (reason : Option ClientError) :
    Alike ((a.hear messages).endOn reason) ((b.hear messages).endOn reason) where
  connectionId := by
    rw [(remains_endOn _ reason).connectionId, (remains_endOn _ reason).connectionId]
    exact h.connectionId
  ids := by
    rw [(wanes_endOn _ reason).ids, (wanes_endOn _ reason).ids]
    exact h.ids
  nextCall := by
    rw [(wanes_endOn _ reason).nextCall, (wanes_endOn _ reason).nextCall]
    exact h.nextCall
  nextService := by
    rw [(wanes_endOn _ reason).nextService, (wanes_endOn _ reason).nextService]
    exact congrArg (· + (messages.filterMap Message.asked?).length) h.nextService
  reader := by
    rw [reader_endOn, reader_endOn]
    show (if reason.isSome then none else a.reader) = if reason.isSome then none else b.reader
    rw [h.reader]
  entries := by
    rw [pending_endOn ha, pending_endOn hb]
    simp only [PendingTable.settleBy, h.entries]
  nextKey := by
    rw [pending_endOn ha, pending_endOn hb]
    exact h.nextKey
  life := by
    rw [life_endOn, life_endOn]
    exact congrArg (Life.through · _) h.life

/-! ## What comes from the stream, and calls that begin -/

section Congruence

variable {a b : Connection} (h : Alike a b) (ha : a.pending.Matched) (hb : b.pending.Matched)

include h ha hb

theorem Alike.receive (data : ByteArray) :
    Alike (a.receive data) (b.receive data) ∧
      a.yield (.receive data) = b.yield (.receive data) := by
  cases hreader : a.reader with
  | none =>
      have hreader' : b.reader = none := h.reader.symm.trans hreader
      have ha' : a.perform (.receive data) = a := receive_of_none hreader data
      have hb' : b.perform (.receive data) = b := receive_of_none hreader' data
      refine ⟨?_, ?_⟩
      · rw [receive_of_none hreader, receive_of_none hreader']
        exact h
      · rw [yield_of_eq ha' rfl, yield_of_eq hb' rfl]
  | some decoder =>
      have hreader' : b.reader = some decoder := h.reader.symm.trans hreader
      refine ⟨?_, ?_⟩
      · rw [receive_eq_hear ha hreader, receive_eq_hear hb hreader']
        apply (h.withReader (some (decoder.extend data).drain.2)).endOn
        · exact ha
        · exact hb
      · rw [yield_receive ha hreader, yield_receive hb hreader', h.learning]

/-- A reader that may find its end. -/
theorem Alike.readerEnds {step : Step} {reason : ClientError}
    (hstep : ∀ conn : Connection,
      conn.perform step = if conn.reader.isSome then conn.endReader reason else conn)
    (hstarts : ∀ conn : Connection, conn.startsBy step = []) :
    Alike (a.perform step) (b.perform step) ∧ a.yield step = b.yield step := by
  by_cases hreader : a.reader.isSome = true
  · have hreader' : b.reader.isSome = true := h.reader ▸ hreader
    -- A reader that ends has learned of no message.
    have hend : ∀ conn : Connection, conn.reader.isSome = true →
        conn.perform step = ({ conn with reader := conn.reader }.hear []).endOn (some reason) := by
      intro conn hsome
      rw [hstep, if_pos hsome, hear_nil]
      rfl
    refine ⟨?_, ?_⟩
    · rw [hend a hreader, hend b hreader']
      exact h.endOn ha hb [] (some reason)
    · rw [yield_of_learning ha (hend a hreader) (hstarts a),
        yield_of_learning hb (hend b hreader') (hstarts b), h.learning]
  · have hreader' : ¬ b.reader.isSome = true := h.reader ▸ hreader
    have ha' : a.perform step = a := (hstep a).trans (if_neg hreader)
    have hb' : b.perform step = b := (hstep b).trans (if_neg hreader')
    refine ⟨?_, ?_⟩
    · rw [ha', hb']
      exact h
    · rw [yield_of_eq ha' (hstarts a), yield_of_eq hb' (hstarts b)]

/-- A call begins in the same way. -/
theorem Alike.request (cluster : String) (payload : ByteArray) (timeout : Duration)
    (now : Instant) :
    (a.request cluster payload timeout now).1 = (b.request cluster payload timeout now).1 ∧
      Alike (a.request cluster payload timeout now).2
        (b.request cluster payload timeout now).2 := by
  have hlife : Life.mk a.connected a.closing a.pending.closed a.losses =
      Life.mk a.connected b.closing b.pending.closed b.losses := by
    rw [h.closing, h.closed, h.losses]
  unfold Connection.request
  rw [← h.connected, ← h.ids]
  by_cases htimeout : timeout = .zero
  · simp only [if_pos htimeout]
    exact ⟨trivial, h⟩
  by_cases hup : (!a.connected) = true
  · simp only [if_neg htimeout, if_pos hup]
    exact ⟨trivial, h⟩
  simp only [if_neg htimeout, if_neg hup]
  obtain ⟨number, ids⟩ := a.ids.take
  cases number with
  | none =>
      refine ⟨rfl, ?_⟩
      exact ⟨h.connectionId, rfl, h.nextCall, h.nextService, h.reader, h.entries, h.nextKey, hlife⟩
  | some id =>
      -- Tables with the same entries give the same answer, and slots of the same name.
      have hanswer := PendingTable.register_congr h.entries h.nextKey h.closed id
      dsimp only
      cases hregister : a.pending.register id with
      | mk answer pending =>
          cases hregister' : b.pending.register id with
          | mk answer' pending' =>
              rw [hregister, hregister'] at hanswer
              cases hanswer
              cases answer with
              | error error =>
                  rw [PendingTable.register_eq_error hregister,
                    PendingTable.register_eq_error hregister']
                  refine ⟨rfl, ?_⟩
                  exact ⟨h.connectionId, rfl, h.nextCall, h.nextService, h.reader, h.entries,
                    h.nextKey, hlife⟩
              | ok slot =>
                  dsimp only
                  cases (Message.request id cluster (wireTimeout timeout) payload).encode with
                  | error fault =>
                      dsimp only
                      rw [ha.drop_register hregister, hb.drop_register hregister']
                      refine ⟨rfl, ?_⟩
                      exact ⟨h.connectionId, rfl, h.nextCall, h.nextService, h.reader, h.entries,
                        congrArg (· + 1) h.nextKey, hlife⟩
                  | ok frame =>
                      obtain ⟨-, hnext, hentries, -⟩ := PendingTable.register_eq_ok hregister
                      obtain ⟨-, hnext', hentries', -⟩ := PendingTable.register_eq_ok hregister'
                      obtain ⟨-, hopen, -⟩ := PendingTable.of_register hregister
                      obtain ⟨-, hopen', -⟩ := PendingTable.of_register hregister'
                      -- The frame goes into the write queues, which need not be alike.
                      refine ⟨congrArg CallStart.started h.nextCall, ?_⟩
                      refine ⟨h.connectionId, rfl, congrArg (· + 1) h.nextCall, h.nextService,
                        h.reader, ?_, ?_, ?_⟩
                      · show pending.entries = pending'.entries
                        rw [hentries, hentries', h.entries, h.nextKey]
                      · show pending.nextKey = pending'.nextKey
                        rw [hnext, hnext', h.nextKey]
                      · show Life.mk a.connected a.closing pending.closed a.losses =
                          Life.mk a.connected b.closing pending'.closed b.losses
                        rw [hopen, hopen', h.closing, h.losses]

end Congruence

/-- A call that begins brings nothing but its beginning. -/
theorem yield_request {conn : Connection} (h : conn.pending.Matched) (cluster : String)
    (payload : ByteArray) (timeout : Duration) (now : Instant) :
    conn.yield (.request cluster payload timeout now) =
      ⟨[], ∅, [(conn.request cluster payload timeout now).1]⟩ := by
  have heffect := request_effect conn cluster payload timeout now
  have hquiet : (conn.request cluster payload timeout now).2.services = conn.services ∧
      PendingTable.received conn.pending (conn.request cluster payload timeout now).2.pending =
        [] := by
    generalize (conn.request cluster payload timeout now).1 = start at heffect
    generalize (conn.request cluster payload timeout now).2 = after at heffect ⊢
    cases heffect with
    | unwritten slot pending fault hid hregister =>
        refine ⟨rfl, ?_⟩
        rw [h.drop_register hregister]
        exact PendingTable.received_self conn.pending
    | started slot pending hid hregister hfits =>
        refine ⟨rfl, ?_⟩
        have hreceived := PendingTable.received_register conn.pending ⟨conn.ids.next⟩
        rwa [hregister] at hreceived
    | _ => exact ⟨rfl, PendingTable.received_self conn.pending⟩
  obtain ⟨hservices, hreceived⟩ := hquiet
  apply Yield.ext
  · show (conn.request cluster payload timeout now).2.services.drop conn.services.length = []
    rw [hservices, List.drop_length]
  · show {slot | slot ∈ PendingTable.received conn.pending
      (conn.request cluster payload timeout now).2.pending} = ∅
    simp [hreceived]
  · rfl

/-- A call begins, or the stream comes to its end. -/
def Step.isEvent : Step → Bool
  | .request .. | .receiveEnd | .act (.receiveFault _) => true
  | _ => false

/-- Whether a step comes from the stream, or is the beginning of a call. -/
def Step.counts (step : Step) : Bool := step.isRead || step.isEvent

theorem Step.counts_eq_false {step : Step} (h : step.counts = false) :
    step.isRead = false ∧ step.isEvent = false := Bool.or_eq_false_iff.1 h

/-- Portions, calls that begin and the end of the stream do the same to connections that are
alike. -/
theorem Alike.perform {a b : Connection} (h : Alike a b) (ha : a.pending.Matched)
    (hb : b.pending.Matched) {step : Step} (hstep : step.counts = true) :
    Alike (a.perform step) (b.perform step) ∧ a.yield step = b.yield step := by
  cases step with
  | receive data => exact h.receive ha hb data
  | receiveEnd => exact h.readerEnds ha hb (fun _ => rfl) fun _ => rfl
  | request cluster payload timeout now =>
      obtain ⟨hstart, halike⟩ := h.request ha hb cluster payload timeout now
      refine ⟨halike, ?_⟩
      rw [yield_request ha, yield_request hb, hstart]
  | write room => cases hstep
  | poll key now => cases hstep
  | act act =>
      cases act with
      | receiveFault fault => exact h.readerEnds ha hb (fun _ => rfl) fun _ => rfl
      | _ => cases hstep

/-! ## What happens beside the stream -/

/-- No call is given up and none runs out of time, the stream to the relay does not break, and
nobody closes the connection from this side. -/
def Undisturbed (conn : Connection) : Step → Prop
  | .poll key now => ∀ call, conn.call? key = some call →
      (conn.poll call now).1 ≠ some (.error .requestTimeout)
  | .act (.abandon _) | .act (.writeFault _) | .act .close | .act .endWriter | .act .drop => False
  | _ => True

/-- What the stream brings, and a call that begins, disturb nothing. -/
theorem undisturbed_of_counts (conn : Connection) {step : Step} (hcounts : step.counts = true) :
    conn.Undisturbed step := by
  cases step with
  | poll key now => cases hcounts
  | act act =>
      cases act with
      | receiveFault fault => trivial
      | _ => cases hcounts
  | _ => trivial

/-- Nothing is disturbed, and a call that is looked after has a number of its own. -/
structure Permits (conn : Connection) (step : Step) : Prop where
  undisturbed : conn.Undisturbed step
  own : ∀ key now call, step = .poll key now → conn.call? key = some call →
    ∀ other ∈ conn.calls, other.id = call.id → other = call

/-- Calls that have different numbers have numbers of their own. -/
theorem permits_of_distinct {conn : Connection} {step : Step} (h : conn.Undisturbed step)
    (hdistinct : (conn.calls.map Call.id).Nodup) : conn.Permits step where
  undisturbed := h
  own := by
    intro key now call _ hcall other hother hid
    exact Lookup.eq_of_key hdistinct hother (List.mem_of_find?_eq_some hcall) hid

/-- A connection whose writer takes frames and nothing else. -/
structure Flows (conn : Connection) : Prop where
  isOpen : conn.queue.isOpen = true
  items : ∀ farewell, .shutdown farewell ∉ conn.queue.items
  writer : conn.writer = .idle ∨ ∃ frame written, conn.writer = .writing frame written

namespace Flows

variable {conn after : Connection} (h : conn.Flows)

include h

theorem of_eq (hqueue : after.queue = conn.queue) (hwriter : after.writer = conn.writer) :
    after.Flows where
  isOpen := hqueue ▸ h.isOpen
  items := hqueue ▸ h.items
  writer := hwriter ▸ h.writer

theorem push {waiter : Waiter} (hqueue : after.queue = conn.queue.push waiter)
    (hwriter : after.writer = conn.writer) : after.Flows where
  isOpen := by rw [hqueue, WriteQueue.isOpen_push, h.isOpen]
  items := by
    intro farewell hmem
    rw [hqueue, WriteQueue.items_push] at hmem
    rcases List.mem_append.1 hmem with hold | hnew
    · exact h.items farewell hold
    · unfold WriteQueue.entering at hnew
      split at hnew <;> simp at hnew
  writer := hwriter ▸ h.writer

theorem write (room : Nat) : (conn.write room).2.Flows := by
  rcases h.writer with hwriter | ⟨frame, written, hwriter⟩
  · simp only [Connection.write, hwriter]
    exact h
  · simp only [Connection.write, hwriter]
    refine ⟨h.isOpen, h.items, ?_⟩
    simp only
    split
    · exact Or.inl rfl
    · exact Or.inr ⟨_, _, rfl⟩

theorem takeItem : conn.takeItem.Flows := by
  -- An item that would end the stream is not there.
  have hnone : ∀ {farewell queue}, conn.queue.pop = some (.shutdown farewell, queue) → False := by
    intro farewell queue hpop
    obtain ⟨items, hitems, -⟩ := WriteQueue.items_of_pop hpop
    exact h.items farewell (hitems ▸ List.mem_cons_self)
  have heffect := takeItem_effect conn
  generalize conn.takeItem = after at heffect ⊢
  cases heffect with
  | idle hidle => exact h
  | farewell bytes queue hwriter hpop => exact (hnone hpop).elim
  | ended queue hwriter hpop => exact (hnone hpop).elim
  | frame bytes queue hwriter hpop =>
      obtain ⟨items, hitems, hnext, -⟩ := WriteQueue.items_of_pop hpop
      refine ⟨(WriteQueue.isOpen_of_pop hpop).trans h.isOpen, ?_, Or.inr ⟨_, _, rfl⟩⟩
      rintro farewell hmem
      rcases List.mem_append.1 (hnext ▸ hmem) with hold | hrising
      · exact h.items farewell (hitems ▸ List.mem_cons_of_mem _ hold)
      · unfold WriteQueue.rising at hrising
        cases hfirst : conn.queue.line.head? <;> simp [hfirst] at hrising

theorem pollBy (key : CallKey) (now : Instant) : (conn.pollBy key now).2.Flows := by
  cases hcall : conn.call? key with
  | none =>
      rw [pollBy_of_none hcall]
      exact h
  | some call =>
      rw [pollBy_of_some hcall]
      rcases poll_eq_dropCall conn call now with hpoll | ⟨before, hpoll, -, hqueue, hwriter⟩
      · rw [hpoll]
        exact h
      · have hbefore := h.of_eq hqueue hwriter
        rw [hpoll]
        exact ⟨hbefore.isOpen, hbefore.items, hbefore.writer⟩

theorem completeBy (key : Nat) (result : HandlerResult) : (conn.completeBy key result).Flows := by
  cases hservice : conn.service? key with
  | none =>
      rw [completeBy_of_none hservice]
      exact h
  | some service =>
      rw [completeBy_of_some hservice, complete_eq]
      split
      · exact h.push rfl rfl
      · exact h.of_eq rfl rfl

theorem request (cluster : String) (payload : ByteArray) (timeout : Duration) (now : Instant) :
    (conn.request cluster payload timeout now).2.Flows := by
  have heffect := request_effect conn cluster payload timeout now
  generalize (conn.request cluster payload timeout now).1 = start at heffect
  generalize (conn.request cluster payload timeout now).2 = after at heffect ⊢
  cases heffect with
  | started slot pending hid hregister hfits => exact h.push rfl rfl
  | _ => exact h.of_eq rfl rfl

end Flows

/-- A connection that goes on: every call holds its slot, and the writer takes frames until the
table of calls is closed. -/
structure Going (conn : Connection) : Prop where
  told : ∃ log, Desk.Told log conn.desk
  flows : conn.pending.closed = false → conn.Flows

theorem going_new (options : ConnectionOptions) (cluster connectionId : String)
    (decoder : Decoder) :
    (new options cluster connectionId decoder).Going where
  told := ⟨[], Desk.told_new⟩
  flows := fun _ => ⟨rfl, (fun _ h => nomatch h), Or.inl rfl⟩

/-- A reader that ends closes the table of calls. -/
theorem closed_endReader (conn : Connection) (reason : ClientError) :
    (conn.endReader reason).pending.closed = true :=
  congrArg Life.shut (life_endReader conn reason)

namespace Going

variable {conn : Connection} (h : conn.Going)

include h

theorem kept : conn.desk.Kept := h.told.choose_spec.kept

theorem matched : conn.pending.Matched := h.kept.matched

theorem flows_receive (data : ByteArray) (hopen : (conn.receive data).pending.closed = false)
    (hflows : conn.Flows) : (conn.receive data).Flows := by
  cases hreader : conn.reader with
  | none =>
      rw [receive_of_none hreader]
      exact hflows
  | some decoder =>
      rw [receive_eq_hear h.matched hreader] at hopen ⊢
      cases hreason : reasonIn (decoder.extend data).drain.1 with
      | none => exact hflows.of_eq rfl rfl
      | some reason =>
          rw [hreason] at hopen
          cases (closed_endReader _ reason).symm.trans hopen

omit h in
theorem flows_readerEnds {after : Connection} (reason : ClientError)
    (hafter : after = if conn.reader.isSome then conn.endReader reason else conn)
    (hopen : after.pending.closed = false) (hflows : conn.Flows) : after.Flows := by
  rw [hafter] at hopen ⊢
  by_cases hreader : conn.reader.isSome = true
  · rw [if_pos hreader] at hopen
    cases (closed_endReader conn reason).symm.trans hopen
  · rw [if_neg hreader]
    exact hflows

theorem perform {step : Step} (hcalm : conn.Undisturbed step) : (conn.perform step).Going := by
  obtain ⟨log, htold⟩ := h.told
  have hmoves := moves_perform htold.kept step
  refine ⟨⟨_, htold.moves hmoves⟩, ?_⟩
  intro hopen
  -- A table that is open now was open before.
  have hbefore : conn.pending.closed = false := by
    apply Bool.eq_false_iff.2
    intro hclosed
    cases (hmoves.closed hclosed).symm.trans hopen
  have hflows := h.flows hbefore
  cases step with
  | receive data => exact h.flows_receive data hopen hflows
  | receiveEnd => exact flows_readerEnds .connectionClosed rfl hopen hflows
  | write room => exact hflows.write room
  | request cluster payload timeout now => exact hflows.request cluster payload timeout now
  | poll key now => exact hflows.pollBy key now
  | act act =>
      cases act with
      | complete key result => exact hflows.completeBy key result
      | takeItem => exact hflows.takeItem
      | receiveFault fault => exact flows_readerEnds (.transport fault) rfl hopen hflows
      | abandon key => cases hcalm
      | writeFault fault => cases hcalm
      | close => cases hcalm
      | endWriter => cases hcalm
      | drop => cases hcalm

/-- A call that ends before its time has been given its outcome. -/
theorem not_waiting {call : Call} {slot : Slot} (hslot : slot ∈ conn.pending.slots)
    {now : Instant} (hends : (conn.verdict call slot.state now).isSome = true)
    (hintime : conn.verdict call slot.state now ≠ some (.error .requestTimeout)) :
    slot.state ≠ .waiting := by
  intro hwaiting
  have hopen : conn.pending.closed = false := by
    apply Bool.eq_false_iff.2
    intro hclosed
    have hentry := h.matched.waits slot hslot hwaiting
    rw [h.matched.shut hclosed] at hentry
    cases hentry
  have hqueue := (h.flows hopen).isOpen
  rw [hwaiting] at hends hintime
  simp only [verdict, hqueue, Bool.not_true, Bool.false_eq_true, if_false, SlotState.outcome?,
    Option.none_or] at hends hintime
  -- In line or behind it, only the end of its time could end the call.
  by_cases hholds : conn.queue.holds call.key = true
  · by_cases hlate : call.deadline ≤ now
    · simp [hholds, hlate] at hintime
    · simp [hholds, hlate] at hends
  · by_cases hlate : call.deadline ≤ now
    · simp [hholds, hlate, Outcome.toResult] at hintime
    · simp [hholds, hlate] at hends

/-- A call that has its outcome, and a number of its own, leaves the entries as they are. -/
theorem alike_dropCall {call : Call} {slot : Slot}
    (hslot : slot ∈ conn.pending.slots) (hident : slot.ident = call.ident)
    (hstate : slot.state ≠ .waiting)
    (hown : ∀ other ∈ conn.calls, other.id = call.id → other = call) :
    Alike (conn.dropCall call) conn := by
  obtain ⟨hkey, hid⟩ := Prod.mk.inj hident
  have hdrop := h.matched.drop_eq hslot
  have hentries : (conn.pending.drop call.slot).entries = conn.pending.entries := by
    rw [← hkey, hdrop]
    apply List.filter_eq_self.2
    intro entry hentry
    -- An entry of the number would be of this call, whose slot does not wait.
    have hother : entry.1 ≠ slot.id := by
      intro hsame
      obtain ⟨owner, howner, hownerIdent, hwaiting⟩ := h.matched.owned entry hentry
      obtain ⟨other, hother, hotherIdent⟩ := h.kept.exists_call howner
      have hnumber : other.id = call.id := by
        rw [← hid, ← hsame]
        exact (congrArg Prod.snd hotherIdent).trans (congrArg Prod.snd hownerIdent)
      have hcalls := hown other hother hnumber
      rw [hcalls, ← hident] at hotherIdent
      have hslots := Lookup.eq_of_key h.matched.sound.distinct hslot howner
        (congrArg Prod.fst hotherIdent)
      exact hstate (hslots ▸ hwaiting)
    rw [PendingTable.only_ne hother]
    rfl
  constructor
  · rfl
  · rfl
  · rfl
  · rfl
  · rfl
  · exact hentries
  · show (conn.pending.drop call.slot).nextKey = conn.pending.nextKey
    rw [← hkey, hdrop]
    rfl
  · exact life_dropCall conn call

/-- A caller that picks up its outcome leaves the connection alike to what it was. -/
theorem alike_pollBy {key : CallKey} {now : Instant} (hpermits : conn.Permits (.poll key now)) :
    Alike (conn.pollBy key now).2 conn ∧ conn.yield (.poll key now) = .nothing := by
  cases hcall : conn.call? key with
  | none =>
      have hpoll : conn.perform (.poll key now) = conn := by
        show (conn.pollBy key now).2 = conn
        rw [pollBy_of_none hcall]
      refine ⟨?_, yield_of_eq hpoll rfl⟩
      rw [pollBy_of_none hcall]
      exact .refl conn
  | some call =>
      have hintime := hpermits.undisturbed call hcall
      have hown := hpermits.own key now call rfl hcall
      have hmem : call ∈ conn.desk.calls := List.mem_of_find?_eq_some hcall
      obtain ⟨slot, hslot, hident⟩ := h.kept.exists_slot hmem
      have hkey : slot.key = call.slot := congrArg Prod.fst hident
      have hpoll := poll_eq_verdict h.matched hslot hkey now
      have hafter : (conn.pollBy key now).2 =
          if (conn.verdict call slot.state now).isSome then conn.dropCall call else conn := by
        rw [pollBy_of_some hcall, hpoll]
      rw [hpoll] at hintime
      by_cases hends : (conn.verdict call slot.state now).isSome = true
      · rw [if_pos hends] at hafter
        refine ⟨?_, ?_⟩
        · rw [hafter]
          -- The call has had its outcome in time, so no entry goes with it.
          exact h.alike_dropCall hslot hident (h.not_waiting hslot hends hintime) hown
        · apply yield_eq_nothing
          · show (conn.pollBy key now).2.services = conn.services
            rw [hafter]
            rfl
          · show PendingTable.received conn.pending (conn.pollBy key now).2.pending = []
            rw [hafter]
            exact h.matched.received_drop call.slot
          · rfl
      · rw [if_neg hends] at hafter
        refine ⟨?_, yield_of_eq hafter rfl⟩
        rw [hafter]
        exact .refl conn

end Going

theorem alike_write (conn : Connection) (room : Nat) : Alike (conn.write room).2 conn := by
  rcases write_effect conn room with ⟨writer, hafter⟩ | hafter
  · rw [hafter]
    exact ⟨rfl, rfl, rfl, rfl, rfl, rfl, rfl, rfl⟩
  · rw [hafter]
    exact ⟨rfl, rfl, rfl, rfl, rfl, rfl, rfl, rfl⟩

theorem alike_takeItem (conn : Connection) : Alike conn.takeItem conn := by
  have heffect := takeItem_effect conn
  generalize conn.takeItem = after at heffect ⊢
  cases heffect <;> exact ⟨rfl, rfl, rfl, rfl, rfl, rfl, rfl, rfl⟩

theorem alike_completeBy (conn : Connection) (key : Nat) (result : HandlerResult) :
    Alike (conn.completeBy key result) conn := by
  cases hservice : conn.service? key with
  | none =>
      rw [completeBy_of_none hservice]
      exact .refl conn
  | some service =>
      rw [completeBy_of_some hservice, complete_eq]
      exact ⟨rfl, rfl, rfl, rfl, rfl, rfl, rfl, rfl⟩

/-- A service that has been done leaves, and nothing is new. -/
theorem yield_completeBy (conn : Connection) (key : Nat) (result : HandlerResult) :
    conn.yield (.act (.complete key result)) = .nothing := by
  cases hservice : conn.service? key with
  | none => exact yield_of_eq (completeBy_of_none hservice result) rfl
  | some service =>
      have hafter : conn.perform (.act (.complete key result)) = _ :=
        (completeBy_of_some hservice result).trans (complete_eq conn service result)
      apply Yield.ext
      · show (conn.perform (.act (.complete key result))).services.drop conn.services.length = []
        rw [hafter]
        exact List.drop_eq_nil_of_le (List.length_filter_le _ _)
      · show {slot | slot ∈ PendingTable.received conn.pending
          (conn.perform (.act (.complete key result))).pending} = ∅
        rw [hafter]
        simp
      · rfl

/-- What happens beside the stream leaves a connection alike to what it was, and brings nothing. -/
theorem alike_of_aside {conn : Connection} (h : conn.Going) {step : Step}
    (hpermits : conn.Permits step) (haside : step.counts = false) :
    Alike (conn.perform step) conn ∧ conn.yield step = .nothing := by
  -- The writer touches neither services nor slots.
  have hwriter : ∀ {step : Step}, (conn.perform step).services = conn.services →
      (conn.perform step).pending = conn.pending → conn.startsBy step = [] →
        conn.yield step = .nothing := by
    intro step hservices hpending hstarts
    exact yield_eq_nothing hservices (by rw [hpending, PendingTable.received_self]) hstarts
  cases step with
  | receive data => cases haside
  | receiveEnd => cases haside
  | request cluster payload timeout now => cases haside
  | poll key now => exact h.alike_pollBy hpermits
  | write room =>
      refine ⟨alike_write conn room, hwriter ?_ ?_ rfl⟩
      · show (conn.write room).2.services = conn.services
        rcases write_effect conn room with ⟨writer, hafter⟩ | hafter
        · rw [hafter]
        · rw [hafter]
          rfl
      · exact congrArg Desk.pending (desk_write conn room)
  | act act =>
      cases act with
      | complete key result =>
          exact ⟨alike_completeBy conn key result, yield_completeBy conn key result⟩
      | takeItem =>
          refine ⟨alike_takeItem conn, hwriter ?_ ?_ rfl⟩
          · show conn.takeItem.services = conn.services
            have heffect := takeItem_effect conn
            generalize conn.takeItem = after at heffect ⊢
            cases heffect <;> rfl
          · exact congrArg Desk.pending (desk_takeItem conn)
      | receiveFault fault => cases haside
      | abandon key => cases hpermits.undisturbed
      | writeFault fault => cases hpermits.undisturbed
      | close => cases hpermits.undisturbed
      | endWriter => cases hpermits.undisturbed
      | drop => cases hpermits.undisturbed

end Connection

end Switchboard
