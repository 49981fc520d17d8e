import Mathlib.Data.Set.Card
import Switchboard.Proofs.Connection.Placement
import Switchboard.Proofs.Connection.Reception

/-!
# Whose entries are in the table

A call registers its number, an answer or the loss of the connection takes its entry out of the
table, and the call ends when its caller is told a result or gives it up. What a step does of this
is noted without a look at the table (`EntryMark`, `marks`). The entries are then the numbers of the
calls that wait by these notes, and the calls in progress are those that are not over (`Waits`,
`IsInProgress`, `listed_run`). A call that ends takes out its own entry and no other, because no two
calls of a connection have the same number (`entries_iff_waits`).
-/

namespace Switchboard

/-- What happens to the calls of a connection and to their entries. -/
inductive EntryMark where
  /-- A call has registered its number. -/
  | registered (id : RequestId)
  /-- An answer to the number is heard. -/
  | answered (id : RequestId)
  /-- The connection is lost. -/
  | cancelled
  /-- The call of the number has returned or has been dropped. -/
  | ended (id : RequestId)
deriving DecidableEq

namespace EntryMark

/-- The number that a call has registered. -/
def registered? : EntryMark → Option RequestId
  | registered id => some id
  | _ => none

/-- Whether the call of the number is over. -/
def ends (id : RequestId) : EntryMark → Bool
  | ended other => other = id
  | _ => false

/-- Whether the entry of the number is taken out. -/
def takes (id : RequestId) : EntryMark → Bool
  | answered other => other = id
  | cancelled => true
  | ended other => other = id
  | registered _ => false

end EntryMark

/-- Of what is noted, a call has registered the number, and is not over. -/
def IsInProgress (log : List EntryMark) (id : RequestId) : Prop :=
  ∃ before after, log = before ++ .registered id :: after ∧ ∀ mark ∈ after, mark.ends id = false

/-- Of what is noted, a call has registered the number, and has neither been over nor resolved by an
answer or the loss of the connection since. -/
def Waits (log : List EntryMark) (id : RequestId) : Prop :=
  ∃ before after, log = before ++ .registered id :: after ∧ ∀ mark ∈ after, mark.takes id = false

/-! ## Numbers that come and go -/

section Remaining

/-- Numbers of which one is registered, or some go. -/
def remaining (leaves : RequestId → EntryMark → Bool) (ids : List RequestId) (mark : EntryMark) :
    List RequestId :=
  (ids.filter fun id => !leaves id mark) ++ mark.registered?.toList

variable {leaves : RequestId → EntryMark → Bool}

theorem mem_remaining {ids : List RequestId} {mark : EntryMark} {id : RequestId} :
    id ∈ remaining leaves ids mark ↔
      (id ∈ ids ∧ leaves id mark = false) ∨ mark = .registered id := by
  unfold remaining
  cases mark with
  | registered other => simp [EntryMark.registered?, eq_comm (a := id)]
  | answered other => simp [EntryMark.registered?]
  | cancelled => simp [EntryMark.registered?]
  | ended other => simp [EntryMark.registered?]

/-- The numbers that are left are those that have been registered and have not gone since. -/
theorem mem_foldl_remaining {log : List EntryMark} {id : RequestId} :
    id ∈ log.foldl (remaining leaves) [] ↔
      ∃ before after, log = before ++ .registered id :: after ∧
        ∀ mark ∈ after, leaves id mark = false := by
  induction log using List.reverseRecOn with
  | nil => simp
  | append_singleton log mark ih =>
      rw [List.foldl_append, List.foldl_cons, List.foldl_nil, mem_remaining, ih]
      constructor
      · rintro (⟨⟨before, after, rfl, hafter⟩, hstays⟩ | rfl)
        · refine ⟨before, after ++ [mark], by simp, ?_⟩
          intro other hother
          rcases List.mem_append.1 hother with hold | hnew
          · exact hafter other hold
          · rwa [List.mem_singleton.1 hnew]
        · exact ⟨log, [], rfl, fun _ h => nomatch h⟩
      · rintro ⟨before, after, hlog, hafter⟩
        induction after using List.reverseRecOn with
        | nil =>
            obtain ⟨-, hlast⟩ := List.append_inj' hlog rfl
            exact Or.inr (List.singleton_inj.1 hlast)
        | append_singleton after last _ =>
            rw [← List.cons_append, ← List.append_assoc] at hlog
            obtain ⟨rfl, hlast⟩ := List.append_inj' hlog rfl
            obtain rfl := List.singleton_inj.1 hlast
            refine Or.inl ⟨⟨before, after, rfl, ?_⟩, ?_⟩
            · exact fun other hother => hafter other (List.mem_append_left _ hother)
            · exact hafter mark (List.mem_append_right _ List.mem_cons_self)

end Remaining

theorem isInProgress_iff {log : List EntryMark} {id : RequestId} :
    IsInProgress log id ↔ id ∈ log.foldl (remaining EntryMark.ends) [] := mem_foldl_remaining.symm

theorem waits_iff {log : List EntryMark} {id : RequestId} :
    Waits log id ↔ id ∈ log.foldl (remaining EntryMark.takes) [] := mem_foldl_remaining.symm

namespace Connection

/-! ## What is noted of a step -/

/-- The numbers to which messages are answers. -/
def answeredIn (messages : List Message) : List RequestId :=
  messages.filterMap fun message => message.outcome?.map Prod.fst

/-- What is noted of a step. A request that does not fit into a frame is registered, and over at
once. -/
def marks (conn : Connection) : Step → List EntryMark
  | .receive data =>
      match conn.reader with
      | none => []
      | some decoder =>
          (answeredIn (heard (decoder.extend data).drain.1)).map .answered ++
            if endsIn (decoder.extend data).drain.1 then [.cancelled] else []
  | .request cluster payload timeout now =>
      match (conn.request cluster payload timeout now).1 with
      | .started _ => [.registered ⟨conn.ids.next⟩]
      | .refused (.protocol _) => [.registered ⟨conn.ids.next⟩, .ended ⟨conn.ids.next⟩]
      | _ => []
  | .poll key now =>
      match conn.call? key with
      | none => []
      | some call => if (conn.poll call now).1.isSome then [.ended call.id] else []
  | .act (.abandon key) => ((conn.call? key).map fun call => .ended call.id).toList
  | step => if conn.endsBy step then [.cancelled] else []

/-- All that is noted of a run, in order. -/
def markTrace (conn : Connection) : List Step → List EntryMark
  | [] => []
  | step :: steps => conn.marks step ++ markTrace (conn.perform step) steps

/-- The numbers that have entries. -/
def waitingIds (conn : Connection) : List RequestId := conn.pending.entries.map Prod.fst

/-- The numbers of the calls in progress. -/
def callIds (conn : Connection) : List RequestId := conn.calls.map Call.id

/-! ## What a step does to the numbers -/

/-- The numbers of a desk behind a step of which `log` is noted. -/
structure Follows (before : Desk) (log : List EntryMark) (after : Desk) : Prop where
  waiting : after.pending.entries.map Prod.fst =
    log.foldl (remaining EntryMark.takes) (before.pending.entries.map Prod.fst)
  calls : after.calls.map Call.id = log.foldl (remaining EntryMark.ends) (before.calls.map Call.id)

/-- Marks that neither register nor end anything leave the numbers alone. -/
theorem foldl_remaining_of_stays {leaves : RequestId → EntryMark → Bool} {log : List EntryMark}
    {ids : List RequestId}
    (h : ∀ mark ∈ log, mark.registered? = none ∧ ∀ id, leaves id mark = false) :
    log.foldl (remaining leaves) ids = ids := by
  induction log with
  | nil => rfl
  | cons mark log ih =>
      obtain ⟨hnone, hstays⟩ := h mark List.mem_cons_self
      rw [List.foldl_cons, remaining, hnone]
      simpa [hstays] using ih fun other hother => h other (List.mem_cons_of_mem _ hother)

/-- Answers take out the entries of their numbers. -/
theorem foldl_answered (messages : List Message) (ids : List RequestId) :
    ((answeredIn messages).map EntryMark.answered).foldl (remaining EntryMark.takes) ids =
      ids.filter fun id => (settling messages id).isNone := by
  induction messages generalizing ids with
  | nil => simp [answeredIn]
  | cons message messages ih =>
      have hsettling : ∀ id, settling (message :: messages) id =
          (settling [message] id).or (settling messages id) := settling_append [message] messages
      unfold answeredIn at ih ⊢
      cases houtcome : message.outcome? with
      | none =>
          have hnone : ∀ id, settling [message] id = none := by
            intro id
            simp [settling, Message.answerTo?, houtcome]
          rw [List.filterMap_cons_none (by rw [houtcome]; rfl), ih]
          simp only [hsettling, hnone, Option.none_or]
      | some answer =>
          have hsome : ∀ id, (settling [message] id).isNone = !decide (answer.1 = id) := by
            intro id
            by_cases hid : answer.1 = id <;> simp [settling, Message.answerTo?, houtcome, hid]
          rw [List.filterMap_cons_some (by rw [houtcome]; rfl), List.map_cons, List.foldl_cons, ih]
          simp [remaining, EntryMark.registered?, EntryMark.takes, List.filter_filter, hsettling,
            hsome, Bool.and_comm, eq_comm]

namespace Follows

variable {a b c : Desk}

theorem refl (desk : Desk) : Follows desk [] desk := ⟨rfl, rfl⟩

theorem trans {log more : List EntryMark} (h : Follows a log b) (h' : Follows b more c) :
    Follows a (log ++ more) c where
  waiting := by rw [List.foldl_append, ← h.waiting, h'.waiting]
  calls := by rw [List.foldl_append, ← h.calls, h'.calls]

/-- The connection is lost. -/
theorem cancel (desk : Desk) :
    Follows desk [.cancelled] { desk with pending := (desk.pending.cancelAll .closed).2 } where
  waiting := by simp [PendingTable.cancelAll, remaining, EntryMark.registered?, EntryMark.takes]
  calls := by simp [remaining, EntryMark.registered?, EntryMark.ends]

/-- Messages are heard. -/
theorem hear (desk : Desk) (messages : List Message) :
    Follows desk ((answeredIn messages).map .answered)
      { desk with pending := desk.pending.settleBy (settling messages) } where
  waiting := by
    rw [foldl_answered, List.filter_map]
    rfl
  calls := by
    refine (foldl_remaining_of_stays ?_).symm
    rintro mark hmark
    obtain ⟨id, -, rfl⟩ := List.mem_map.1 hmark
    exact ⟨rfl, fun _ => rfl⟩

/-- A call begins. -/
theorem begin (desk : Desk) (call : Call) {nextCall : CallKey} {pending : PendingTable}
    (hregister : desk.pending.register call.id = (.ok call.slot, pending)) :
    Follows desk [.registered call.id] ⟨desk.calls ++ [call], nextCall, pending⟩ where
  waiting := by
    rw [(PendingTable.register_eq_ok hregister).2.2.1]
    simp [remaining, EntryMark.registered?, EntryMark.takes]
  calls := by simp [remaining, EntryMark.registered?, EntryMark.ends]

section Kept

variable {desk : Desk} (h : desk.Kept)

include h

/-- A call ends, and drops its slot. -/
theorem without (hdistinct : (desk.calls.map Call.id).Nodup) {call : Call}
    (hcall : call ∈ desk.calls) : Follows desk [.ended call.id] (desk.without call) where
  waiting := by
    obtain ⟨slot, hslot, hident⟩ := h.exists_slot hcall
    obtain ⟨hkey, hid⟩ := Prod.mk.inj hident
    show (desk.pending.drop call.slot).entries.map Prod.fst = _
    rw [← hkey, h.matched.drop_eq hslot, hid]
    have hfilter : (desk.pending.settleBy (PendingTable.only call.id .orphaned)).entries =
        desk.pending.entries.filter fun entry => entry.1 ≠ call.id := by
      refine List.filter_congr fun entry _ => ?_
      by_cases hentry : entry.1 = call.id <;> simp [PendingTable.only, hentry]
    rw [hfilter]
    simp [remaining, EntryMark.registered?, EntryMark.takes, List.filter_map, Function.comp_def,
      eq_comm]
  calls := by
    -- The name and the number of a call tell it apart from the others alike.
    have hfilter : (desk.calls.filter fun other => other.key ≠ call.key) =
        desk.calls.filter fun other => other.id ≠ call.id := by
      refine List.filter_congr fun other hother => decide_eq_decide.2 (not_congr ⟨?_, ?_⟩)
      · exact fun hkey => congrArg Call.id (Lookup.eq_of_key h.distinct hother hcall hkey)
      · exact fun hid => congrArg Call.key (Lookup.eq_of_key hdistinct hother hcall hid)
    show (desk.calls.filter _).map Call.id = _
    rw [hfilter]
    simp [remaining, EntryMark.registered?, EntryMark.ends, List.filter_map, Function.comp_def,
      eq_comm]

/-- A call is registered, and is over at once. -/
theorem withdrawn {id : RequestId} {slot : SlotKey} {pending : PendingTable}
    (hregister : desk.pending.register id = (.ok slot, pending))
    (hfresh : ∀ call ∈ desk.calls, call.id ≠ id) :
    Follows desk [.registered id, .ended id] { desk with pending := pending.drop slot } where
  waiting := by
    have hnone := PendingTable.ne_of_holder?_eq_none (PendingTable.of_register hregister).2.2
    have hkept : (desk.pending.entries.map Prod.fst).filter (fun other => other ≠ id) =
        desk.pending.entries.map Prod.fst := by
      refine List.filter_eq_self.2 fun other hother => ?_
      obtain ⟨entry, hentry, rfl⟩ := List.mem_map.1 hother
      exact decide_eq_true (hnone entry hentry)
    rw [h.matched.drop_register hregister]
    simpa [remaining, EntryMark.registered?, EntryMark.takes, eq_comm] using hkept.symm
  calls := by
    have hkept : (desk.calls.map Call.id).filter (fun other => other ≠ id) =
        desk.calls.map Call.id := by
      refine List.filter_eq_self.2 fun other hother => ?_
      obtain ⟨call, hcall, rfl⟩ := List.mem_map.1 hother
      exact decide_eq_true (hfresh call hcall)
    simpa [remaining, EntryMark.registered?, EntryMark.ends, eq_comm] using hkept.symm

end Kept

end Follows

section Steps

variable (conn : Connection)

theorem follows_endReader (reason : ClientError) :
    Follows conn.desk [.cancelled] (conn.endReader reason).desk := by
  unfold endReader
  rw [desk_tearDown]
  exact Follows.cancel conn.desk

theorem follows_receive {decoder : Decoder} (hmatched : conn.pending.Matched)
    (hreader : conn.reader = some decoder) (data : ByteArray) :
    Follows conn.desk (conn.marks (.receive data)) (conn.receive data).desk := by
  have hheard := Follows.hear conn.desk (heard (decoder.extend data).drain.1)
  simp only [marks, hreader]
  rw [receive_eq_hear hmatched hreader, ← isSome_reasonIn]
  generalize hmiddle : ({ conn with
    reader := some (decoder.extend data).drain.2 } : Connection).hear
    (heard (decoder.extend data).drain.1) = middle
  have hdesk : middle.desk = { conn.desk with
      pending := conn.desk.pending.settleBy (settling (heard (decoder.extend data).drain.1)) } := by
    rw [← hmiddle]
    rfl
  rw [← hdesk] at hheard
  apply hheard.trans
  cases reasonIn (decoder.extend data).drain.1 with
  | none => exact .refl _
  | some reason => exact follows_endReader middle reason

/-- A reader that may end the connection. -/
theorem follows_readerEnds (reason : ClientError) :
    Follows conn.desk (if conn.reader.isSome then [.cancelled] else [])
      (if conn.reader.isSome then conn.endReader reason else conn).desk := by
  split
  · exact follows_endReader conn reason
  · exact .refl _

theorem follows_writeFault (fault : TransportFault) :
    Follows conn.desk (conn.marks (.act (.writeFault fault))) (conn.writeFault fault).desk := by
  unfold marks endsBy writeFault
  cases conn.writer with
  | idle => exact .refl _
  | ended => exact .refl _
  | parting frame written => exact .refl _
  | writing frame written =>
      have hdesk : (conn.tearDown (.sendFailed fault)).endWriter.desk = conn.cutOff.desk :=
        desk_tearDown conn (.sendFailed fault)
      simp only [if_true]
      rw [hdesk]
      exact Follows.cancel conn.desk

/-- A request that is refused because it does not fit has been registered before. -/
theorem register_of_refused {cluster : String} {payload : ByteArray} {timeout : Duration}
    {now : Instant} {fault : ProtocolError}
    (h : (conn.request cluster payload timeout now).1 = .refused (.protocol fault)) :
    ∃ slot pending, conn.pending.register ⟨conn.ids.next⟩ = (.ok slot, pending) ∧
      (conn.request cluster payload timeout now).2 =
        { conn with ids := ⟨conn.ids.next + 1⟩, pending := pending.drop slot } := by
  unfold request RequestIds.take at h ⊢
  by_cases hzero : timeout = .zero
  · rw [if_pos hzero] at h
    cases h
  · by_cases hconnected : (!conn.connected) = true
    · rw [if_neg hzero, if_pos hconnected] at h
      cases h
    · by_cases hid : conn.ids.next = RequestIds.exhausted
      · simp only [if_neg hzero, if_neg hconnected, if_pos hid] at h
        cases h
      · simp only [if_neg hzero, if_neg hconnected, if_neg hid] at h ⊢
        cases hregister : conn.pending.register ⟨conn.ids.next⟩ with
        | mk result pending =>
            cases result with
            | error error =>
                simp only [hregister, CallStart.refused.injEq] at h
                unfold PendingTable.register at hregister
                rw [h] at hregister
                split at hregister
                · cases hregister
                · split at hregister <;> cases hregister
            | ok slot =>
                simp only [hregister] at h ⊢
                cases hencode : (Message.request ⟨conn.ids.next⟩ cluster (wireTimeout timeout)
                    payload).encode with
                | error other => exact ⟨slot, pending, rfl, rfl⟩
                | ok frame =>
                    rw [hencode] at h
                    cases h

/-- What is noted of a call that begins: nothing, or that it has been registered under the number
that was next. -/
theorem request_marks (cluster : String) (payload : ByteArray) (timeout : Duration)
    (now : Instant) :
    (conn.marks (.request cluster payload timeout now) = [] ∧
      (conn.request cluster payload timeout now).2.desk = conn.desk) ∨
    ∃ slot pending, conn.pending.register ⟨conn.ids.next⟩ = (.ok slot, pending) ∧
      (conn.request cluster payload timeout now).2.ids.next = conn.ids.next + 1 ∧
      ((conn.marks (.request cluster payload timeout now) =
            [.registered ⟨conn.ids.next⟩, .ended ⟨conn.ids.next⟩] ∧
          (conn.request cluster payload timeout now).2.desk =
            { conn.desk with pending := pending.drop slot }) ∨
        ∃ call nextCall, call.id = ⟨conn.ids.next⟩ ∧ call.slot = slot ∧
          conn.marks (.request cluster payload timeout now) = [.registered ⟨conn.ids.next⟩] ∧
          (conn.request cluster payload timeout now).2.desk =
            ⟨conn.calls ++ [call], nextCall, pending⟩) := by
  by_cases hprotocol : ∃ fault,
      (conn.request cluster payload timeout now).1 = .refused (.protocol fault)
  · obtain ⟨fault, hrefused⟩ := hprotocol
    obtain ⟨slot, pending, hregister, hafter⟩ := register_of_refused conn hrefused
    refine Or.inr ⟨slot, pending, hregister, by rw [hafter], Or.inl ⟨?_, by rw [hafter]; rfl⟩⟩
    simp only [marks, hrefused]
  · have heffect := request_effect conn cluster payload timeout now
    simp only [marks]
    generalize (conn.request cluster payload timeout now).1 = start at heffect hprotocol ⊢
    generalize (conn.request cluster payload timeout now).2 = after at heffect ⊢
    cases heffect with
    | unwritten slot pending fault hid hregister => exact absurd ⟨fault, rfl⟩ hprotocol
    | exhausted hid => exact Or.inl ⟨rfl, rfl⟩
    | started slot pending hid hregister hfits =>
        exact Or.inr ⟨slot, pending, hregister, rfl, Or.inr ⟨_, _, rfl, rfl, rfl, rfl⟩⟩
    -- Otherwise the call has not come to be registered.
    | declined error =>
        cases error <;> first | exact Or.inl ⟨rfl, rfl⟩ | exact absurd ⟨_, rfl⟩ hprotocol
    | unregistered error hid =>
        cases error <;> first | exact Or.inl ⟨rfl, rfl⟩ | exact absurd ⟨_, rfl⟩ hprotocol

/-- A step that registers a number has drawn it. -/
theorem registered_marks (step : Step) :
    (conn.marks step).filterMap EntryMark.registered? = [] ∨
      ((conn.marks step).filterMap EntryMark.registered? = [⟨conn.ids.next⟩] ∧
        (conn.perform step).ids.next = conn.ids.next + 1) := by
  have hcancelled : ∀ lost : Bool,
      (if lost then [EntryMark.cancelled] else []).filterMap EntryMark.registered? = [] := by
    intro lost
    cases lost <;> rfl
  -- Only a request registers a number. What other steps note is that entries go.
  cases step with
  | request cluster payload timeout now =>
      rcases conn.request_marks cluster payload timeout now with ⟨hmarks, -⟩ |
        ⟨slot, pending, -, hnext, ⟨hmarks, -⟩ | ⟨call, nextCall, -, -, hmarks, -⟩⟩
      · rw [hmarks]
        exact Or.inl rfl
      · rw [hmarks]
        exact Or.inr ⟨rfl, hnext⟩
      · rw [hmarks]
        exact Or.inr ⟨rfl, hnext⟩
  | receive data =>
      refine Or.inl ?_
      simp only [marks]
      split
      · rfl
      · rw [List.filterMap_append, List.filterMap_map, hcancelled, List.append_nil]
        exact List.filterMap_eq_nil_iff.2 fun _ _ => rfl
  | poll key now =>
      refine Or.inl ?_
      simp only [marks]
      split
      · rfl
      · split <;> rfl
  | receiveEnd => exact Or.inl (hcancelled _)
  | write room => exact Or.inl rfl
  | act act =>
      cases act with
      | abandon key =>
          refine Or.inl ?_
          simp only [marks]
          cases conn.call? key <;> rfl
      | _ =>
          refine Or.inl ?_
          simp only [marks]
          exact hcancelled _

end Steps

section Kept

variable {conn : Connection} (h : conn.desk.Kept)

include h

theorem follows_request (cluster : String) (payload : ByteArray) (timeout : Duration)
    (now : Instant)
    (hfresh : (conn.request cluster payload timeout now).2.ids.next = conn.ids.next + 1 →
      ∀ call ∈ conn.calls, call.id ≠ ⟨conn.ids.next⟩) :
    Follows conn.desk (conn.marks (.request cluster payload timeout now))
      (conn.request cluster payload timeout now).2.desk := by
  rcases conn.request_marks cluster payload timeout now with ⟨hmarks, hdesk⟩ |
    ⟨slot, pending, hregister, hnext, ⟨hmarks, hdesk⟩ | ⟨call, nextCall, hid, rfl, hmarks, hdesk⟩⟩
  · rw [hmarks, hdesk]
    exact .refl _
  · rw [hmarks, hdesk]
    exact Follows.withdrawn h hregister (hfresh hnext)
  · rw [hmarks, hdesk, ← hid]
    exact Follows.begin conn.desk call (hid ▸ hregister)

/-- A call that is looked after goes on, or it is dropped like one that is given up. -/
theorem desk_poll {call : Call} (hcall : call ∈ conn.calls) (now : Instant) :
    (conn.poll call now).2.desk =
      if (conn.poll call now).1.isSome then conn.desk.without call else conn.desk := by
  obtain ⟨slot, hslot, hident⟩ := h.exists_slot hcall
  rw [poll_eq_verdict h.matched hslot (congrArg Prod.fst hident)]
  simp only
  split <;> rfl

theorem follows_perform (hdistinct : (conn.calls.map Call.id).Nodup) (step : Step)
    (hfresh : (conn.perform step).ids.next = conn.ids.next + 1 →
      ∀ call ∈ conn.calls, call.id ≠ ⟨conn.ids.next⟩) :
    Follows conn.desk (conn.marks step) (conn.perform step).desk := by
  cases step with
  | receive data =>
      cases hreader : conn.reader with
      | none =>
          have hnone : conn.perform (.receive data) = conn := receive_of_none hreader data
          simp only [marks, hreader, hnone]
          exact .refl _
      | some decoder => exact follows_receive conn h.matched hreader data
  | receiveEnd => exact follows_readerEnds conn _
  | write room =>
      show Follows conn.desk [] (conn.write room).2.desk
      rw [desk_write]
      exact .refl _
  | request cluster payload timeout now =>
      exact follows_request h cluster payload timeout now hfresh
  | poll key now =>
      show Follows conn.desk (conn.marks (.poll key now)) (conn.pollBy key now).2.desk
      simp only [marks]
      cases hcall : conn.call? key with
      | none =>
          rw [pollBy_of_none hcall]
          exact .refl _
      | some call =>
          have hmem : call ∈ conn.calls := List.mem_of_find?_eq_some hcall
          rw [pollBy_of_some hcall, desk_poll h hmem]
          simp only
          split
          · exact Follows.without h hdistinct hmem
          · exact .refl _
  | act act =>
      cases act with
      | abandon key =>
          show Follows conn.desk (conn.marks (.act (.abandon key))) (conn.abandon key).desk
          simp only [marks, abandon]
          cases hcall : conn.call? key with
          | none => exact .refl _
          | some call => exact Follows.without h hdistinct (List.mem_of_find?_eq_some hcall)
      | complete key result =>
          show Follows conn.desk [] (conn.completeBy key result).desk
          rw [desk_completeBy]
          exact .refl _
      | takeItem =>
          show Follows conn.desk [] conn.takeItem.desk
          rw [desk_takeItem]
          exact .refl _
      | writeFault fault => exact follows_writeFault conn fault
      | receiveFault fault => exact follows_readerEnds conn _
      | close =>
          show Follows conn.desk [.cancelled] conn.close.2.desk
          rw [desk_close]
          exact Follows.cancel conn.desk
      | endWriter => exact .refl _
      | drop => exact Follows.cancel conn.desk

end Kept

/-! ## A run -/

/-- What is noted of a run tells which numbers have entries and which calls are in progress. No
number has been registered twice. -/
structure Listed (log : List EntryMark) (drawn : Nat) (conn : Connection) : Prop where
  sound : conn.Sound
  told : ∃ heard, Desk.Told heard conn.desk
  numbered : ∃ accepted, Numbered accepted drawn conn
  waiting : conn.waitingIds = log.foldl (remaining EntryMark.takes) []
  calls : conn.callIds = log.foldl (remaining EntryMark.ends) []
  registered : ∀ id ∈ log.filterMap EntryMark.registered?, id.value.toNat ≤ drawn
  distinct : (log.filterMap EntryMark.registered?).Nodup

theorem listed_new (options : ConnectionOptions) (cluster connectionId : String)
    (decoder : Decoder) : Listed [] 0 (new options cluster connectionId decoder) where
  sound := sound_new options cluster connectionId decoder
  told := ⟨[], Desk.told_new⟩
  numbered := ⟨[], numbered_new options cluster connectionId decoder⟩
  waiting := rfl
  calls := rfl
  registered := fun _ h => nomatch h
  distinct := List.nodup_nil

namespace Listed

variable {log : List EntryMark} {drawn : Nat} {conn : Connection} (h : Listed log drawn conn)

include h

theorem kept : conn.desk.Kept := h.told.choose_spec.kept

/-- While there are numbers left, the next has not been drawn. -/
theorem next_eq {step : Step} (hlast : drawn + conn.drawnBy step < UInt64.size)
    (hnext : (conn.perform step).ids.next = conn.ids.next + 1) :
    conn.ids.next.toNat = drawn + 1 ∧ conn.drawnBy step = 1 := by
  obtain ⟨accepted, hnumbered⟩ := h.numbered
  have hone := drawnBy_of_succ hnext
  have htoNat := toNat_next hnumbered.counted (by omega)
  omega

theorem follows (step : Step) (hlast : drawn + conn.drawnBy step < UInt64.size) :
    Follows conn.desk (conn.marks step) (conn.perform step).desk := by
  obtain ⟨accepted, hnumbered⟩ := h.numbered
  refine follows_perform h.kept hnumbered.callsDistinct step ?_
  intro hnext call hcall hid
  obtain ⟨htoNat, -⟩ := h.next_eq hlast hnext
  have hle := hnumbered.calls call hcall
  rw [hid] at hle
  change conn.ids.next.toNat ≤ drawn at hle
  omega

theorem perform (step : Step) (hlast : drawn + conn.drawnBy step < UInt64.size) :
    Listed (log ++ conn.marks step) (drawn + conn.drawnBy step) (conn.perform step) where
  sound := sound_perform h.sound step
  told := by
    obtain ⟨heard, htold⟩ := h.told
    exact ⟨_, htold.moves (moves_perform htold.kept step)⟩
  numbered := by
    obtain ⟨accepted, hnumbered⟩ := h.numbered
    exact ⟨_, hnumbered.perform h.sound step hlast⟩
  waiting := by
    rw [List.foldl_append, ← h.waiting]
    exact (h.follows step hlast).waiting
  calls := by
    rw [List.foldl_append, ← h.calls]
    exact (h.follows step hlast).calls
  registered := by
    rw [List.filterMap_append]
    intro id hid
    rcases List.mem_append.1 hid with hold | hnew
    · exact (h.registered id hold).trans (Nat.le_add_right _ _)
    · rcases conn.registered_marks step with hnone | ⟨hone, hnext⟩
      · rw [hnone] at hnew
        cases hnew
      · obtain ⟨htoNat, hdrawn⟩ := h.next_eq hlast hnext
        rw [hone, List.mem_singleton] at hnew
        rw [hnew, hdrawn]
        exact Nat.le_of_eq htoNat
  distinct := by
    rw [List.filterMap_append]
    rcases conn.registered_marks step with hnone | ⟨hone, hnext⟩
    · rw [hnone, List.append_nil]
      exact h.distinct
    · -- The number is larger than those that have been registered before.
      obtain ⟨htoNat, -⟩ := h.next_eq hlast hnext
      rw [hone]
      refine List.nodup_append.2 ⟨h.distinct, List.nodup_singleton _, ?_⟩
      rintro id hid other hother rfl
      have hle := h.registered id hid
      rw [List.mem_singleton.1 hother] at hle
      change conn.ids.next.toNat ≤ drawn at hle
      omega

/-- The numbers last if there are more of them than calls. -/
theorem run (steps : List Step) (hfew : drawn + steps.countP Step.isRequest < UInt64.size) :
    ∃ drawn' ≤ drawn + steps.countP Step.isRequest,
      Listed (log ++ conn.markTrace steps) drawn' (conn.run steps) := by
  induction steps generalizing log drawn conn with
  | nil =>
      rw [markTrace, List.append_nil]
      exact ⟨drawn, Nat.le_add_right _ _, h⟩
  | cons step steps ih =>
      have hby := conn.drawnBy_le step h.sound
      rw [List.countP_cons] at hfew ⊢
      obtain ⟨drawn', hle, hlisted⟩ := ih (h.perform step (by omega)) (by omega)
      rw [markTrace, ← List.append_assoc]
      exact ⟨drawn', by omega, hlisted⟩

end Listed

/-- The entries of a connection, in any run with fewer calls than numbers. No number is registered
twice. The numbers with entries are those of the calls that wait by what is noted of the run, so the
count of the table is theirs, and the calls in progress are those that have registered and are not
over. An entry is that of a call in progress, and no two calls have the same number: so a call that
ends, whether its caller is told a result or gives it up, takes out its own entry, if it has one,
and leaves the others. A call that fails before it has begun leaves the entries as they are. -/
theorem entries_iff_waits (options : ConnectionOptions) (cluster connectionId : String)
    (decoder : Decoder) (steps : List Step) (hfew : steps.countP Step.isRequest < UInt64.size) :
    let start := new options cluster connectionId decoder
    let conn := start.run steps
    let log := start.markTrace steps
    (log.filterMap EntryMark.registered?).Nodup ∧
    (∀ id, id ∈ conn.waitingIds ↔ Waits log id) ∧
    conn.waitingIds.Nodup ∧ conn.pendingCount = {id | Waits log id}.ncard ∧
    (∀ id, id ∈ conn.callIds ↔ IsInProgress log id) ∧ conn.callIds.Nodup ∧
    (∀ entry ∈ conn.pending.entries, ∃ call ∈ conn.calls, call.id = entry.1 ∧ call.slot = entry.2) ∧
    (∀ call ∈ conn.calls, ∀ now result, (conn.poll call now).1 = some result →
      (conn.poll call now).2.waitingIds = conn.waitingIds.filter (· ≠ call.id) ∧
        (conn.poll call now).2.callIds = conn.callIds.filter (· ≠ call.id)) ∧
    (∀ call ∈ conn.calls,
      (conn.abandon call.key).waitingIds = conn.waitingIds.filter (· ≠ call.id) ∧
        (conn.abandon call.key).callIds = conn.callIds.filter (· ≠ call.id)) ∧
    (∀ name payload timeout now,
      (∀ key, (conn.request name payload timeout now).1 ≠ .started key) →
        (conn.request name payload timeout now).2.pending.entries = conn.pending.entries ∧
          (conn.request name payload timeout now).2.calls = conn.calls) := by
  intro start conn log
  obtain ⟨drawn, -, hlisted⟩ :=
    (listed_new options cluster connectionId decoder).run steps (by omega)
  obtain ⟨accepted, hnumbered⟩ := hlisted.numbered
  have hkept : conn.desk.Kept := hlisted.kept
  have hwaits : ∀ id, id ∈ conn.waitingIds ↔ Waits log id := by
    intro id
    rw [waits_iff, hlisted.waiting, List.nil_append]
  -- A call that ends leaves the numbers of the others.
  have hover : ∀ call ∈ conn.calls, ∀ after : Connection, after.desk = conn.desk.without call →
      after.waitingIds = conn.waitingIds.filter (· ≠ call.id) ∧
        after.callIds = conn.callIds.filter (· ≠ call.id) := by
    intro call hcall after hafter
    have hfollows := Follows.without hkept hnumbered.callsDistinct hcall
    rw [← hafter] at hfollows
    refine ⟨hfollows.waiting.trans ?_, hfollows.calls.trans ?_⟩
    · simp [remaining, EntryMark.registered?, EntryMark.takes, waitingIds, desk, eq_comm]
    · simp [remaining, EntryMark.registered?, EntryMark.ends, callIds, desk, eq_comm]
  refine ⟨hlisted.distinct, hwaits, hkept.matched.numbers, ?_, ?_, hnumbered.callsDistinct, ?_,
    ?_, ?_, ?_⟩
  · have hset : {id | Waits log id} = (conn.waitingIds.toFinset : Set RequestId) := by
      ext id
      simp [hwaits]
    have hcard : conn.waitingIds.toFinset.card = conn.waitingIds.length :=
      List.toFinset_card_of_nodup hkept.matched.numbers
    rw [hset, Set.ncard_coe_finset, hcard]
    exact (List.length_map _).symm
  · intro id
    rw [isInProgress_iff, hlisted.calls, List.nil_append]
  · intro entry hentry
    obtain ⟨slot, hslot, hident, -⟩ := hkept.matched.owned entry hentry
    obtain ⟨call, hcall, hsame⟩ := hkept.exists_call hslot
    obtain ⟨hkey, hid⟩ := Prod.mk.inj (hsame.trans hident)
    exact ⟨call, hcall, hid, hkey⟩
  · intro call hcall now result hresult
    apply hover call hcall
    rw [desk_poll hkept hcall, hresult]
    rfl
  · intro call hcall
    have hfound : conn.call? call.key = some call :=
      Lookup.find?_eq_some_of_mem hkept.distinct hcall
    apply hover call hcall
    rw [abandon, hfound]
    rfl
  · intro name payload timeout now hnot
    have heffect := request_effect conn name payload timeout now
    generalize (conn.request name payload timeout now).1 = begun at heffect hnot
    generalize (conn.request name payload timeout now).2 = after at heffect ⊢
    cases heffect with
    | declined error => exact ⟨rfl, rfl⟩
    | exhausted hid => exact ⟨rfl, rfl⟩
    | unregistered error hid => exact ⟨rfl, rfl⟩
    | unwritten slot pending fault hid hregister =>
        rw [hkept.matched.drop_register hregister]
        exact ⟨rfl, rfl⟩
    | started slot pending hid hregister hfits => exact absurd rfl (hnot _)

/-- Three calls, of which the second is answered and the first is given up. -/
def thinnedRun : List Step :=
  [.request "svc" ⟨#[1]⟩ (.ofSecs 30) 0, .request "svc" ⟨#[2]⟩ (.ofSecs 30) 0,
    .request "svc" ⟨#[3]⟩ (.ofSecs 30) 0, .receive (Message.reply ⟨2⟩ ⟨#[20]⟩).bytes,
    .act (.abandon 0)]

/-- Only the third call waits, and the second is still in progress. -/
theorem entries_iff_waits_thinnedRun :
    thinnedRun.countP Step.isRequest < UInt64.size ∧
      (∀ id, Waits (opened.markTrace thinnedRun) id ↔ id = ⟨3⟩) ∧
      (∀ id, IsInProgress (opened.markTrace thinnedRun) id ↔ id = ⟨2⟩ ∨ id = ⟨3⟩) ∧
      {id | Waits (opened.markTrace thinnedRun) id}.ncard = 1 := by
  have hfew : thinnedRun.countP Step.isRequest < UInt64.size := by decide
  have hwaiting : (opened.run thinnedRun).waitingIds = [⟨3⟩] := by decide +kernel
  have hcalls : (opened.run thinnedRun).callIds = [⟨2⟩, ⟨3⟩] := by decide +kernel
  have hsize : (opened.run thinnedRun).pendingCount = 1 := by decide +kernel
  obtain ⟨-, hwaits, -, hcount, hprogress, -⟩ :=
    entries_iff_waits (.new (.v4 .loopback defaultPort)) "clients" "conn-1" .new thinnedRun hfew
  refine ⟨hfew, ?_, ?_, hcount.symm.trans hsize⟩
  · intro id
    refine (hwaits id).symm.trans ?_
    show id ∈ (opened.run thinnedRun).waitingIds ↔ id = ⟨3⟩
    rw [hwaiting, List.mem_singleton]
  · intro id
    refine (hprogress id).symm.trans ?_
    show id ∈ (opened.run thinnedRun).callIds ↔ id = ⟨2⟩ ∨ id = ⟨3⟩
    rw [hcalls, List.mem_cons, List.mem_singleton]

end Connection

end Switchboard
