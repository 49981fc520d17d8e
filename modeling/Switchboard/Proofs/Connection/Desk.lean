import Switchboard.Client.Connection
import Switchboard.Proofs.Connection.Waiting

/-!
# Calls in progress and the slots they hold

The desk of a connection is what it knows about its calls: those in progress, and the table they
wait in. Whatever a connection does, its desk makes one of six moves (`Desk.Move`), two of which are
told about: an answer that is heard, with the slot that the table holds under its number at that
moment, and a call that ends. Between moves the slots are those of the calls in progress, in the
same order (`Desk.Kept`). A slot holds the first answer that was heard while the entry of its call
was in the table, and nothing else but the news that the connection is closed (`Desk.Told`).
-/

namespace Switchboard

/-- What happens to the calls of a connection. -/
inductive CallEvent where
  /-- An answer is heard. The slot is the one that the table holds under its number. -/
  | heard (id : RequestId) (outcome : Outcome) (holder : Option SlotKey)
  /-- A call ends with a result. -/
  | ended (call : Call) (result : Except ClientError ByteArray)
deriving DecidableEq

/-- The call that ends. -/
def CallEvent.ended? : CallEvent → Option Call
  | ended call _ => some call
  | heard .. => none

/-- Who a call is to the table: the name of its slot, and the number of its request. -/
def Call.ident (call : Call) : SlotKey × RequestId := (call.slot, call.id)

/-- The first answer to a call: it bears the number of the call, and the entry of the call is in the
table when it is heard. -/
def firstAnswer (log : List CallEvent) (ident : SlotKey × RequestId) : Option Outcome :=
  log.findSome? fun
    | .heard id outcome holder =>
        if holder = some ident.1 ∧ id = ident.2 then some outcome else none
    | .ended .. => none

theorem firstAnswer_append (log more : List CallEvent) (ident : SlotKey × RequestId) :
    firstAnswer (log ++ more) ident = (firstAnswer log ident).or (firstAnswer more ident) :=
  List.findSome?_append

theorem firstAnswer_heard (id : RequestId) (outcome : Outcome) (holder : Option SlotKey)
    (ident : SlotKey × RequestId) :
    firstAnswer [.heard id outcome holder] ident =
      if holder = some ident.1 ∧ id = ident.2 then some outcome else none := by
  unfold firstAnswer
  rw [List.findSome?_cons, List.findSome?_nil]
  split <;> simp_all

/-- Whether an outcome is what the other side has answered. -/
def Outcome.isAnswer : Outcome → Bool
  | reply _ | rejected _ => true
  | timedOut | closed => false

/-- What a slot holds, by the first answer to its call. -/
def SlotState.Tells (state : SlotState) : Option Outcome → Prop
  | some outcome => state = .resolved outcome
  | none => ∀ outcome, state = .resolved outcome → outcome = .closed

/-- The calls in progress and the table they wait in. -/
structure Desk where
  calls : List Call
  nextCall : CallKey
  pending : PendingTable

namespace Desk

/-- The desk without one of the calls. -/
def without (desk : Desk) (call : Call) : Desk :=
  { desk with
    calls := desk.calls.filter fun other => other.key ≠ call.key
    pending := desk.pending.drop call.slot }

/-- What a desk may do, and what is told of it. -/
inductive Move (desk : Desk) : List CallEvent → Desk → Prop
  /-- A call begins. -/
  | begin (call : Call) (pending : PendingTable) (hkey : call.key = desk.nextCall)
      (hregister : desk.pending.register call.id = (.ok call.slot, pending)) :
      Move desk [] { calls := desk.calls ++ [call], nextCall := desk.nextCall + 1, pending }
  /-- The name of a slot is passed over. -/
  | skip :
      Move desk []
        { desk with pending := { desk.pending with nextKey := desk.pending.nextKey + 1 } }
  /-- An answer is heard. -/
  | hear (id : RequestId) (outcome : Outcome) :
      Move desk [.heard id outcome (desk.pending.holder? id)]
        { desk with pending := (desk.pending.resolve id outcome).2 }
  /-- All calls that wait fail. -/
  | cancel : Move desk [] { desk with pending := (desk.pending.cancelAll .closed).2 }
  /-- A call ends. An answer that it ends with stands in its slot. -/
  | finish (call : Call) (result : Except ClientError ByteArray) (hcall : call ∈ desk.calls)
      (hresult : ∀ outcome : Outcome, outcome.isAnswer = true → result = outcome.toResult →
        desk.pending.poll call.slot = some outcome) :
      Move desk [.ended call result] (desk.without call)
  /-- A call is given up. -/
  | abandon (call : Call) (hcall : call ∈ desk.calls) : Move desk [] (desk.without call)

/-- Moves one after the other. -/
inductive Moves : Desk → List CallEvent → Desk → Prop
  | refl (desk : Desk) : Moves desk [] desk
  | cons {a b c : Desk} {log more : List CallEvent} (first : Move a log b) (rest : Moves b more c) :
      Moves a (log ++ more) c

theorem Move.moves {a b : Desk} {log : List CallEvent} (h : Move a log b) : Moves a log b := by
  have hmoves := Moves.cons h (.refl b)
  rwa [List.append_nil] at hmoves

theorem Moves.trans {a b c : Desk} {log more : List CallEvent} (h : Moves a log b)
    (h' : Moves b more c) : Moves a (log ++ more) c := by
  induction h with
  | refl desk => exact h'
  | cons first rest ih =>
      rw [List.append_assoc]
      exact .cons first (ih h')

/-- A table that has been closed stays closed. -/
theorem Moves.closed {a b : Desk} {log : List CallEvent} (h : Moves a log b)
    (hclosed : a.pending.closed = true) : b.pending.closed = true := by
  induction h with
  | refl desk => exact hclosed
  | cons first rest ih =>
      apply ih
      cases first with
      | begin call pending hkey hregister =>
          rw [(PendingTable.of_register hregister).1] at hclosed
          cases hclosed
      | skip => exact hclosed
      | hear id outcome => exact (PendingTable.closed_resolve _ id outcome).trans hclosed
      | cancel => rfl
      | finish call result hcall hresult =>
          exact (PendingTable.closed_drop _ call.slot).trans hclosed
      | abandon call hcall => exact (PendingTable.closed_drop _ call.slot).trans hclosed

/-! ## Every call holds its slot -/

/-- Calls have names of their own, and the slots are those of the calls, in the same order. -/
structure Kept (desk : Desk) : Prop where
  matched : desk.pending.Matched
  keys : ∀ call ∈ desk.calls, call.key < desk.nextCall
  distinct : (desk.calls.map Call.key).Nodup
  slots : desk.calls.map Call.ident = desk.pending.slots.map Slot.ident

namespace Kept

variable {desk : Desk} (h : desk.Kept)

include h

theorem exists_slot {call : Call} (hcall : call ∈ desk.calls) :
    ∃ slot ∈ desk.pending.slots, slot.ident = call.ident := by
  have hmem := List.mem_map_of_mem (f := Call.ident) hcall
  rw [h.slots] at hmem
  exact List.mem_map.1 hmem

theorem exists_call {slot : Slot} (hslot : slot ∈ desk.pending.slots) :
    ∃ call ∈ desk.calls, call.ident = slot.ident := by
  have hmem := List.mem_map_of_mem (f := Slot.ident) hslot
  rw [← h.slots] at hmem
  exact List.mem_map.1 hmem

theorem slots_distinct : (desk.calls.map Call.slot).Nodup := by
  have hkeys : desk.calls.map Call.slot = desk.pending.slots.map Slot.key := by
    have hfirst := congrArg (List.map Prod.fst) h.slots
    rwa [List.map_map, List.map_map] at hfirst
  rw [hkeys]
  exact h.matched.sound.distinct

/-- Another call has another slot. -/
theorem slot_ne_iff {call other : Call} (hcall : call ∈ desk.calls) (hother : other ∈ desk.calls) :
    other.slot ≠ call.slot ↔ other.key ≠ call.key := by
  constructor
  · rintro hne hkey
    exact hne (congrArg Call.slot (Lookup.eq_of_key h.distinct hother hcall hkey))
  · rintro hne hslot
    exact hne (congrArg Call.key (Lookup.eq_of_key h.slots_distinct hother hcall hslot))

theorem begin {call : Call} {pending : PendingTable} (hkey : call.key = desk.nextCall)
    (hregister : desk.pending.register call.id = (.ok call.slot, pending)) :
    Kept { calls := desk.calls ++ [call], nextCall := desk.nextCall + 1, pending } where
  matched := h.matched.register hregister
  keys := fun _ hother => Lookup.lt_succ_of_mem_snoc h.keys hkey hother
  distinct := by
    apply Lookup.nodup_snoc h.distinct
    intro other hother
    rw [hkey]
    exact Nat.ne_of_lt (h.keys other hother)
  slots := by
    obtain ⟨hslot, -, -, hslots⟩ := PendingTable.register_eq_ok hregister
    rw [hslots, List.map_append, List.map_append, h.slots, List.map_singleton, List.map_singleton,
      Call.ident, hslot]
    rfl

/-- Settling slots leaves every call its slot. -/
theorem settled {pending : PendingTable} (hmatched : pending.Matched)
    (hslots : pending.slots.map Slot.ident = desk.pending.slots.map Slot.ident) :
    Kept { desk with pending } where
  matched := hmatched
  keys := h.keys
  distinct := h.distinct
  slots := h.slots.trans hslots.symm

theorem skip :
    Kept { desk with pending := { desk.pending with nextKey := desk.pending.nextKey + 1 } } where
  matched :=
    { h.matched with
      sound :=
        { keys := fun slot hslot => Nat.lt_succ_of_lt (h.matched.sound.keys slot hslot)
          distinct := h.matched.sound.distinct
          entries := fun entry hentry =>
            (h.matched.sound.entries entry hentry).imp_left Nat.lt_succ_of_lt } }
  keys := h.keys
  distinct := h.distinct
  slots := h.slots

theorem without {call : Call} (hcall : call ∈ desk.calls) : (desk.without call).Kept := by
  obtain ⟨slot, hslot, hident⟩ := h.exists_slot hcall
  have hkey : slot.key = call.slot := congrArg Prod.fst hident
  refine ⟨?_, ?_, ?_, ?_⟩
  · show (desk.pending.drop call.slot).Matched
    rw [← hkey]
    exact h.matched.drop hslot
  · intro other hother
    exact h.keys other (List.mem_of_mem_filter hother)
  · exact h.distinct.sublist (List.filter_sublist.map Call.key)
  · have hcalls : (desk.calls.filter fun other => other.key ≠ call.key) =
        desk.calls.filter fun other => other.ident.1 ≠ call.slot := by
      refine List.filter_congr fun other hother => ?_
      exact decide_eq_decide.2 (h.slot_ne_iff hcall hother).symm
    have hslots : (desk.pending.drop call.slot).slots.map Slot.ident =
        (desk.pending.slots.map Slot.ident).filter fun ident => ident.1 ≠ call.slot := by
      rw [← hkey, h.matched.drop_eq hslot, ← PendingTable.ident_settleBy desk.pending,
        List.filter_map]
      rfl
    show (desk.calls.filter _).map Call.ident = (desk.pending.drop call.slot).slots.map Slot.ident
    rw [hcalls, hslots, ← h.slots, List.filter_map]
    rfl

end Kept

/-! ## The account of a desk -/

/-- The account of what has been told. Slots hold the first answers to their calls, and a call that
has ended is over. -/
structure Told (log : List CallEvent) (desk : Desk) : Prop where
  kept : desk.Kept
  /-- An answer goes to a slot that has been given out. -/
  named : ∀ id outcome key, .heard id outcome (some key) ∈ log → key < desk.pending.nextKey
  states : ∀ slot ∈ desk.pending.slots, slot.state.Tells (firstAnswer log slot.ident)
  past : ∀ call ∈ log.filterMap CallEvent.ended?,
    call.key < desk.nextCall ∧ ∀ other ∈ desk.calls, other.key ≠ call.key
  once : ((log.filterMap CallEvent.ended?).map Call.key).Nodup
  answered : ∀ call result, .ended call result ∈ log →
    ∀ outcome : Outcome, outcome.isAnswer = true → result = outcome.toResult →
      firstAnswer log call.ident = some outcome

theorem told_new : Told [] ⟨[], 0, .new⟩ where
  kept :=
    { matched := PendingTable.matched_new
      keys := fun _ h => nomatch h
      distinct := List.nodup_nil
      slots := rfl }
  named := fun _ _ _ h => nomatch h
  states := fun _ h => nomatch h
  past := fun _ h => nomatch h
  once := List.nodup_nil
  answered := fun _ _ h => nomatch h

namespace Told

variable {log : List CallEvent} {desk : Desk} (h : Told log desk)

include h

/-- A slot that waits has had no answer. -/
theorem firstAnswer_of_waiting {slot : Slot} (hslot : slot ∈ desk.pending.slots)
    (hwaiting : slot.state = .waiting) : firstAnswer log slot.ident = none := by
  have hstate := h.states slot hslot
  cases hfirst : firstAnswer log slot.ident with
  | none => rfl
  | some answer =>
      rw [hfirst, hwaiting] at hstate
      cases hstate

/-- What a caller finds in its slot, if it is an answer, is the first answer to its call. -/
theorem firstAnswer_of_poll {call : Call} (hcall : call ∈ desk.calls) {outcome : Outcome}
    (hanswer : outcome.isAnswer = true) (hpoll : desk.pending.poll call.slot = some outcome) :
    firstAnswer log call.ident = some outcome := by
  obtain ⟨slot, hslot, hident⟩ := h.kept.exists_slot hcall
  have hstate := h.states slot hslot
  have hkey : slot.key = call.slot := congrArg Prod.fst hident
  have hresolved : slot.state = .resolved outcome := by
    unfold PendingTable.poll at hpoll
    rw [← hkey, h.kept.matched.slot?_eq_some hslot, Option.map_some] at hpoll
    cases hfound : slot.state with
    | waiting =>
        rw [hfound] at hpoll
        cases hpoll
    | orphaned =>
        rw [hfound] at hpoll
        cases hpoll
        cases hanswer
    | resolved found =>
        rw [hfound] at hpoll
        cases hpoll
        rfl
  rw [hident, hresolved] at hstate
  cases hfirst : firstAnswer log call.ident with
  | some answer =>
      rw [hfirst] at hstate
      exact congrArg some (SlotState.resolved.inj hstate).symm
  | none =>
      -- Without an answer a slot is settled only when the connection is closed.
      rw [hfirst] at hstate
      have hclosed := hstate outcome rfl
      rw [hclosed] at hanswer
      cases hanswer

/-- A step of which nothing is told, and in which no call is new. -/
theorem silent {after : Desk} (hkept : after.Kept)
    (hcalls : ∀ call ∈ after.calls, call ∈ desk.calls) (hnext : after.nextCall = desk.nextCall)
    (hnextKey : desk.pending.nextKey ≤ after.pending.nextKey)
    (hstates : ∀ slot ∈ after.pending.slots, slot.state.Tells (firstAnswer log slot.ident)) :
    Told log after where
  kept := hkept
  named := fun id outcome key hheard => Nat.lt_of_lt_of_le (h.named id outcome key hheard) hnextKey
  states := hstates
  past := by
    intro call hcall
    obtain ⟨hlt, hothers⟩ := h.past call hcall
    exact ⟨hnext ▸ hlt, fun other hother => hothers other (hcalls other hother)⟩
  once := h.once
  answered := h.answered

/-- A slot that is settled without an answer. -/
theorem states_settleBy {f : RequestId → Option SlotState}
    (hf : ∀ id outcome, f id = some (.resolved outcome) → outcome = .closed) :
    ∀ slot ∈ (desk.pending.settleBy f).slots, slot.state.Tells (firstAnswer log slot.ident) := by
  intro slot hslot
  obtain ⟨old, hold, rfl⟩ := List.mem_map.1 hslot
  have hstate := h.states old hold
  rw [Slot.ident_settledBy]
  by_cases hwaiting : old.state = .waiting
  · rw [h.firstAnswer_of_waiting hold hwaiting]
    intro outcome hresolved
    rw [Slot.settledBy, if_pos hwaiting] at hresolved
    cases hfound : f old.id with
    | none =>
        rw [hfound] at hresolved
        cases hresolved
    | some state =>
        rw [hfound] at hresolved
        exact hf old.id outcome (hfound.trans (congrArg some hresolved))
  · rwa [Slot.settledBy_of_state hwaiting]

theorem begin {call : Call} {pending : PendingTable} (hkey : call.key = desk.nextCall)
    (hregister : desk.pending.register call.id = (.ok call.slot, pending)) :
    Told log { calls := desk.calls ++ [call], nextCall := desk.nextCall + 1, pending } := by
  obtain ⟨-, hnext, -, hslots⟩ := PendingTable.register_eq_ok hregister
  refine ⟨h.kept.begin hkey hregister, ?_, ?_, ?_, h.once, h.answered⟩
  · intro id outcome key hheard
    show key < pending.nextKey
    rw [hnext]
    exact Nat.lt_succ_of_lt (h.named id outcome key hheard)
  · intro slot hslot
    rw [hslots, List.mem_append, List.mem_singleton] at hslot
    rcases hslot with hold | rfl
    · exact h.states slot hold
    · -- The slot is new, so no answer has gone to it.
      have hnone : firstAnswer log (desk.pending.nextKey, call.id) = none := by
        apply List.findSome?_eq_none_iff.2
        intro event hevent
        cases event with
        | heard id outcome holder =>
            apply if_neg
            rintro ⟨rfl, -⟩
            exact Nat.lt_irrefl _ (h.named id outcome _ hevent)
        | ended call result => rfl
      show SlotState.waiting.Tells (firstAnswer log (desk.pending.nextKey, call.id))
      rw [hnone]
      exact fun _ hstate => nomatch hstate
  · intro other hother
    obtain ⟨hlt, hothers⟩ := h.past other hother
    refine ⟨Nat.lt_succ_of_lt hlt, ?_⟩
    intro more hmore
    rcases List.mem_append.1 hmore with hold | hnew
    · exact hothers more hold
    · rw [List.mem_singleton.1 hnew, hkey]
      exact Nat.ne_of_gt hlt

/-- The first answer that is heard for a call goes into its slot, and no other does. -/
theorem hear (id : RequestId) (outcome : Outcome) :
    Told (log ++ [.heard id outcome (desk.pending.holder? id)])
      { desk with pending := (desk.pending.resolve id outcome).2 } := by
  have hmatched := h.kept.matched
  rw [hmatched.resolve_eq]
  have hended : (log ++ [CallEvent.heard id outcome (desk.pending.holder? id)]).filterMap
      CallEvent.ended? = log.filterMap CallEvent.ended? := by
    rw [List.filterMap_append]
    exact List.append_nil _
  refine ⟨?_, ?_, ?_, ?_, ?_, ?_⟩
  · exact h.kept.settled
      (hmatched.settleBy (PendingTable.only_ne_waiting (SlotState.resolved_ne_waiting outcome) id))
      (PendingTable.ident_settleBy _ _)
  · intro other found key hheard
    rcases List.mem_append.1 hheard with hold | hnew
    · exact h.named other found key hold
    · have hholder : desk.pending.holder? id = some key := by
        injection List.mem_singleton.1 hnew with _ _ hholder
        exact hholder.symm
      exact (hmatched.sound.entries _ (PendingTable.mem_entries_of_holder? hholder)).1
  · intro slot hslot
    obtain ⟨old, hold, rfl⟩ := List.mem_map.1 hslot
    have hstate := h.states old hold
    rw [Slot.ident_settledBy, firstAnswer_append, firstAnswer_heard]
    by_cases hgoes : desk.pending.holder? id = some old.ident.1 ∧ id = old.ident.2
    · -- The answer goes to this slot, which waits: it is the first.
      have hwaiting : old.state = .waiting := by
        obtain ⟨holder, hmem, hident, hwaiting⟩ := hmatched.exists_slot_of_holder? hgoes.1
        have hsame := Lookup.eq_of_key hmatched.sound.distinct hmem hold (congrArg Prod.fst hident)
        rwa [hsame] at hwaiting
      rw [if_pos hgoes, h.firstAnswer_of_waiting hold hwaiting, Option.none_or]
      apply Slot.state_settledBy hwaiting
      rw [hgoes.2]
      exact PendingTable.only_self old.id _
    · -- It does not, so the slot stays as it is.
      have hsame : old.settledBy (PendingTable.only id (.resolved outcome)) = old := by
        by_cases hwaiting : old.state = .waiting
        · apply Slot.settledBy_of_none
          apply PendingTable.only_ne
          rintro rfl
          exact hgoes ⟨hmatched.holder?_of_waiting hold hwaiting, rfl⟩
        · exact Slot.settledBy_of_state hwaiting
      rw [if_neg hgoes, Option.or_none, hsame]
      exact hstate
  · rw [hended]
    exact h.past
  · rw [hended]
    exact h.once
  · intro call result hcall answer hanswer hresult
    rcases List.mem_append.1 hcall with hold | hnew
    · rw [firstAnswer_append, h.answered call result hold answer hanswer hresult, Option.some_or]
    · cases List.mem_singleton.1 hnew

theorem cancel : Told log { desk with pending := (desk.pending.cancelAll .closed).2 } := by
  have hmatched := h.kept.matched.cancelAll .closed
  rw [h.kept.matched.cancelAll_eq] at hmatched ⊢
  refine h.silent (h.kept.settled hmatched (PendingTable.ident_settleBy _ _))
    (fun _ hcall => hcall) rfl (Nat.le_refl _) (h.states_settleBy ?_)
  intro id outcome hstate
  cases hstate
  rfl

theorem without {call : Call} (hcall : call ∈ desk.calls) : Told log (desk.without call) := by
  obtain ⟨slot, hslot, hident⟩ := h.kept.exists_slot hcall
  have hkey : slot.key = call.slot := congrArg Prod.fst hident
  have hdrop := h.kept.matched.drop_eq hslot
  rw [hkey] at hdrop
  refine h.silent (h.kept.without hcall) (fun _ => List.mem_of_mem_filter) rfl ?_ ?_
  · show desk.pending.nextKey ≤ (desk.pending.drop call.slot).nextKey
    rw [hdrop]
    exact Nat.le_refl _
  · show ∀ slot ∈ (desk.pending.drop call.slot).slots, _
    rw [hdrop]
    intro other hother
    refine h.states_settleBy ?_ other (List.mem_of_mem_filter hother)
    intro id outcome hstate
    unfold PendingTable.only at hstate
    split at hstate
    · cases hstate
    · cases hstate

theorem finish {call : Call} {result : Except ClientError ByteArray} (hcall : call ∈ desk.calls)
    (hresult : ∀ outcome : Outcome, outcome.isAnswer = true → result = outcome.toResult →
      desk.pending.poll call.slot = some outcome) :
    Told (log ++ [.ended call result]) (desk.without call) := by
  have hdone := h.without hcall
  have hended : (log ++ [CallEvent.ended call result]).filterMap CallEvent.ended? =
      log.filterMap CallEvent.ended? ++ [call] := by
    rw [List.filterMap_append]
    rfl
  have hfirst :
      ∀ ident, firstAnswer (log ++ [.ended call result]) ident = firstAnswer log ident := by
    intro ident
    rw [firstAnswer_append]
    exact Option.or_none
  refine ⟨hdone.kept, ?_, ?_, ?_, ?_, ?_⟩
  · intro id outcome key hheard
    rcases List.mem_append.1 hheard with hold | hnew
    · exact hdone.named id outcome key hold
    · cases List.mem_singleton.1 hnew
  · simp only [hfirst]
    exact hdone.states
  · rw [hended]
    intro other hother
    rcases List.mem_append.1 hother with hold | hnew
    · exact hdone.past other hold
    · rw [List.mem_singleton.1 hnew]
      refine ⟨h.kept.keys call hcall, ?_⟩
      intro more hmore
      simpa using List.of_mem_filter hmore
  · rw [hended]
    exact Lookup.nodup_snoc h.once fun other hother => ((h.past other hother).2 call hcall).symm
  · simp only [hfirst]
    intro other found hother outcome hanswer hfound
    rcases List.mem_append.1 hother with hold | hnew
    · exact h.answered other found hold outcome hanswer hfound
    · cases List.mem_singleton.1 hnew
      exact h.firstAnswer_of_poll hcall hanswer (hresult outcome hanswer hfound)

/-- Every move keeps the account. -/
theorem move {after : Desk} {more : List CallEvent} (hmove : Move desk more after) :
    Told (log ++ more) after := by
  cases hmove with
  | begin call pending hkey hregister =>
      rw [List.append_nil]
      exact h.begin hkey hregister
  | skip =>
      rw [List.append_nil]
      exact h.silent h.kept.skip (fun _ hcall => hcall) rfl (Nat.le_succ _) h.states
  | hear id outcome => exact h.hear id outcome
  | cancel =>
      rw [List.append_nil]
      exact h.cancel
  | finish call result hcall hresult => exact h.finish hcall hresult
  | abandon call hcall =>
      rw [List.append_nil]
      exact h.without hcall

theorem moves {after : Desk} {more : List CallEvent} (hmoves : Moves desk more after) :
    Told (log ++ more) after := by
  induction hmoves generalizing log with
  | refl desk =>
      rw [List.append_nil]
      exact h
  | cons first rest ih =>
      rw [← List.append_assoc]
      exact ih (h.move first)

end Told

end Desk

end Switchboard
