import Switchboard.Proofs.Connection.Waiting

/-!
# What the slots of a table receive

Whoever takes an entry out of a pending table settles its slot, and nobody settles it again. A table
is used by registrations, resolutions, closings and the callers that hold slots, in any order
(`Step`, `run`). What a step gives to slots is read off the table before and after it (`received`),
and the deliveries of a run are those of its steps (`deliveries`). Only a slot that waited receives
anything (`exists_of_received`), so that what stands in a slot is the one thing it was given
(`Delivered`, `delivered_run`). `firstWins_run` puts together what this means for those who resolve
numbers.

Looking at a slot can be repeated (`Step.poll`). A wait that has been answered cannot: it ends with
the outcome in the hands of its caller, and a second one on the same slot is not among the steps.
-/

namespace Switchboard

/-- Whether an outcome has come. -/
def SlotState.isResolved : SlotState → Bool
  | resolved _ => true
  | _ => false

@[simp] theorem SlotState.isResolved_waiting : SlotState.waiting.isResolved = false := rfl

@[simp] theorem SlotState.isResolved_orphaned : SlotState.orphaned.isResolved = false := rfl

@[simp] theorem SlotState.isResolved_resolved (outcome : Outcome) :
    (SlotState.resolved outcome).isResolved = true := rfl

namespace PendingTable

/-- What can be done with a table and with the slots it has given out. -/
inductive Step where
  /-- A request is registered. -/
  | register (id : RequestId)
  /-- An outcome comes for a number. -/
  | resolve (id : RequestId) (outcome : Outcome)
  /-- The table is closed. -/
  | cancelAll (outcome : Outcome)
  /-- A caller drops its slot. -/
  | drop (key : SlotKey)
  /-- A caller looks at its slot, and leaves in it what it finds. -/
  | poll (key : SlotKey)
  /-- A caller looks at its slot when its time is over. -/
  | expire (key : SlotKey)

/-- The table after a step. -/
def perform (table : PendingTable) : Step → PendingTable
  | .register id => (table.register id).2
  | .resolve id outcome => (table.resolve id outcome).2
  | .cancelAll outcome => (table.cancelAll outcome).2
  | .drop key => table.drop key
  | .poll _ => table
  | .expire key => table.expire key

/-- The table after steps. -/
def run (table : PendingTable) (steps : List Step) : PendingTable := steps.foldl perform table

@[simp] theorem run_nil (table : PendingTable) : table.run [] = table := rfl

@[simp] theorem run_cons (table : PendingTable) (step : Step) (steps : List Step) :
    table.run (step :: steps) = (table.perform step).run steps := rfl

theorem run_append (table : PendingTable) (before after : List Step) :
    table.run (before ++ after) = (table.run before).run after := List.foldl_append

/-- The slots that hold an outcome and did not hold it before. -/
def received (before after : PendingTable) : List Slot :=
  after.slots.filter fun slot => slot.state.isResolved && slot ∉ before.slots

/-- What slots receive while steps are done, in the order in which they receive it. -/
def deliveries (table : PendingTable) : List Step → List Slot
  | [] => []
  | step :: steps => received table (table.perform step) ++ deliveries (table.perform step) steps

theorem mem_received {before after : PendingTable} {slot : Slot} :
    slot ∈ received before after ↔
      slot ∈ after.slots ∧ slot.state.isResolved = true ∧ slot ∉ before.slots := by
  simp [received]

@[simp] theorem received_self (table : PendingTable) : received table table = [] := by
  simp +contextual [received]

/-! ## One step -/

/-- What a step makes of a table that is used by its rules. -/
inductive Effect (table : PendingTable) (step : Step) : PendingTable → Prop where
  /-- A request is registered in a slot of its own. -/
  | registers {id : RequestId} {key : SlotKey} {next : PendingTable} (hstep : step = .register id)
      (hregister : table.register id = (.ok key, next)) : Effect table step next
  /-- Slots that wait are settled by their numbers. -/
  | settles {f : RequestId → Option SlotState} (hf : ∀ id, f id ≠ some .waiting) :
      Effect table step (table.settleBy f)
  /-- All slots that wait are settled, and the table is closed. -/
  | closes (outcome : Outcome) : Effect table step (table.cancelAll outcome).2
  /-- A slot is dropped. -/
  | drops {slot : Slot} (hslot : slot ∈ table.slots) : Effect table step (table.drop slot.key)

theorem Effect.idle (table : PendingTable) (step : Step) : Effect table step table := by
  have hsettles : Effect table step (table.settleBy fun _ => none) :=
    .settles fun _ => Option.some_ne_none _ |>.symm
  rwa [settleBy_none] at hsettles

theorem effect_resolve {table : PendingTable} (h : table.Matched) (step : Step) (id : RequestId)
    (outcome : Outcome) : Effect table step (table.resolve id outcome).2 := by
  rw [h.resolve_eq]
  exact .settles (only_ne_waiting (SlotState.resolved_ne_waiting outcome) id)

theorem effect_perform {table : PendingTable} (h : table.Matched) (step : Step) :
    Effect table step (table.perform step) := by
  cases step with
  | register id =>
      show Effect table _ (table.register id).2
      cases hregister : table.register id with
      | mk answer next =>
          cases answer with
          | ok key => exact .registers rfl hregister
          | error error =>
              rw [register_eq_error hregister]
              exact .idle table _
  | resolve id outcome => exact effect_resolve h _ id outcome
  | cancelAll outcome => exact .closes outcome
  | drop key =>
      show Effect table _ (table.drop key)
      cases hslot : table.slot? key with
      | none =>
          simp only [PendingTable.drop, hslot]
          exact .idle table _
      | some slot =>
          rw [← show slot.key = key from Lookup.key_of_find? hslot]
          exact .drops (List.mem_of_find?_eq_some hslot)
  | poll key => exact .idle table _
  | expire key =>
      show Effect table _ (table.expire key)
      cases hslot : table.slot? key with
      | none =>
          simp only [PendingTable.expire, hslot]
          exact .idle table _
      | some slot =>
          simp only [PendingTable.expire, hslot]
          split
          · exact effect_resolve h _ slot.id .timedOut
          · exact .idle table _

section Effect

variable {table after : PendingTable} {step : Step}

theorem Matched.of_effect (h : table.Matched) (heffect : Effect table step after) :
    after.Matched := by
  cases heffect with
  | registers _ hregister => exact h.register hregister
  | settles hf => exact h.settleBy hf
  | closes outcome => exact h.cancelAll outcome
  | drops hslot => exact h.drop hslot

theorem Matched.perform (h : table.Matched) (step : Step) : (table.perform step).Matched :=
  h.of_effect (effect_perform h step)

/-- Names of slots are not given twice. -/
theorem Effect.nextKey_le (h : table.Matched) (heffect : Effect table step after) :
    table.nextKey ≤ after.nextKey := by
  cases heffect with
  | registers _ hregister =>
      rw [(register_eq_ok hregister).2.1]
      exact Nat.le_succ _
  | settles _ => exact Nat.le_refl _
  | closes outcome =>
      rw [h.cancelAll_eq]
      exact Nat.le_refl _
  | drops hslot =>
      rw [h.drop_eq hslot]
      exact Nat.le_refl _

/-- A number has an entry that it did not have only if it is registered. -/
theorem Effect.of_mem_entries (h : table.Matched) (heffect : Effect table step after)
    {entry : RequestId × SlotKey} (hentry : entry ∈ after.entries) :
    entry ∈ table.entries ∨ step = .register entry.1 := by
  cases heffect with
  | registers hstep hregister =>
      rw [(register_eq_ok hregister).2.2.1, List.mem_append, List.mem_singleton] at hentry
      rcases hentry with hold | rfl
      · exact Or.inl hold
      · exact Or.inr hstep
  | settles _ => exact Or.inl (List.mem_of_mem_filter hentry)
  | closes outcome => cases hentry
  | drops hslot =>
      rw [h.drop_eq hslot] at hentry
      exact Or.inl (List.mem_of_mem_filter hentry)

/-- A slot that is settled waited before. -/
theorem of_mem_settleBy {f : RequestId → Option SlotState} {slot : Slot}
    (hslot : slot ∈ (table.settleBy f).slots) :
    slot ∈ table.slots ∨ ∃ old ∈ table.slots, old.ident = slot.ident ∧ old.state = .waiting := by
  obtain ⟨old, hold, rfl⟩ := List.mem_map.1 hslot
  by_cases hstate : old.state = .waiting
  · exact Or.inr ⟨old, hold, (old.ident_settledBy f).symm, hstate⟩
  · rw [Slot.settledBy_of_state hstate]
    exact Or.inl hold

/-- A slot was there, or waited, or is new and waits. -/
theorem Effect.of_mem_slots (h : table.Matched) (heffect : Effect table step after) {slot : Slot}
    (hslot : slot ∈ after.slots) :
    slot ∈ table.slots ∨ (∃ old ∈ table.slots, old.ident = slot.ident ∧ old.state = .waiting) ∨
      (slot.key = table.nextKey ∧ slot.state = .waiting) := by
  cases heffect with
  | registers _ hregister =>
      rw [(register_eq_ok hregister).2.2.2, List.mem_append, List.mem_singleton] at hslot
      rcases hslot with hold | rfl
      · exact Or.inl hold
      · exact Or.inr (Or.inr ⟨rfl, rfl⟩)
  | settles _ => exact (of_mem_settleBy hslot).imp_right Or.inl
  | closes outcome =>
      rw [h.cancelAll_eq] at hslot
      exact (of_mem_settleBy hslot).imp_right Or.inl
  | drops hdropped =>
      rw [h.drop_eq hdropped] at hslot
      exact (of_mem_settleBy (List.mem_of_mem_filter hslot)).imp_right Or.inl

/-- What receives an outcome is a slot that waited. -/
theorem Effect.exists_of_received (h : table.Matched) (heffect : Effect table step after)
    {slot : Slot} (hslot : slot ∈ received table after) :
    ∃ old ∈ table.slots, old.ident = slot.ident ∧ old.state = .waiting := by
  obtain ⟨hmem, hresolved, hnew⟩ := mem_received.1 hslot
  rcases heffect.of_mem_slots h hmem with hold | hwaited | ⟨-, hwaits⟩
  · exact absurd hold hnew
  · exact hwaited
  · rw [hwaits, SlotState.isResolved_waiting] at hresolved
    cases hresolved

end Effect

/-! ## What each operation gives -/

section Received

variable {table : PendingTable}

/-- Settling gives outcomes to the slots that wait under the numbers it has outcomes for. -/
theorem Matched.mem_received_settleBy (h : table.Matched) {f : RequestId → Option SlotState}
    {slot : Slot} : slot ∈ received table (table.settleBy f) ↔
      ∃ old ∈ table.slots, old.state = .waiting ∧ ∃ outcome, f old.id = some (.resolved outcome) ∧
        slot = { old with state := .resolved outcome } := by
  rw [mem_received]
  constructor
  · rintro ⟨hslot, hresolved, hnew⟩
    obtain ⟨old, hold, rfl⟩ := List.mem_map.1 hslot
    have hstate : old.state = .waiting := by
      by_contra hstate
      rw [Slot.settledBy_of_state hstate] at hnew
      exact hnew hold
    cases hf : f old.id with
    | none =>
        rw [Slot.settledBy_of_none hf] at hnew
        exact absurd hold hnew
    | some state =>
        have hset : old.settledBy f = { old with state } := by
          rw [Slot.settledBy, if_pos hstate, hf, Option.getD_some]
        rw [hset] at hresolved ⊢
        cases state with
        | waiting => cases hresolved
        | orphaned => cases hresolved
        | resolved outcome => exact ⟨old, hold, hstate, outcome, hf, rfl⟩
  · rintro ⟨old, hold, hstate, outcome, hf, rfl⟩
    have hset : old.settledBy f = { old with state := .resolved outcome } := by
      rw [Slot.settledBy, if_pos hstate, hf, Option.getD_some]
    refine ⟨List.mem_map.2 ⟨old, hold, hset⟩, rfl, ?_⟩
    intro hmem
    have hsame := Lookup.eq_of_key h.sound.distinct hold hmem rfl
    rw [hsame] at hstate
    cases hstate

/-- No name is twice among those who receive something. -/
theorem Matched.nodup_received {before after : PendingTable} (h : after.Matched) :
    ((received before after).map Slot.key).Nodup :=
  h.sound.distinct.sublist (List.filter_sublist.map Slot.key)

/-- A resolution gives its outcome to the slot of its number. -/
theorem Matched.received_resolve (h : table.Matched) {id : RequestId} {key : SlotKey}
    (hentry : (id, key) ∈ table.entries) (outcome : Outcome) :
    received table (table.resolve id outcome).2 = [⟨key, id, .resolved outcome⟩] := by
  have hafter := h.of_effect (effect_resolve h (.resolve id outcome) id outcome)
  apply List.perm_singleton.1
  refine (List.perm_ext_iff_of_nodup (List.Nodup.of_map _ hafter.nodup_received)
    (List.nodup_singleton _)).2 ?_
  intro slot
  rw [h.resolve_eq, h.mem_received_settleBy, List.mem_singleton]
  obtain ⟨holder, hmem, hident, hstate⟩ := h.owned _ hentry
  obtain ⟨hkey, hid⟩ := Prod.mk.inj hident
  simp only at hkey hid
  constructor
  · rintro ⟨old, hold, hwaits, given, hgiven, rfl⟩
    have hids : old.id = id := by
      by_contra hne
      rw [only_ne hne] at hgiven
      cases hgiven
    rw [hids, only_self, Option.some.injEq, SlotState.resolved.injEq] at hgiven
    have hheld := h.holder?_of_waiting hold hwaits
    rw [hids, (mem_entries_iff_holder? h.numbers).2 hentry, Option.some.injEq] at hheld
    rw [← hgiven, ← hheld, hids]
  · rintro rfl
    refine ⟨holder, hmem, hstate, outcome, ?_, ?_⟩
    · rw [hid, only_self]
    · rw [← hkey, ← hid]

/-- The entries are those of the slots that wait. -/
theorem Matched.perm_entries (h : table.Matched) :
    table.entries.Perm ((table.slots.filter fun slot => slot.state = .waiting).map fun slot =>
      (slot.id, slot.key)) := by
  have hkeys : (((table.slots.filter fun slot => slot.state = .waiting).map fun slot =>
      (slot.id, slot.key)).map Prod.snd).Nodup := by
    rw [List.map_map]
    exact h.sound.distinct.sublist (List.filter_sublist.map Slot.key)
  apply (List.perm_ext_iff_of_nodup (List.Nodup.of_map _ h.numbers) (List.Nodup.of_map _ hkeys)).2
  intro entry
  simp only [List.mem_map, List.mem_filter, decide_eq_true_eq]
  constructor
  · intro hentry
    obtain ⟨slot, hslot, hident, hstate⟩ := h.owned entry hentry
    obtain ⟨hkey, hid⟩ := Prod.mk.inj hident
    exact ⟨slot, ⟨hslot, hstate⟩, Prod.ext hid hkey⟩
  · rintro ⟨slot, ⟨hslot, hstate⟩, rfl⟩
    exact h.waits slot hslot hstate

/-- When the table is closed, every slot that waits receives the outcome. -/
theorem Matched.mem_received_cancelAll (h : table.Matched) {outcome : Outcome} {slot : Slot} :
    slot ∈ received table (table.cancelAll outcome).2 ↔
      ∃ old ∈ table.slots, old.state = .waiting ∧
        slot = { old with state := .resolved outcome } := by
  have hslots : received table (table.cancelAll outcome).2 =
      received table (table.settleBy fun _ => some (.resolved outcome)) := by
    rw [h.cancelAll_eq]
    rfl
  rw [hslots, h.mem_received_settleBy]
  constructor
  · rintro ⟨old, hold, hstate, given, hgiven, rfl⟩
    cases hgiven
    exact ⟨old, hold, hstate, rfl⟩
  · rintro ⟨old, hold, hstate, rfl⟩
    exact ⟨old, hold, hstate, outcome, rfl, rfl⟩

/-- The closing of a table counts the slots that receive its outcome. -/
theorem Matched.cancelAll_count (h : table.Matched) (outcome : Outcome) :
    (table.cancelAll outcome).1 = (received table (table.cancelAll outcome).2).length := by
  have hwaiting : ((table.slots.filter fun slot => slot.state = .waiting).map Slot.key).Nodup :=
    h.sound.distinct.sublist (List.filter_sublist.map Slot.key)
  have hperm : (received table (table.cancelAll outcome).2).Perm
      ((table.slots.filter fun slot => slot.state = .waiting).map fun slot =>
        { slot with state := .resolved outcome }) := by
    apply (List.perm_ext_iff_of_nodup
      (List.Nodup.of_map _ (h.cancelAll outcome).nodup_received) ?_).2
    · intro slot
      rw [h.mem_received_cancelAll]
      simp only [List.mem_map, List.mem_filter, decide_eq_true_eq, and_assoc, eq_comm (a := slot)]
    · apply List.Nodup.of_map Slot.key
      rwa [List.map_map]
  show table.entries.length = _
  rw [h.perm_entries.length_eq, hperm.length_eq, List.length_map, List.length_map]

/-- A registration gives nothing to anybody. -/
theorem received_register (table : PendingTable) (id : RequestId) :
    received table (table.register id).2 = [] := by
  cases hregister : table.register id with
  | mk answer next =>
      cases answer with
      | ok key => simp +contextual [received, (register_eq_ok hregister).2.2.2]
      | error error => rw [register_eq_error hregister, received_self]

/-- A slot that is dropped leaves nothing to anybody. -/
theorem Matched.received_drop (h : table.Matched) (key : SlotKey) :
    received table (table.drop key) = [] := by
  cases hfound : table.slot? key with
  | none => simp only [PendingTable.drop, hfound, received_self]
  | some dropped =>
      apply List.eq_nil_iff_forall_not_mem.2
      intro slot hslot
      obtain ⟨hmem, hresolved, hnew⟩ := mem_received.1 hslot
      rw [← show dropped.key = key from Lookup.key_of_find? hfound,
        h.drop_eq (List.mem_of_find?_eq_some hfound)] at hmem
      have hsettled := h.mem_received_settleBy.1
        (mem_received.2 ⟨List.mem_of_mem_filter hmem, hresolved, hnew⟩)
      obtain ⟨old, -, -, outcome, hgiven, -⟩ := hsettled
      unfold only at hgiven
      split at hgiven <;> cases hgiven

end Received

/-! ## A run -/

/-- What slots hold after all that has been given to slots. -/
structure Delivered (given : List Slot) (table : PendingTable) : Prop where
  matched : table.Matched
  outcomes : ∀ slot ∈ given, slot.state.isResolved = true
  names : ∀ slot ∈ given, slot.key < table.nextKey
  distinct : (given.map Slot.key).Nodup
  held : ∀ slot ∈ table.slots, slot.state.isResolved = true → slot ∈ given
  kept : ∀ slot ∈ table.slots, ∀ old ∈ given, slot.key = old.key → slot = old

theorem delivered_new : Delivered [] .new where
  matched := matched_new
  outcomes := fun _ h => nomatch h
  names := fun _ h => nomatch h
  distinct := List.nodup_nil
  held := fun _ h => nomatch h
  kept := fun _ h => nomatch h

namespace Delivered

variable {given : List Slot} {table : PendingTable} (h : Delivered given table)

include h

/-- A slot that waits has been given nothing. -/
theorem not_given {slot old : Slot} (hslot : slot ∈ table.slots) (hstate : slot.state = .waiting)
    (hold : old ∈ given) : slot.key ≠ old.key := by
  intro hkey
  have houtcome := h.outcomes old hold
  rw [← h.kept slot hslot old hold hkey, hstate, SlotState.isResolved_waiting] at houtcome
  cases houtcome

/-- What slots receive is new to them. -/
theorem perform (step : Step) :
    Delivered (given ++ received table (table.perform step)) (table.perform step) := by
  have heffect := effect_perform h.matched step
  have hafter := h.matched.perform step
  -- Who receives something waited, and has been given nothing before.
  have hfirst : ∀ slot ∈ received table (table.perform step), ∀ old ∈ given,
      slot.key ≠ old.key := by
    intro slot hslot old hold hkey
    obtain ⟨before, hbefore, hident, hstate⟩ := heffect.exists_of_received h.matched hslot
    exact h.not_given hbefore hstate hold ((congrArg Prod.fst hident).trans hkey)
  constructor
  case matched => exact hafter
  case outcomes =>
    intro slot hslot
    rcases List.mem_append.1 hslot with hold | hnew
    · exact h.outcomes slot hold
    · exact (mem_received.1 hnew).2.1
  case names =>
    intro slot hslot
    rcases List.mem_append.1 hslot with hold | hnew
    · exact Nat.lt_of_lt_of_le (h.names slot hold) (heffect.nextKey_le h.matched)
    · exact hafter.sound.keys slot (mem_received.1 hnew).1
  case distinct =>
    rw [List.map_append]
    refine List.nodup_append.2 ⟨h.distinct, hafter.nodup_received, ?_⟩
    intro key hkey other hother hsame
    obtain ⟨old, hold, rfl⟩ := List.mem_map.1 hkey
    obtain ⟨slot, hslot, rfl⟩ := List.mem_map.1 hother
    exact hfirst slot hslot old hold hsame.symm
  case held =>
    intro slot hslot hresolved
    by_cases hold : slot ∈ table.slots
    · exact List.mem_append_left _ (h.held slot hold hresolved)
    · exact List.mem_append_right _ (mem_received.2 ⟨hslot, hresolved, hold⟩)
  case kept =>
    intro slot hslot old hmem hkey
    rcases List.mem_append.1 hmem with hold | hnew
    · rcases heffect.of_mem_slots h.matched hslot with
        hwas | ⟨before, hbefore, hident, hstate⟩ | ⟨hname, -⟩
      · exact h.kept slot hwas old hold hkey
      · exact absurd ((congrArg Prod.fst hident).trans hkey) (h.not_given hbefore hstate hold)
      · exact absurd (hkey.symm.trans hname) (Nat.ne_of_lt (h.names old hold))
    · exact Lookup.eq_of_key hafter.sound.distinct hslot (mem_received.1 hnew).1 hkey

theorem run (steps : List Step) :
    Delivered (given ++ deliveries table steps) (table.run steps) := by
  induction steps generalizing given table with
  | nil =>
      rw [deliveries, List.append_nil]
      exact h
  | cons step steps ih =>
      rw [deliveries, ← List.append_assoc]
      exact ih (h.perform step)

end Delivered

theorem delivered_run (steps : List Step) :
    Delivered (deliveries .new steps) (PendingTable.new.run steps) := delivered_new.run steps

theorem Matched.run {table : PendingTable} (h : table.Matched) (steps : List Step) :
    (table.run steps).Matched := by
  induction steps generalizing table with
  | nil => exact h
  | cons step steps ih => exact ih (h.perform step)

/-- A number without an entry is resolved in vain. -/
theorem resolve_of_holder?_eq_none {table : PendingTable} {id : RequestId}
    (h : table.holder? id = none) (outcome : Outcome) :
    table.resolve id outcome = (false, table) := by
  simp only [resolve, h]

/-- A number without an entry has none until it is registered. -/
theorem Matched.holder?_run {table : PendingTable} (h : table.Matched) {id : RequestId}
    (hnone : table.holder? id = none) {steps : List Step} (hsteps : .register id ∉ steps) :
    (table.run steps).holder? id = none := by
  induction steps generalizing table with
  | nil => exact hnone
  | cons step steps ih =>
      rw [List.mem_cons, not_or] at hsteps
      refine ih (h.perform step) ?_ hsteps.2
      refine Option.eq_none_iff_forall_ne_some.2 fun key hholder => ?_
      rcases (effect_perform h step).of_mem_entries h (mem_entries_of_holder? hholder) with
        hold | hstep
      · exact ne_of_holder?_eq_none hnone _ hold rfl
      · exact hsteps.1 hstep.symm

/-- The number of a slot that has received its outcome has no entry any more. -/
theorem Matched.holder?_of_received {table : PendingTable} (h : table.Matched) {step : Step}
    {slot : Slot} (hslot : slot ∈ received table (table.perform step)) :
    (table.perform step).holder? slot.id = none := by
  have hafter := h.perform step
  have heffect := effect_perform h step
  obtain ⟨hmem, hresolved, -⟩ := mem_received.1 hslot
  obtain ⟨old, hold, hident, hstate⟩ := heffect.exists_of_received h hslot
  obtain ⟨holdkey, holdid⟩ := Prod.mk.inj hident
  refine Option.eq_none_iff_forall_ne_some.2 fun key hholder => ?_
  obtain ⟨holder, hholds, hname, hwaits⟩ := hafter.exists_slot_of_holder? hholder
  obtain ⟨rfl, hid⟩ := Prod.mk.inj hname
  -- The entry was there before, so it was that of the slot, which does not wait any more.
  rcases heffect.of_mem_entries h (mem_entries_of_holder? hholder) with hentry | hstep
  · have hheld := h.holder?_of_waiting hold hstate
    rw [holdid, (mem_entries_iff_holder? h.numbers).2 hentry, Option.some.injEq] at hheld
    have hsame := Lookup.eq_of_key hafter.sound.distinct hholds hmem (hheld.trans holdkey)
    rw [← hsame, hwaits] at hresolved
    cases hresolved
  · rw [hstep] at hslot
    have hnone := received_register table slot.id
    rw [show table.perform (.register slot.id) = (table.register slot.id).2 from rfl, hnone]
      at hslot
    cases hslot

/-- A closed table stays closed. -/
theorem Effect.closed {table after : PendingTable} {step : Step}
    (heffect : Effect table step after) (hclosed : table.closed = true) : after.closed = true := by
  cases heffect with
  | registers _ hregister =>
      rw [(of_register hregister).1] at hclosed
      cases hclosed
  | settles _ => exact hclosed
  | closes outcome => rfl
  | drops hslot => rwa [closed_drop]

theorem Matched.closed_run {table : PendingTable} (h : table.Matched)
    (hclosed : table.closed = true)
    (steps : List Step) : (table.run steps).closed = true := by
  induction steps generalizing table with
  | nil => exact hclosed
  | cons step steps ih => exact ih (h.perform step) ((effect_perform h step).closed hclosed)

/-- In a closed table nothing is registered. -/
theorem register_of_closed {table : PendingTable} (h : table.closed = true) (id : RequestId) :
    table.register id = (.error .connectionClosed, table) := by
  simp only [register, h, if_true]

/-- A slot is settled by who comes first, in the table that the steps have made of a new one. -/
structure FirstWins (steps : List Step) (table : PendingTable) : Prop where
  /-- An entry belongs to one slot that is held and waits. No other slot has its name, and no other
  waits under its number. -/
  owner : ∀ entry ∈ table.entries, ∃ slot ∈ table.slots,
    slot.key = entry.2 ∧ slot.id = entry.1 ∧ slot.state = .waiting ∧
      ∀ other ∈ table.slots,
        other.key = entry.2 ∨ (other.id = entry.1 ∧ other.state = .waiting) → other = slot
  /-- A slot that waits has an entry. -/
  waits : ∀ slot ∈ table.slots, slot.state = .waiting → (slot.id, slot.key) ∈ table.entries
  /-- A resolution succeeds if the number has an entry. -/
  succeeds : ∀ id outcome,
    (table.resolve id outcome).1 = true ↔ id ∈ table.entries.map Prod.fst
  /-- The slot of the entry receives the outcome, and no other slot receives anything. -/
  gives : ∀ entry ∈ table.entries, ∀ outcome,
    received table (table.resolve entry.1 outcome).2 = [⟨entry.2, entry.1, .resolved outcome⟩]
  /-- A resolution that fails changes nothing. -/
  fails : ∀ id outcome, id ∉ table.entries.map Prod.fst →
    table.resolve id outcome = (false, table)
  /-- Registrations and slots that are dropped give nothing to anybody. -/
  silent : (∀ id, received table (table.register id).2 = []) ∧
    ∀ key, received table (table.drop key) = []
  /-- The closing of the table gives its outcome to all slots that wait, and returns how many they
  are. -/
  cancels : ∀ outcome,
    (table.cancelAll outcome).1 = (received table (table.cancelAll outcome).2).length ∧
      ∀ slot, slot ∈ received table (table.cancelAll outcome).2 ↔
        ∃ old ∈ table.slots, old.state = .waiting ∧ slot = { old with state := .resolved outcome }
  /-- No slot has received two outcomes. -/
  once : ((deliveries .new steps).map Slot.key).Nodup
  /-- A slot that has received something holds it as long as it is held. Its caller finds it, and
  its time does not take it away. -/
  holds : ∀ slot ∈ table.slots, ∀ old ∈ deliveries .new steps, slot.key = old.key →
    slot = old ∧ table.poll slot.key = old.state.outcome? ∧ table.expire slot.key = table
  /-- What a slot holds has been given to it. -/
  given : ∀ slot ∈ table.slots, ∀ outcome,
    slot.state = .resolved outcome → slot ∈ deliveries .new steps
  /-- When a slot has received an outcome, those who come later fail and change nothing, as long as
  nobody registers its number again. -/
  late : ∀ before step after, steps = before ++ step :: after →
    ∀ slot ∈ received (PendingTable.new.run before) ((PendingTable.new.run before).perform step),
      .register slot.id ∉ after → ∀ outcome, table.resolve slot.id outcome = (false, table)
  /-- When the table has been closed, it is closed and empty, and nothing is registered. -/
  shut : ∀ outcome, .cancelAll outcome ∈ steps → table.closed = true ∧ table.entries = [] ∧
    ∀ id, table.register id = (.error .connectionClosed, table)

theorem holder?_isSome_iff {table : PendingTable} {id : RequestId} :
    (table.holder? id).isSome = true ↔ id ∈ table.entries.map Prod.fst := by
  constructor
  · intro hsome
    obtain ⟨key, hholder⟩ := Option.isSome_iff_exists.1 hsome
    exact List.mem_map.2 ⟨_, mem_entries_of_holder? hholder, rfl⟩
  · intro hmem
    obtain ⟨entry, hentry, rfl⟩ := List.mem_map.1 hmem
    by_contra hnone
    exact ne_of_holder?_eq_none (Option.not_isSome_iff_eq_none.1 hnone) entry hentry rfl

theorem resolve_fst (table : PendingTable) (id : RequestId) (outcome : Outcome) :
    (table.resolve id outcome).1 = (table.holder? id).isSome := by
  unfold resolve
  cases table.holder? id <;> rfl

/-- Whatever is done with a new table, who comes first settles a slot. -/
theorem firstWins_run (steps : List Step) : FirstWins steps (PendingTable.new.run steps) where
  owner := by
    have h := matched_new.run steps
    intro entry hentry
    obtain ⟨slot, hslot, hident, hstate⟩ := h.owned entry hentry
    obtain ⟨hkey, hid⟩ := Prod.mk.inj hident
    refine ⟨slot, hslot, hkey, hid, hstate, ?_⟩
    rintro other hother (hname | ⟨hnumber, hwaits⟩)
    · exact Lookup.eq_of_key h.sound.distinct hother hslot (hname.trans hkey.symm)
    · have hheld := h.holder?_of_waiting hother hwaits
      rw [hnumber, ← hid, h.holder?_of_waiting hslot hstate, Option.some.injEq] at hheld
      exact Lookup.eq_of_key h.sound.distinct hother hslot hheld.symm
  waits := (matched_new.run steps).waits
  succeeds := by
    intro id outcome
    rw [resolve_fst, holder?_isSome_iff]
  gives := fun entry hentry outcome => (matched_new.run steps).received_resolve hentry outcome
  fails := by
    intro id outcome hnone
    rw [← holder?_isSome_iff, Option.not_isSome_iff_eq_none] at hnone
    exact resolve_of_holder?_eq_none hnone outcome
  silent := ⟨received_register _, (matched_new.run steps).received_drop⟩
  cancels := fun outcome =>
    ⟨(matched_new.run steps).cancelAll_count outcome,
      fun _ => (matched_new.run steps).mem_received_cancelAll⟩
  once := (delivered_run steps).distinct
  holds := by
    have h := delivered_run steps
    intro slot hslot old hold hkey
    obtain rfl : slot = old := h.kept slot hslot old hold hkey
    refine ⟨rfl, h.matched.poll_eq hslot, ?_⟩
    rw [h.matched.expire_eq hslot, if_neg fun hstate => h.not_given hslot hstate hold rfl]
  given := by
    intro slot hslot outcome hstate
    exact (delivered_run steps).held slot hslot (by rw [hstate, SlotState.isResolved_resolved])
  late := by
    rintro before step after rfl slot hslot hafter outcome
    have h := matched_new.run before
    rw [run_append, run_cons]
    exact resolve_of_holder?_eq_none
      ((h.perform step).holder?_run (h.holder?_of_received hslot) hafter) outcome
  shut := by
    intro outcome hmem
    obtain ⟨before, after, rfl⟩ := List.append_of_mem hmem
    have h := matched_new.run before
    have hclosed :
        (PendingTable.new.run (before ++ .cancelAll outcome :: after)).closed = true := by
      rw [run_append, run_cons]
      exact (h.perform _).closed_run rfl after
    exact ⟨hclosed, (matched_new.run _).shut hclosed, register_of_closed hclosed⟩

end PendingTable

end Switchboard
