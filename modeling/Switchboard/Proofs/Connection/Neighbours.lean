import Switchboard.Proofs.Connection.Deliveries

/-!
# Slots beside each other

Entries are kept by number, and slots have names of their own. A caller that looks at its slot, or
whose time is over, takes at most its own entry out of the table, and every other slot stays as it
is (`Matched.spares_expire`). So does a caller that drops its slot, with one exception: a number
that was registered again after its first slot was settled belongs to another slot, and is forgotten
with the first one all the same. The slot that waits under it then reads as closed, though nothing
was closed (`Matched.robs_drop`). Where no number is registered twice, there are no such slots
(`unrepeated_run`). `beside_run` puts this together for any two slots.
-/

namespace Switchboard

namespace PendingTable

/-- What is done with `slot` takes no entry but its own, and leaves `other` as it is. -/
structure Spares (table after : PendingTable) (slot other : Slot) : Prop where
  /-- No entry comes, and at most the one that was made for the slot goes. -/
  entries : ∀ entry, entry ∈ after.entries → entry ∈ table.entries
  others : ∀ entry ∈ table.entries, entry ≠ (slot.id, slot.key) → entry ∈ after.entries
  /-- The other slot holds what it held, and its caller finds in it what it would have found. -/
  held : other ∈ after.slots
  found : after.poll other.key = table.poll other.key
  /-- As long as the other slot waits, whatever else is done, its number is resolved into it. -/
  reached : other.state = .waiting → ∀ later outcome, other ∈ (after.run later).slots →
    ((after.run later).resolve other.id outcome).1 = true ∧
      ((after.run later).resolve other.id outcome).2.poll other.key = some outcome

/-- What is done with `slot` takes the entry of `other`, which waits and reads as closed from then
on. -/
structure Robs (table after : PendingTable) (slot other : Slot) : Prop where
  /-- The slot itself waits no longer: its number has been registered again. -/
  settled : slot.state ≠ .waiting
  entry : (other.id, other.key) ∈ table.entries
  lost : after.holder? other.id = none
  closed : after.poll other.key = some .closed
  missed : ∀ outcome, after.resolve other.id outcome = (false, after)

namespace Matched

variable {table after : PendingTable} (h : table.Matched)

include h

/-- A slot that waits is reached under its number. -/
theorem resolve_of_waiting {slot : Slot} (hslot : slot ∈ table.slots)
    (hstate : slot.state = .waiting)
    (outcome : Outcome) : (table.resolve slot.id outcome).1 = true ∧
      (table.resolve slot.id outcome).2.poll slot.key = some outcome := by
  refine ⟨by rw [resolve_fst, h.holder?_of_waiting hslot hstate, Option.isSome_some], ?_⟩
  have hnot := only_ne_waiting (SlotState.resolved_ne_waiting outcome) slot.id
  rw [h.resolve_eq, h.poll_settleBy hnot hslot, Slot.state_settledBy hstate (only_self slot.id _)]
  rfl

/-- No two slots wait under one number. -/
theorem eq_of_waiting {slot other : Slot} (hslot : slot ∈ table.slots)
    (hother : other ∈ table.slots)
    (hstate : slot.state = .waiting) (hwaits : other.state = .waiting) (hid : other.id = slot.id) :
    other = slot := by
  have hheld := h.holder?_of_waiting hother hwaits
  rw [hid, h.holder?_of_waiting hslot hstate, Option.some.injEq] at hheld
  exact Lookup.eq_of_key h.sound.distinct hother hslot hheld.symm

/-- A slot is spared if it is there afterwards and the entries of others are. -/
theorem spares {slot other : Slot} (hafter : after.Matched)
    (hentries : ∀ entry, entry ∈ after.entries → entry ∈ table.entries)
    (hothers : ∀ entry ∈ table.entries, entry ≠ (slot.id, slot.key) → entry ∈ after.entries)
    (hother : other ∈ table.slots) (hheld : other ∈ after.slots) :
    Spares table after slot other where
  entries := hentries
  others := hothers
  held := hheld
  found := by rw [h.poll_eq hother, hafter.poll_eq hheld]
  reached := fun hstate later outcome hlater =>
    (hafter.run later).resolve_of_waiting hlater hstate outcome

/-- When the time of a slot is over, at most its own entry goes. -/
theorem spares_expire {slot other : Slot} (hslot : slot ∈ table.slots)
    (hother : other ∈ table.slots)
    (hne : other ≠ slot) : Spares table (table.expire slot.key) slot other := by
  have hafter : (table.expire slot.key).Matched := h.perform (.expire slot.key)
  rw [h.expire_eq hslot] at hafter ⊢
  by_cases hstate : slot.state = .waiting
  · rw [if_pos hstate] at hafter ⊢
    refine h.spares hafter (fun _ => List.mem_of_mem_filter) ?_ hother ?_
    · intro entry hentry hnot
      refine List.mem_filter.2 ⟨hentry, ?_⟩
      rw [only_ne, Option.isNone_none]
      -- An entry of the number would be that of the slot.
      intro hid
      have hheld := h.holder?_of_waiting hslot hstate
      rw [← hid, (mem_entries_iff_holder? h.numbers).2 hentry, Option.some.injEq] at hheld
      exact hnot (Prod.ext hid hheld)
    · refine List.mem_map.2 ⟨other, hother, ?_⟩
      by_cases hwaits : other.state = .waiting
      · exact Slot.settledBy_of_none
          (only_ne (fun hid => hne (h.eq_of_waiting hslot hother hstate hwaits hid)) _)
      · exact Slot.settledBy_of_state hwaits
  · rw [if_neg hstate] at hafter ⊢
    exact h.spares hafter (fun _ => id) (fun _ hentry _ => hentry) hother hother

/-- A slot that is dropped takes at most its own entry, unless another slot waits under its
number. -/
theorem spares_drop {slot other : Slot} (hslot : slot ∈ table.slots) (hother : other ∈ table.slots)
    (hne : other ≠ slot)
    (hnumber : ∀ waiting ∈ table.slots, waiting.state = .waiting → waiting.id = slot.id →
      waiting = slot) : Spares table (table.drop slot.key) slot other := by
  have hafter := h.drop hslot
  have hkey : other.key ≠ slot.key :=
    fun hkey => hne (Lookup.eq_of_key h.sound.distinct hother hslot hkey)
  rw [h.drop_eq hslot] at hafter ⊢
  refine h.spares hafter (fun _ => List.mem_of_mem_filter) ?_ hother ?_
  · intro entry hentry hnot
    refine List.mem_filter.2 ⟨hentry, ?_⟩
    rw [only_ne, Option.isNone_none]
    intro hid
    obtain ⟨waiting, hmem, hident, hwaits⟩ := h.owned entry hentry
    obtain ⟨hname, hnumber'⟩ := Prod.mk.inj hident
    obtain rfl := hnumber waiting hmem hwaits (hnumber'.trans hid)
    exact hnot (Prod.ext hid hname.symm)
  · refine List.mem_filter.2 ⟨List.mem_map.2 ⟨other, hother, ?_⟩, by simpa using hkey⟩
    by_cases hwaits : other.state = .waiting
    · exact Slot.settledBy_of_none (only_ne (fun hid => hne (hnumber other hother hwaits hid)) _)
    · exact Slot.settledBy_of_state hwaits

/-- A slot that is dropped takes the entry of another that waits under its number. -/
theorem robs_drop {slot other : Slot} (hslot : slot ∈ table.slots) (hother : other ∈ table.slots)
    (hne : other ≠ slot) (hwaits : other.state = .waiting) (hid : other.id = slot.id) :
    Robs table (table.drop slot.key) slot other := by
  have hafter := h.drop hslot
  have hkey : other.key ≠ slot.key :=
    fun hkey => hne (Lookup.eq_of_key h.sound.distinct hother hslot hkey)
  have hlost : (table.drop slot.key).holder? other.id = none := by
    refine Option.eq_none_iff_forall_ne_some.2 fun key hholder => ?_
    have hentry := mem_entries_of_holder? hholder
    rw [h.drop_eq hslot] at hentry
    have hkept := (List.mem_filter.1 hentry).2
    rw [hid, only_self] at hkept
    cases hkept
  constructor
  case settled => exact fun hstate => hne (h.eq_of_waiting hslot hother hstate hwaits hid)
  case entry => exact h.waits other hother hwaits
  case lost => exact hlost
  case closed =>
    have hmem : other.settledBy (only slot.id .orphaned) ∈ (table.drop slot.key).slots := by
      rw [h.drop_eq hslot]
      refine List.mem_filter.2 ⟨List.mem_map_of_mem hother, ?_⟩
      rw [Slot.key_settledBy]
      simpa using hkey
    have hpoll := hafter.poll_eq hmem
    have hstate : only slot.id .orphaned other.id = some .orphaned := by rw [hid, only_self]
    rwa [Slot.key_settledBy, Slot.state_settledBy hwaits hstate] at hpoll
  case missed => exact resolve_of_holder?_eq_none hlost

end Matched

/-! ## Numbers that are registered once -/

/-- The number under which a step registers a request, if it does so with success. -/
def Step.registered? (table : PendingTable) : Step → Option RequestId
  | .register id => match (table.register id).1 with
      | .ok _ => some id
      | .error _ => none
  | _ => none

/-- The numbers under which requests are registered while steps are done. -/
def registrations (table : PendingTable) : List Step → List RequestId
  | [] => []
  | step :: steps => (step.registered? table).toList ++ registrations (table.perform step) steps

/-- A table in which no number has been registered twice, but those of `numbers` once: slots differ
in their numbers, and none has lost its entry to another. -/
structure Unrepeated (numbers : List RequestId) (table : PendingTable) : Prop where
  matched : table.Matched
  distinct : (table.slots.map Slot.id).Nodup
  known : ∀ slot ∈ table.slots, slot.id ∈ numbers
  kept : ∀ slot ∈ table.slots, slot.state ≠ .orphaned

theorem unrepeated_new : Unrepeated [] .new where
  matched := matched_new
  distinct := List.nodup_nil
  known := fun _ h => nomatch h
  kept := fun _ h => nomatch h

namespace Unrepeated

variable {numbers : List RequestId} {table : PendingTable} (h : Unrepeated numbers table)

include h

/-- Slots of one number are one slot. -/
theorem eq_of_id {slot other : Slot} (hslot : slot ∈ table.slots) (hother : other ∈ table.slots)
    (hid : other.id = slot.id) : other = slot :=
  Lookup.eq_of_key h.distinct hother hslot hid

/-- Outcomes that come for numbers leave the slots with their numbers. -/
theorem settleBy {f : RequestId → Option SlotState} (hf : ∀ id, f id ≠ some .waiting)
    (horphaned : ∀ id, f id ≠ some .orphaned) : Unrepeated numbers (table.settleBy f) where
  matched := h.matched.settleBy hf
  distinct := by
    have hids : (table.settleBy f).slots.map Slot.id = table.slots.map Slot.id := by
      have hident := congrArg (List.map Prod.snd) (ident_settleBy table f)
      rwa [List.map_map, List.map_map] at hident
    rw [hids]
    exact h.distinct
  known := by
    intro slot hslot
    obtain ⟨old, hold, rfl⟩ := List.mem_map.1 hslot
    rw [Slot.id_settledBy]
    exact h.known old hold
  kept := by
    intro slot hslot
    obtain ⟨old, hold, rfl⟩ := List.mem_map.1 hslot
    unfold Slot.settledBy
    split
    · show (f old.id).getD .waiting ≠ .orphaned
      cases hfound : f old.id with
      | none => exact nofun
      | some state => exact fun hstate => horphaned old.id (hfound.trans (congrArg some hstate))
    · exact h.kept old hold

theorem resolve (id : RequestId) (outcome : Outcome) :
    Unrepeated numbers (table.resolve id outcome).2 := by
  rw [h.matched.resolve_eq]
  refine h.settleBy (only_ne_waiting (SlotState.resolved_ne_waiting outcome) id) fun other => ?_
  unfold only
  split <;> exact nofun

/-- A slot that is dropped is the only one of its number. -/
theorem drop {slot : Slot} (hslot : slot ∈ table.slots) :
    Unrepeated numbers (table.drop slot.key) := by
  have hmatched := h.matched.drop hslot
  -- Who stays has another number, and is not settled.
  have hslots : ∀ other ∈ (table.drop slot.key).slots, other ∈ table.slots := by
    intro other hother
    rw [h.matched.drop_eq hslot] at hother
    obtain ⟨hsettled, hkey⟩ := List.mem_filter.1 hother
    obtain ⟨old, hold, rfl⟩ := List.mem_map.1 hsettled
    rw [Slot.key_settledBy, decide_eq_true_eq] at hkey
    rw [Slot.settledBy_of_none (only_ne _ _)]
    · exact hold
    · exact fun hid => hkey (congrArg Slot.key (h.eq_of_id hslot hold hid))
  refine ⟨hmatched, ?_, fun other hother => h.known other (hslots other hother),
    fun other hother => h.kept other (hslots other hother)⟩
  have hevolves : Evolves (fun _ _ => True) table (table.drop slot.key) :=
    evolves_drop table slot.key
  have hids := (hevolves.slots.map Prod.snd)
  rw [List.map_map, List.map_map] at hids
  exact h.distinct.sublist hids

/-- A step that registers nothing keeps numbers apart. -/
theorem perform_of_none {step : Step} (hstep : step.registered? table = none) :
    Unrepeated numbers (table.perform step) := by
  cases step with
  | register id =>
      show Unrepeated numbers (table.register id).2
      cases hregister : table.register id with
      | mk answer next =>
          simp only [Step.registered?, hregister] at hstep
          cases answer with
          | ok key => cases hstep
          | error error =>
              rw [register_eq_error hregister]
              exact h
  | resolve id outcome => exact h.resolve id outcome
  | cancelAll outcome =>
      show Unrepeated numbers (table.cancelAll outcome).2
      have hsettled : Unrepeated numbers (table.settleBy fun _ => some (.resolved outcome)) :=
        h.settleBy (fun _ => nofun) fun _ => nofun
      have hmatched := h.matched.cancelAll outcome
      rw [h.matched.cancelAll_eq] at hmatched ⊢
      exact { hsettled with matched := hmatched }
  | drop key =>
      show Unrepeated numbers (table.drop key)
      cases hslot : table.slot? key with
      | none => simpa only [PendingTable.drop, hslot] using h
      | some slot =>
          rw [← show slot.key = key from Lookup.key_of_find? hslot]
          exact h.drop (List.mem_of_find?_eq_some hslot)
  | poll key => exact h
  | expire key =>
      show Unrepeated numbers (table.expire key)
      cases hslot : table.slot? key with
      | none => simpa only [PendingTable.expire, hslot] using h
      | some slot =>
          simp only [PendingTable.expire, hslot]
          split
          · exact h.resolve slot.id .timedOut
          · exact h

/-- A new number is that of a new slot. -/
theorem perform_of_some {step : Step} {id : RequestId} (hstep : step.registered? table = some id)
    (hnew : id ∉ numbers) : Unrepeated (numbers ++ [id]) (table.perform step) := by
  cases step with
  | register id' =>
      cases hregister : table.register id' with
      | mk answer next =>
          simp only [Step.registered?, hregister] at hstep
          cases answer with
          | error error => cases hstep
          | ok key =>
              cases hstep
              have hslots := (register_eq_ok hregister).2.2.2
              show Unrepeated _ (table.register id).2
              rw [hregister]
              refine ⟨h.matched.register hregister, ?_, ?_, ?_⟩ <;> simp only [hslots]
              · refine Lookup.nodup_snoc h.distinct fun slot hslot hid => hnew ?_
                rw [← show slot.id = id from hid]
                exact h.known slot hslot
              · intro slot hslot
                rcases List.mem_append.1 hslot with hold | hlast
                · exact List.mem_append_left _ (h.known slot hold)
                · rw [List.mem_singleton.1 hlast]
                  exact List.mem_append_right _ List.mem_cons_self
              · intro slot hslot
                rcases List.mem_append.1 hslot with hold | hlast
                · exact h.kept slot hold
                · rw [List.mem_singleton.1 hlast]
                  exact nofun
  | _ => cases hstep

theorem run {steps : List Step} (hnew : (numbers ++ registrations table steps).Nodup) :
    Unrepeated (numbers ++ registrations table steps) (table.run steps) := by
  induction steps generalizing numbers table with
  | nil => simpa [registrations] using h
  | cons step steps ih =>
      rw [registrations] at hnew ⊢
      cases hstep : step.registered? table with
      | none =>
          rw [hstep, Option.toList_none, List.nil_append] at hnew
          rw [Option.toList_none, List.nil_append]
          exact ih (h.perform_of_none hstep) hnew
      | some id =>
          rw [hstep, Option.toList_some, ← List.append_assoc] at hnew
          rw [Option.toList_some, ← List.append_assoc]
          refine ih (h.perform_of_some hstep fun hold => ?_) hnew
          exact (List.nodup_append.1 (List.nodup_append.1 hnew).1).2.2 id hold id
            List.mem_cons_self rfl

end Unrepeated

/-- In a run that registers no number twice, slots differ in their numbers. -/
theorem unrepeated_run {steps : List Step} (hsteps : (registrations .new steps).Nodup) :
    Unrepeated (registrations .new steps) (PendingTable.new.run steps) :=
  unrepeated_new.run hsteps

/-! ## Any two slots -/

/-- What can be done with `slot` in a table, beside `other`. -/
structure Beside (steps : List Step) (table : PendingTable) (slot other : Slot) : Prop where
  /-- A look at the slot, and the end of its time. -/
  poll : Spares table (table.perform (.poll slot.key)) slot other
  expire : Spares table (table.perform (.expire slot.key)) slot other
  /-- The slot is dropped. -/
  drop :
    (∀ waiting ∈ table.slots, waiting.state = .waiting → waiting.id = slot.id → waiting = slot) →
    Spares table (table.perform (.drop slot.key)) slot other
  robbed : other.state = .waiting → other.id = slot.id →
    Robs table (table.perform (.drop slot.key)) slot other
  /-- Where no number is registered twice, nobody is robbed. -/
  once : (registrations .new steps).Nodup →
    Spares table (table.perform (.drop slot.key)) slot other

/-- Whatever has been done with a new table, a slot that is looked at or whose time is over spares
every other, and one that is dropped robs exactly the slot that waits under its number. -/
theorem beside_run (steps : List Step) {slot other : Slot}
    (hslot : slot ∈ (PendingTable.new.run steps).slots)
    (hother : other ∈ (PendingTable.new.run steps).slots) (hne : other ≠ slot) :
    Beside steps (PendingTable.new.run steps) slot other := by
  have h := matched_new.run steps
  constructor
  · exact h.spares h (fun _ => id) (fun _ hentry _ => hentry) hother hother
  · exact h.spares_expire hslot hother hne
  · exact h.spares_drop hslot hother hne
  · exact h.robs_drop hslot hother hne
  · intro hsteps
    refine h.spares_drop hslot hother hne fun waiting hmem _ hid => ?_
    exact (unrepeated_run hsteps).eq_of_id hslot hmem hid

/-- A number is registered again after it has been resolved. The first slot is still held. -/
def reusedRun : List Step :=
  [.register ⟨1⟩, .resolve ⟨1⟩ (.reply ⟨#[120]⟩), .register ⟨1⟩]

theorem beside_of_reusedRun :
    (⟨0, ⟨1⟩, .resolved (.reply ⟨#[120]⟩)⟩ : Slot) ∈ (PendingTable.new.run reusedRun).slots ∧
      (⟨1, ⟨1⟩, .waiting⟩ : Slot) ∈ (PendingTable.new.run reusedRun).slots ∧
      Beside reusedRun (PendingTable.new.run reusedRun)
        ⟨0, ⟨1⟩, .resolved (.reply ⟨#[120]⟩)⟩ ⟨1, ⟨1⟩, .waiting⟩ := by
  have hslot : (⟨0, ⟨1⟩, .resolved (.reply ⟨#[120]⟩)⟩ : Slot) ∈
      (PendingTable.new.run reusedRun).slots := by decide
  have hother : (⟨1, ⟨1⟩, .waiting⟩ : Slot) ∈ (PendingTable.new.run reusedRun).slots := by decide
  exact ⟨hslot, hother, beside_run reusedRun hslot hother (by decide)⟩

/-- The first slot is dropped: the second, which waited under its own entry, reads as closed in a
table that is not closed, and what comes for its number is lost. -/
theorem closed_of_reusedRun :
    (PendingTable.new.run reusedRun).entries = [(⟨1⟩, 1)] ∧
      (PendingTable.new.run reusedRun).poll 1 = none ∧
      ((PendingTable.new.run reusedRun).drop 0).entries = [] ∧
      ((PendingTable.new.run reusedRun).drop 0).closed = false ∧
      ((PendingTable.new.run reusedRun).drop 0).poll 1 = some .closed ∧
      (((PendingTable.new.run reusedRun).drop 0).resolve ⟨1⟩ (.reply ⟨#[121]⟩)).1 = false ∧
      ¬ Spares (PendingTable.new.run reusedRun) ((PendingTable.new.run reusedRun).drop 0)
        ⟨0, ⟨1⟩, .resolved (.reply ⟨#[120]⟩)⟩ ⟨1, ⟨1⟩, .waiting⟩ := by
  refine ⟨by decide, by decide, by decide, by decide, by decide, by decide, fun hspares => ?_⟩
  have hfound := hspares.found
  revert hfound
  decide

end PendingTable

end Switchboard
