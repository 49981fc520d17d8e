import Switchboard.Proofs.Connection.Pending
import Switchboard.Proofs.Lookup

/-!
# Who waits in a pending table

In a table that is used by the rules the entries and the slots that wait are the same (`Matched`).
All that happens to such a table besides registrations then has one form: the slots that wait are
settled by the numbers of their requests, and the entries of those numbers go (`settleBy`). A
resolution, a forgotten number and the closing of the table differ only in which numbers they
settle, and how (`resolve_eq`, `forget_eq`, `cancelAll_eq`). Settling by two functions, one after
the other, is settling by the first of them that knows the number (`settleBy_settleBy`).
-/

namespace Switchboard

/-- What a caller finds in a slot, if it finds anything. -/
def SlotState.outcome? : SlotState → Option Outcome
  | waiting => none
  | resolved outcome => some outcome
  | orphaned => some .closed

theorem SlotState.orphaned_ne_waiting : SlotState.orphaned ≠ .waiting := nofun

theorem SlotState.resolved_ne_waiting (outcome : Outcome) : SlotState.resolved outcome ≠ .waiting :=
  nofun

/-- The slot after the numbers for which `f` has a state have been settled. -/
def Slot.settledBy (slot : Slot) (f : RequestId → Option SlotState) : Slot :=
  if slot.state = .waiting then { slot with state := (f slot.id).getD .waiting } else slot

section Slot

variable {slot : Slot} {f : RequestId → Option SlotState}

theorem Slot.ident_settledBy (slot : Slot) (f : RequestId → Option SlotState) :
    (slot.settledBy f).ident = slot.ident := by
  unfold Slot.settledBy
  split <;> rfl

theorem Slot.key_settledBy (slot : Slot) (f : RequestId → Option SlotState) :
    (slot.settledBy f).key = slot.key := congrArg Prod.fst (slot.ident_settledBy f)

theorem Slot.id_settledBy (slot : Slot) (f : RequestId → Option SlotState) :
    (slot.settledBy f).id = slot.id := congrArg Prod.snd (slot.ident_settledBy f)

theorem Slot.settledBy_of_state (h : slot.state ≠ .waiting) : slot.settledBy f = slot := if_neg h

theorem Slot.settledBy_of_none (h : f slot.id = none) : slot.settledBy f = slot := by
  by_cases hstate : slot.state = .waiting
  · rw [Slot.settledBy, if_pos hstate, h, Option.getD_none, ← hstate]
  · exact Slot.settledBy_of_state hstate

theorem Slot.state_settledBy {state : SlotState} (hstate : slot.state = .waiting)
    (h : f slot.id = some state) : (slot.settledBy f).state = state := by
  rw [Slot.settledBy, if_pos hstate, h, Option.getD_some]

theorem Slot.settledBy_congr {g : RequestId → Option SlotState} (h : f slot.id = g slot.id) :
    slot.settledBy f = slot.settledBy g := by
  unfold Slot.settledBy
  rw [h]

/-- A slot that waits afterwards is not touched. -/
theorem Slot.eq_of_waiting_settledBy (hf : ∀ id, f id ≠ some .waiting)
    (h : (slot.settledBy f).state = .waiting) :
    slot.settledBy f = slot ∧ slot.state = .waiting ∧ f slot.id = none := by
  by_cases hstate : slot.state = .waiting
  · cases hfound : f slot.id with
    | none => exact ⟨Slot.settledBy_of_none hfound, hstate, rfl⟩
    | some state =>
        rw [Slot.state_settledBy hstate hfound] at h
        exact absurd (h ▸ hfound) (hf slot.id)
  · rw [Slot.settledBy_of_state hstate] at h
    exact absurd h hstate

end Slot

namespace PendingTable

/-- One number and the state it is settled with. -/
def only (id : RequestId) (state : SlotState) : RequestId → Option SlotState :=
  fun other => if other = id then some state else none

theorem only_self (id : RequestId) (state : SlotState) : only id state id = some state := if_pos rfl

theorem only_ne {id other : RequestId} (h : other ≠ id) (state : SlotState) :
    only id state other = none := if_neg h

theorem only_ne_waiting {state : SlotState} (h : state ≠ .waiting) (id other : RequestId) :
    only id state other ≠ some .waiting := by
  unfold only
  split
  · exact fun hsame => h (Option.some.inj hsame)
  · exact Option.some_ne_none _ |>.symm

/-- Settles the slots that wait under the numbers for which `f` has a state. Their entries go. -/
def settleBy (table : PendingTable) (f : RequestId → Option SlotState) : PendingTable :=
  { table with
    entries := table.entries.filter fun entry => (f entry.1).isNone
    slots := table.slots.map fun slot => slot.settledBy f }

theorem settleBy_settleBy (table : PendingTable) {f : RequestId → Option SlotState}
    (hf : ∀ id, f id ≠ some .waiting) (g : RequestId → Option SlotState) :
    (table.settleBy f).settleBy g = table.settleBy fun id => (f id).or (g id) := by
  unfold settleBy
  simp only [List.filter_filter, List.map_map]
  congr 1
  · refine List.filter_congr fun entry _ => ?_
    cases f entry.1 <;> simp
  · refine List.map_congr_left fun slot _ => ?_
    show (slot.settledBy f).settledBy g = slot.settledBy fun id => (f id).or (g id)
    by_cases hstate : slot.state = .waiting
    · cases hfound : f slot.id with
      | none =>
          rw [Slot.settledBy_of_none hfound]
          simp only [Slot.settledBy, hfound, Option.none_or]
      | some state =>
          -- The first function has settled the slot, so the second does not find it waiting.
          have hset : (slot.settledBy f).state ≠ .waiting := by
            rw [Slot.state_settledBy hstate hfound]
            rintro rfl
            exact hf slot.id hfound
          rw [Slot.settledBy_of_state hset]
          simp only [Slot.settledBy, hfound, Option.some_or]
    · rw [Slot.settledBy_of_state hstate, Slot.settledBy_of_state hstate,
        Slot.settledBy_of_state hstate]

theorem settleBy_none (table : PendingTable) : (table.settleBy fun _ => none) = table := by
  have hslots : (table.slots.map fun slot => slot.settledBy fun _ => none) = table.slots :=
    List.map_id'' (fun _ => Slot.settledBy_of_none rfl) _
  have hentries : (table.entries.filter fun _ => true) = table.entries := List.filter_true _
  unfold settleBy
  simp only [Option.isNone_none, hslots, hentries]

theorem ident_settleBy (table : PendingTable) (f : RequestId → Option SlotState) :
    (table.settleBy f).slots.map Slot.ident = table.slots.map Slot.ident := by
  show (table.slots.map _).map Slot.ident = _
  rw [List.map_map]
  exact List.map_congr_left fun slot _ => slot.ident_settledBy f

theorem closed_resolve (table : PendingTable) (id : RequestId) (outcome : Outcome) :
    (table.resolve id outcome).2.closed = table.closed := by
  unfold resolve
  split <;> rfl

theorem closed_drop (table : PendingTable) (key : SlotKey) :
    (table.drop key).closed = table.closed := by
  unfold drop forget
  split
  · rfl
  · split <;> rfl

/-! ## Entries and slots -/

/-- The entries are those of the slots that wait, each under a number of its own. A closed table has
none. -/
structure Matched (table : PendingTable) : Prop where
  sound : table.Sound
  numbers : (table.entries.map Prod.fst).Nodup
  owned : ∀ entry ∈ table.entries,
    ∃ slot ∈ table.slots, slot.ident = (entry.2, entry.1) ∧ slot.state = .waiting
  waits : ∀ slot ∈ table.slots, slot.state = .waiting → (slot.id, slot.key) ∈ table.entries
  shut : table.closed = true → table.entries = []

theorem matched_new : Matched .new where
  sound := sound_new
  numbers := List.nodup_nil
  owned := fun _ h => nomatch h
  waits := fun _ h => nomatch h
  shut := fun _ => rfl

/-- A number that nobody waits under has no entry. -/
theorem ne_of_holder?_eq_none {table : PendingTable} {id : RequestId}
    (h : table.holder? id = none) :
    ∀ entry ∈ table.entries, entry.1 ≠ id := by
  intro entry hentry hid
  have hne := List.lookup_eq_none_iff.1 h entry hentry
  rw [hid] at hne
  simp at hne

theorem mem_entries_iff_holder? {table : PendingTable}
    (hnumbers : (table.entries.map Prod.fst).Nodup)
    {id : RequestId} {key : SlotKey} : table.holder? id = some key ↔ (id, key) ∈ table.entries := by
  refine ⟨mem_entries_of_holder?, ?_⟩
  intro hmem
  cases hholder : table.holder? id with
  | none => exact absurd rfl (ne_of_holder?_eq_none hholder _ hmem)
  | some other =>
      have hsame := Lookup.eq_of_key hnumbers hmem (mem_entries_of_holder? hholder) rfl
      rw [(Prod.mk.inj hsame).2]

/-- When slots are settled one after the other, those of them that wait are. -/
theorem foldl_settle (entries : List (RequestId × SlotKey)) (outcome : Outcome)
    (table : PendingTable) :
    entries.foldl (fun t entry => t.settle entry.2 (.resolved outcome)) table =
      { table with
        slots := table.slots.map fun slot =>
          if slot.key ∈ entries.map Prod.snd ∧ slot.state = .waiting then
            { slot with state := .resolved outcome }
          else slot } := by
  induction entries generalizing table with
  | nil => simp
  | cons entry entries ih =>
      rw [List.foldl_cons, ih]
      unfold settle
      simp only [List.map_map]
      congr 1
      refine List.map_congr_left fun slot _ => ?_
      simp only [Function.comp_apply, List.map_cons, List.mem_cons]
      by_cases hstate : slot.state = .waiting
      · by_cases hkey : slot.key = entry.2
        · simp only [hkey, hstate, and_self, if_true, true_or, reduceCtorEq, and_false, if_false]
        · simp only [hkey, hstate, false_and, if_false, false_or]
      · simp only [hstate, and_false, if_false]

/-- A request is registered in an open table, under a number that nobody waits under. -/
theorem of_register {table next : PendingTable} {id : RequestId} {key : SlotKey}
    (h : table.register id = (.ok key, next)) :
    table.closed = false ∧ next.closed = false ∧ table.holder? id = none := by
  unfold register at h
  by_cases hclosed : table.closed = true
  · rw [if_pos hclosed] at h
    cases h
  · have hopen : table.closed = false := Bool.eq_false_iff.2 hclosed
    rw [if_neg hclosed] at h
    by_cases hholder : (table.holder? id).isSome = true
    · rw [if_pos hholder] at h
      cases h
    · rw [if_neg hholder] at h
      cases h
      exact ⟨hopen, hopen, Option.not_isSome_iff_eq_none.1 hholder⟩

namespace Matched

variable {table : PendingTable} (h : table.Matched)

include h

theorem slot?_eq_some {slot : Slot} (hslot : slot ∈ table.slots) :
    table.slot? slot.key = some slot :=
  Lookup.find?_eq_some_of_mem h.sound.distinct hslot

/-- The slot that waits under a number is the one that the number would be resolved into. -/
theorem holder?_of_waiting {slot : Slot} (hslot : slot ∈ table.slots)
    (hstate : slot.state = .waiting) : table.holder? slot.id = some slot.key :=
  (mem_entries_iff_holder? h.numbers).2 (h.waits slot hslot hstate)

theorem exists_slot_of_holder? {id : RequestId} {key : SlotKey}
    (hholder : table.holder? id = some key) :
    ∃ slot ∈ table.slots, slot.ident = (key, id) ∧ slot.state = .waiting :=
  h.owned _ (mem_entries_of_holder? hholder)

/-- Settling the slot that holds a number, and taking out the entry of the number, is settling by
the number. -/
theorem settle_eraseEntry {id : RequestId} {key : SlotKey} (hholder : table.holder? id = some key)
    (state : SlotState) :
    (table.eraseEntry id).settle key state = table.settleBy (only id state) := by
  obtain ⟨holder, hmem, hident, -⟩ := h.exists_slot_of_holder? hholder
  unfold eraseEntry settle settleBy
  congr 1
  · refine List.filter_congr fun entry _ => ?_
    unfold only
    by_cases hid : entry.1 = id <;> simp [hid]
  · refine List.map_congr_left fun slot hslot => ?_
    by_cases hstate : slot.state = .waiting
    · by_cases hid : slot.id = id
      · have hkey : slot.key = key := by
          have hheld := h.holder?_of_waiting hslot hstate
          rw [hid, hholder] at hheld
          exact (Option.some.inj hheld).symm
        rw [if_pos ⟨hkey, hstate⟩, Slot.settledBy, if_pos hstate, hid, only_self, Option.getD_some]
      · have hkey : slot.key ≠ key := by
          intro hkey
          have hsame := Lookup.eq_of_key h.sound.distinct hslot hmem
            (hkey.trans (congrArg Prod.fst hident).symm)
          exact hid (hsame ▸ congrArg Prod.snd hident)
        rw [if_neg fun hboth => hkey hboth.1, Slot.settledBy_of_none (only_ne hid state)]
    · rw [if_neg fun hboth => hstate hboth.2, Slot.settledBy_of_state hstate]

/-- A number that nobody waits under is settled in vain. -/
theorem settleBy_only_of_none {id : RequestId} (hholder : table.holder? id = none)
    (state : SlotState) : table.settleBy (only id state) = table := by
  have hentries := ne_of_holder?_eq_none hholder
  unfold settleBy
  congr 1
  · refine List.filter_eq_self.2 fun entry hentry => ?_
    rw [only_ne (hentries entry hentry)]
    rfl
  · refine (List.map_congr_left fun slot hslot => ?_).trans (List.map_id _)
    by_cases hstate : slot.state = .waiting
    · exact Slot.settledBy_of_none (only_ne (hentries _ (h.waits slot hslot hstate)) state)
    · exact Slot.settledBy_of_state hstate

/-- A resolution settles the number with its outcome. -/
theorem resolve_eq (id : RequestId) (outcome : Outcome) :
    (table.resolve id outcome).2 = table.settleBy (only id (.resolved outcome)) := by
  unfold resolve
  cases hholder : table.holder? id with
  | none => exact (h.settleBy_only_of_none hholder _).symm
  | some key => exact h.settle_eraseEntry hholder _

/-- Who waits under a number that is forgotten is left without an entry. -/
theorem forget_eq (id : RequestId) : table.forget id = table.settleBy (only id .orphaned) := by
  unfold forget
  cases hholder : table.holder? id with
  | none => exact (h.settleBy_only_of_none hholder _).symm
  | some key => exact h.settle_eraseEntry hholder _

/-- When the table is closed, all slots that wait are settled. -/
theorem cancelAll_eq (outcome : Outcome) :
    (table.cancelAll outcome).2 =
      { table.settleBy fun _ => some (.resolved outcome) with closed := true } := by
  unfold cancelAll settleBy
  simp only [foldl_settle]
  congr 1
  · exact (List.filter_eq_nil_iff.2 fun _ _ => by simp).symm
  · refine List.map_congr_left fun slot hslot => ?_
    unfold Slot.settledBy
    by_cases hstate : slot.state = .waiting
    · have hmem := List.mem_map_of_mem (f := Prod.snd) (h.waits slot hslot hstate)
      rw [if_pos ⟨hmem, hstate⟩, if_pos hstate, Option.getD_some]
    · rw [if_neg fun hboth => hstate hboth.2, if_neg hstate]

/-- A slot that is dropped leaves the table when its number has been forgotten. -/
theorem drop_eq {slot : Slot} (hslot : slot ∈ table.slots) :
    table.drop slot.key =
      { table.settleBy (only slot.id .orphaned) with
        slots := (table.settleBy (only slot.id .orphaned)).slots.filter fun other =>
          other.key ≠ slot.key } := by
  -- A slot is settled and taken out in either order.
  have hcommute : ∀ key state, ((table.eraseEntry slot.id).settle key state).slots.filter
      (fun other => other.key ≠ slot.key) =
        (({ table with slots := table.slots.filter fun other => other.key ≠ slot.key }.eraseEntry
          slot.id).settle key state).slots := by
    intro key state
    unfold settle eraseEntry
    simp only
    rw [List.filter_map]
    congr 1
    refine List.filter_congr fun other _ => ?_
    show decide ((if other.key = key ∧
        other.state = .waiting then { other with state } else other).key
      ≠ slot.key) = decide (other.key ≠ slot.key)
    split <;> rfl
  rw [← h.forget_eq]
  unfold drop
  rw [h.slot?_eq_some hslot]
  show PendingTable.forget _ slot.id = _
  unfold forget holder?
  simp only
  cases table.entries.lookup slot.id with
  | none => rfl
  | some key =>
      simp only [hcommute]
      rfl

/-- What a caller that looks at its slot finds. -/
theorem poll_eq {slot : Slot} (hslot : slot ∈ table.slots) :
    table.poll slot.key = slot.state.outcome? := by
  unfold poll
  rw [h.slot?_eq_some hslot, Option.map_some]
  cases slot.state <;> rfl

/-- The time of a slot that waits is over. Another slot keeps what it holds. -/
theorem expire_eq {slot : Slot} (hslot : slot ∈ table.slots) :
    table.expire slot.key =
      if slot.state = .waiting then table.settleBy (only slot.id (.resolved .timedOut))
        else table := by
  unfold expire
  rw [h.slot?_eq_some hslot]
  simp only [h.resolve_eq]

/-! ### What keeps them matched -/

theorem settleBy {f : RequestId → Option SlotState} (hf : ∀ id, f id ≠ some .waiting) :
    (table.settleBy f).Matched where
  sound := by
    have hevolves : Evolves (fun _ _ => True) table (table.settleBy f) :=
      { nextKey := rfl
        entries := fun _ hentry => List.mem_of_mem_filter hentry
        slots := by rw [ident_settleBy]
        replies := fun _ _ _ _ => Or.inr trivial }
    exact hevolves.sound h.sound
  numbers := h.numbers.sublist (List.filter_sublist.map Prod.fst)
  owned := by
    intro entry hentry
    obtain ⟨hold, hnone⟩ := List.mem_filter.1 hentry
    obtain ⟨slot, hslot, hident, hstate⟩ := h.owned entry hold
    have hid : slot.id = entry.1 := congrArg Prod.snd hident
    -- An entry that stays has a number that is not settled, and so its slot stays.
    have hsame : slot.settledBy f = slot := by
      apply Slot.settledBy_of_none
      rw [hid]
      exact Option.isNone_iff_eq_none.1 hnone
    exact ⟨slot, List.mem_map.2 ⟨slot, hslot, hsame⟩, hident, hstate⟩
  waits := by
    intro slot hslot hstate
    obtain ⟨old, hold, rfl⟩ := List.mem_map.1 hslot
    obtain ⟨hsame, hwaiting, hnone⟩ := Slot.eq_of_waiting_settledBy hf hstate
    rw [hsame]
    refine List.mem_filter.2 ⟨h.waits old hold hwaiting, ?_⟩
    rw [hnone]
    rfl
  shut := by
    intro hclosed
    show List.filter _ _ = []
    rw [h.shut hclosed, List.filter_nil]

theorem cancelAll (outcome : Outcome) : (table.cancelAll outcome).2.Matched := by
  have hsettled := h.settleBy (f := fun _ => some (.resolved outcome)) fun _ hsame => by cases hsame
  rw [h.cancelAll_eq]
  refine { hsettled with sound := ?_, shut := ?_ }
  · exact { hsettled.sound with }
  · intro _
    exact List.filter_eq_nil_iff.2 fun _ _ => by simp

theorem drop {slot : Slot} (hslot : slot ∈ table.slots) : (table.drop slot.key).Matched := by
  have hforgotten := h.settleBy (only_ne_waiting SlotState.orphaned_ne_waiting slot.id)
  have hevolves : Evolves (fun _ _ => True) table (table.drop slot.key) :=
    evolves_drop table slot.key
  have hsound := hevolves.sound h.sound
  rw [h.drop_eq hslot] at hsound ⊢
  refine { hforgotten with sound := hsound, owned := ?_, waits := ?_ }
  · intro entry hentry
    obtain ⟨other, hother, hident, hstate⟩ := hforgotten.owned entry hentry
    refine ⟨other, List.mem_filter.2 ⟨hother, ?_⟩, hident, hstate⟩
    rw [decide_eq_true_eq]
    intro hkey
    -- The entry of the slot has gone with its number.
    obtain ⟨old, hold, rfl⟩ := List.mem_map.1 hother
    have hkeep := (Slot.eq_of_waiting_settledBy
      (only_ne_waiting SlotState.orphaned_ne_waiting slot.id) hstate)
    rw [hkeep.1] at hkey
    have hsame : old = slot := Lookup.eq_of_key h.sound.distinct hold hslot hkey
    rw [hsame, only_self] at hkeep
    exact absurd hkeep.2.2 (Option.some_ne_none _)
  · intro other hother hstate
    exact hforgotten.waits other (List.mem_of_mem_filter hother) hstate

theorem register {next : PendingTable} {id : RequestId} {key : SlotKey}
    (hregister : table.register id = (.ok key, next)) : next.Matched where
  sound := sound_register h.sound hregister
  numbers := by
    obtain ⟨-, -, hentries, -⟩ := register_eq_ok hregister
    rw [hentries]
    exact Lookup.nodup_snoc h.numbers (ne_of_holder?_eq_none (of_register hregister).2.2)
  owned := by
    obtain ⟨-, -, hentries, hslots⟩ := register_eq_ok hregister
    intro entry hentry
    rw [hentries, List.mem_append, List.mem_singleton] at hentry
    rw [hslots]
    rcases hentry with hold | rfl
    · obtain ⟨slot, hslot, hfound⟩ := h.owned entry hold
      exact ⟨slot, List.mem_append_left _ hslot, hfound⟩
    · exact ⟨_, List.mem_append_right _ List.mem_cons_self, rfl, rfl⟩
  waits := by
    obtain ⟨-, -, hentries, hslots⟩ := register_eq_ok hregister
    intro slot hslot hstate
    rw [hslots, List.mem_append, List.mem_singleton] at hslot
    rw [hentries]
    rcases hslot with hold | rfl
    · exact List.mem_append_left _ (h.waits slot hold hstate)
    · exact List.mem_append_right _ List.mem_cons_self
  shut := by
    obtain ⟨-, hopen, -⟩ := of_register hregister
    rw [hopen]
    exact fun hclosed => nomatch hclosed

theorem slot?_settleBy {f : RequestId → Option SlotState} (hf : ∀ id, f id ≠ some .waiting)
    {slot : Slot} (hslot : slot ∈ table.slots) :
    (table.settleBy f).slot? slot.key = some (slot.settledBy f) := by
  rw [← (h.settleBy hf).slot?_eq_some (List.mem_map_of_mem hslot), Slot.key_settledBy]

/-- What a caller finds in its slot when numbers have been settled. -/
theorem poll_settleBy {f : RequestId → Option SlotState} (hf : ∀ id, f id ≠ some .waiting)
    {slot : Slot} (hslot : slot ∈ table.slots) :
    (table.settleBy f).poll slot.key = (slot.settledBy f).state.outcome? := by
  rw [← (h.settleBy hf).poll_eq (List.mem_map_of_mem hslot), Slot.key_settledBy]

/-- What a caller whose time is over finds in its slot. -/
theorem poll_expire {slot : Slot} (hslot : slot ∈ table.slots) :
    (table.expire slot.key).poll slot.key = some (slot.state.outcome?.getD .timedOut) := by
  rw [h.expire_eq hslot]
  by_cases hstate : slot.state = .waiting
  · -- A slot that waits holds the timeout when its time is over.
    have hnot := only_ne_waiting (SlotState.resolved_ne_waiting .timedOut) slot.id
    rw [if_pos hstate, h.poll_settleBy hnot hslot,
      Slot.state_settledBy hstate (only_self slot.id _), hstate]
    rfl
  · rw [if_neg hstate, h.poll_eq hslot]
    cases hfound : slot.state with
    | waiting => exact absurd hfound hstate
    | resolved outcome => rfl
    | orphaned => rfl

/-- Whether the time of a slot is over makes no difference when the slot is dropped. -/
theorem drop_expire {slot : Slot} (hslot : slot ∈ table.slots) :
    (table.expire slot.key).drop slot.key = table.drop slot.key := by
  rw [h.expire_eq hslot]
  by_cases hstate : slot.state = .waiting
  · have hnot := only_ne_waiting (SlotState.resolved_ne_waiting .timedOut) slot.id
    have hmem : slot.settledBy (only slot.id (.resolved .timedOut)) ∈
        (table.settleBy (only slot.id (.resolved .timedOut))).slots :=
      List.mem_map_of_mem hslot
    have hdrop := (h.settleBy hnot).drop_eq hmem
    rw [Slot.key_settledBy, Slot.id_settledBy, settleBy_settleBy table hnot] at hdrop
    rw [if_pos hstate, hdrop, h.drop_eq hslot]
    unfold PendingTable.settleBy
    simp only [List.filter_map]
    congr 1
    · refine List.filter_congr fun entry _ => ?_
      unfold only
      by_cases hentry : entry.1 = slot.id <;> simp [hentry]
    · simp only [Function.comp_def, Slot.key_settledBy]
      refine List.map_congr_left fun other hother => ?_
      -- No other slot waits under the number.
      obtain ⟨hmem', hne⟩ := List.mem_filter.1 hother
      by_cases hwaiting : other.state = .waiting
      · have hids : other.id ≠ slot.id := by
          intro hids
          have hheld := h.holder?_of_waiting hmem' hwaiting
          rw [hids, h.holder?_of_waiting hslot hstate] at hheld
          exact of_decide_eq_true hne (Option.some.inj hheld).symm
        rw [Slot.settledBy_of_none (only_ne hids _), Slot.settledBy_of_none]
        rw [only_ne hids, only_ne hids, Option.or_none]
      · rw [Slot.settledBy_of_state hwaiting, Slot.settledBy_of_state hwaiting]
  · rw [if_neg hstate]

/-- A registration that is taken back leaves nothing but a name that has been passed over. -/
theorem drop_register {next : PendingTable} {id : RequestId} {key : SlotKey}
    (hregister : table.register id = (.ok key, next)) :
    next.drop key = { table with nextKey := table.nextKey + 1 } := by
  obtain ⟨hkey, hnext, hentries, hslots⟩ := register_eq_ok hregister
  obtain ⟨hopen, hstill, hholder⟩ := of_register hregister
  have hmem : (⟨table.nextKey, id, .waiting⟩ : Slot) ∈ next.slots := by
    rw [hslots]
    exact List.mem_append_right _ List.mem_cons_self
  have hdrop := (h.register hregister).drop_eq hmem
  have hold := h.settleBy_only_of_none hholder .orphaned
  rw [hkey, hdrop]
  unfold PendingTable.settleBy at hold ⊢
  have hentries' := congrArg PendingTable.entries hold
  have hslots' := congrArg PendingTable.slots hold
  simp only at hentries' hslots'
  rw [hentries, hslots, hnext, hstill]
  simp only [List.filter_append, List.map_append, hentries', hslots']
  have hothers : (table.slots.filter fun other => other.key ≠ table.nextKey) = table.slots := by
    refine List.filter_eq_self.2 fun other hother => ?_
    exact decide_eq_true (Nat.ne_of_lt (h.sound.keys other hother))
  rw [hothers, hopen]
  simp [only_self, Slot.settledBy]

end Matched

end PendingTable

end Switchboard
