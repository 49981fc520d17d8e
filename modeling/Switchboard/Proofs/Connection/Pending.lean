import Switchboard.Client.Pending
import Switchboard.Proofs.Lookup

/-!
# What becomes of a pending table

Whatever happens to a pending table but a registration, no slot and no entry is new, and a slot
holds a reply only if it held it before or the reply came under the number of the slot's request
(`Evolves`). A slot is found under the number of its request as long as entries and slots agree
(`Sound`).
-/

namespace Switchboard

/-- Who a slot is: its name, and the number of its request. -/
def Slot.ident (slot : Slot) : SlotKey × RequestId := (slot.key, slot.id)

namespace PendingTable

/-- Slots have different names, and an entry leads to the slot of its number. -/
structure Sound (table : PendingTable) : Prop where
  keys : ∀ slot ∈ table.slots, slot.key < table.nextKey
  distinct : (table.slots.map Slot.key).Nodup
  entries : ∀ entry ∈ table.entries, entry.2 < table.nextKey ∧
    ∀ slot ∈ table.slots, slot.key = entry.2 → slot.id = entry.1

theorem sound_new : Sound .new where
  keys := fun _ h => nomatch h
  distinct := List.nodup_nil
  entries := fun _ h => nomatch h

/-- A table in which no request has been registered since, and no replies have come but those that
`replied` tells of. -/
structure Evolves (replied : RequestId → ByteArray → Prop) (before after : PendingTable) :
    Prop where
  nextKey : after.nextKey = before.nextKey
  entries : ∀ entry ∈ after.entries, entry ∈ before.entries
  slots : (after.slots.map Slot.ident).Sublist (before.slots.map Slot.ident)
  replies : ∀ slot ∈ after.slots, ∀ payload, slot.state = .resolved (.reply payload) →
    slot ∈ before.slots ∨ replied slot.id payload

namespace Evolves

variable {replied : RequestId → ByteArray → Prop} {a b c : PendingTable}

theorem refl (table : PendingTable) : Evolves replied table table where
  nextKey := rfl
  entries := fun _ h => h
  slots := List.Sublist.refl _
  replies := fun _ h _ _ => Or.inl h

theorem trans (hab : Evolves replied a b) (hbc : Evolves replied b c) : Evolves replied a c where
  nextKey := hbc.nextKey.trans hab.nextKey
  entries := fun entry h => hab.entries entry (hbc.entries entry h)
  slots := hbc.slots.trans hab.slots
  replies := by
    intro slot hslot payload hstate
    rcases hbc.replies slot hslot payload hstate with hold | hnew
    · exact hab.replies slot hold payload hstate
    · exact Or.inr hnew

theorem mono {replied' : RequestId → ByteArray → Prop} (h : Evolves replied a b)
    (himp : ∀ id payload, replied id payload → replied' id payload) : Evolves replied' a b where
  nextKey := h.nextKey
  entries := h.entries
  slots := h.slots
  replies := fun slot hslot payload hstate =>
    (h.replies slot hslot payload hstate).imp_right (himp slot.id payload)

/-- Every slot has been there under the same name and number. -/
theorem exists_slot (h : Evolves replied a b) {slot : Slot} (hslot : slot ∈ b.slots) :
    ∃ old ∈ a.slots, old.key = slot.key ∧ old.id = slot.id := by
  obtain ⟨old, hold, hident⟩ := List.mem_map.1 (h.slots.subset (List.mem_map_of_mem hslot))
  exact ⟨old, hold, congrArg Prod.fst hident, congrArg Prod.snd hident⟩

theorem sound (h : Evolves replied a b) (hsound : a.Sound) : b.Sound where
  keys := by
    intro slot hslot
    obtain ⟨old, hold, hkey, -⟩ := h.exists_slot hslot
    rw [h.nextKey, ← hkey]
    exact hsound.keys old hold
  distinct := by
    have hkeys : ∀ slots : List Slot, slots.map Slot.key = (slots.map Slot.ident).map Prod.fst := by
      intro slots
      rw [List.map_map]
      rfl
    have hdistinct := hsound.distinct
    rw [hkeys] at hdistinct ⊢
    exact hdistinct.sublist (h.slots.map Prod.fst)
  entries := by
    intro entry hentry
    obtain ⟨hlt, hslots⟩ := hsound.entries entry (h.entries entry hentry)
    refine ⟨h.nextKey ▸ hlt, ?_⟩
    intro slot hslot hkey
    obtain ⟨old, hold, hkey', hid⟩ := h.exists_slot hslot
    rw [← hid]
    exact hslots old hold (hkey'.trans hkey)

end Evolves

/-! ## Operations -/

section Operations

variable {replied : RequestId → ByteArray → Prop}

theorem evolves_eraseEntry (table : PendingTable) (id : RequestId) :
    Evolves replied table (table.eraseEntry id) where
  nextKey := rfl
  entries := fun _ h => List.mem_of_mem_filter h
  slots := List.Sublist.refl _
  replies := fun _ h _ _ => Or.inl h

/-- A state is put into slots of one name. -/
theorem evolves_settle {table : PendingTable} {key : SlotKey} {state : SlotState}
    (h : ∀ slot ∈ table.slots, slot.key = key →
      ∀ payload, state = .resolved (.reply payload) → replied slot.id payload) :
    Evolves replied table (table.settle key state) where
  nextKey := rfl
  entries := fun _ h => h
  slots := by
    have hident : (table.settle key state).slots.map Slot.ident = table.slots.map Slot.ident := by
      show (table.slots.map _).map Slot.ident = _
      rw [List.map_map]
      refine List.map_congr_left fun slot _ => ?_
      show Slot.ident (if slot.key = key ∧ slot.state = .waiting then { slot with state }
          else slot) =
        slot.ident
      split <;> rfl
    rw [hident]
  replies := by
    intro slot hslot payload hstate
    obtain ⟨old, hold, rfl⟩ := List.mem_map.1 hslot
    by_cases hsettled : old.key = key ∧ old.state = .waiting
    · rw [if_pos hsettled] at hstate ⊢
      exact Or.inr (h old hold hsettled.1 payload hstate)
    · rw [if_neg hsettled]
      exact Or.inl hold

theorem mem_entries_of_holder? {table : PendingTable} {id : RequestId} {key : SlotKey}
    (h : table.holder? id = some key) : (id, key) ∈ table.entries := by
  unfold holder? at h
  obtain ⟨before, after, hentries, -⟩ := List.lookup_eq_some_iff.1 h
  rw [hentries]
  exact List.mem_append_right _ List.mem_cons_self

/-- A reply goes to the slot of its number. -/
theorem evolves_resolve {table : PendingTable} {id : RequestId} {outcome : Outcome}
    (h : ∀ payload, outcome = .reply payload → table.Sound ∧ replied id payload) :
    Evolves replied table (table.resolve id outcome).2 := by
  unfold resolve
  cases hholder : table.holder? id with
  | none => exact .refl table
  | some key =>
      refine (evolves_eraseEntry table id).trans (evolves_settle ?_)
      intro slot hslot hkey payload hstate
      obtain ⟨hsound, hreplied⟩ := h payload (SlotState.resolved.inj hstate)
      have hid : slot.id = id :=
        (hsound.entries _ (mem_entries_of_holder? hholder)).2 slot hslot hkey
      rw [hid]
      exact hreplied

theorem evolves_forget (table : PendingTable) (id : RequestId) :
    Evolves replied table (table.forget id) := by
  unfold forget
  split
  · exact .refl table
  · exact (evolves_eraseEntry table id).trans (evolves_settle fun _ _ _ _ h => nomatch h)

theorem evolves_drop (table : PendingTable) (key : SlotKey) :
    Evolves replied table (table.drop key) := by
  unfold drop
  split
  · exact .refl table
  · refine Evolves.trans ?_ (evolves_forget _ _)
    exact ⟨rfl, fun _ h => h, List.filter_sublist.map _,
      fun _ h _ _ => Or.inl (List.mem_of_mem_filter h)⟩

theorem evolves_expire (table : PendingTable) (key : SlotKey) :
    Evolves replied table (table.expire key) := by
  unfold expire
  split
  · split
    · exact evolves_resolve fun _ h => nomatch h
    · exact .refl table
  · exact .refl table

/-- When a table is closed, no slot gets a reply. -/
theorem evolves_cancelAll (table : PendingTable) {outcome : Outcome}
    (h : ∀ payload, outcome ≠ .reply payload) :
    Evolves replied table (table.cancelAll outcome).2 := by
  have hfold : ∀ (entries : List (RequestId × SlotKey)) (t : PendingTable), Evolves replied t
      (entries.foldl (fun t entry => t.settle entry.2 (.resolved outcome)) t) := by
    intro entries
    induction entries with
    | nil => exact .refl
    | cons entry entries ih =>
        intro t
        refine Evolves.trans (evolves_settle ?_) (ih _)
        intro slot _ _ payload hstate
        exact absurd (SlotState.resolved.inj hstate) (h payload)
  refine (hfold table.entries table).trans ?_
  exact ⟨rfl, fun _ hentry => (nomatch hentry), List.Sublist.refl _,
    fun _ hslot _ _ => Or.inl hslot⟩

/-- A request that is registered is given a slot that nobody had before. -/
theorem register_eq_ok {table next : PendingTable} {id : RequestId} {key : SlotKey}
    (h : table.register id = (.ok key, next)) :
    key = table.nextKey ∧ next.nextKey = table.nextKey + 1 ∧
      next.entries = table.entries ++ [(id, table.nextKey)] ∧
      next.slots = table.slots ++ [⟨table.nextKey, id, .waiting⟩] := by
  unfold register at h
  split at h
  · cases h
  · split at h
    · cases h
    · cases h
      exact ⟨rfl, rfl, rfl, rfl⟩

theorem register_eq_error {table next : PendingTable} {id : RequestId} {error : ClientError}
    (h : table.register id = (.error error, next)) : next = table := by
  unfold register at h
  split at h
  · cases h
    rfl
  · split at h
    · cases h
      rfl
    · cases h

theorem sound_register {table next : PendingTable} {id : RequestId} {key : SlotKey}
    (hsound : table.Sound) (h : table.register id = (.ok key, next)) : next.Sound := by
  obtain ⟨-, hnext, hentries, hslots⟩ := register_eq_ok h
  have hold : ∀ slot ∈ table.slots, slot.key < table.nextKey := hsound.keys
  constructor
  · rw [hslots, hnext]
    exact fun slot hslot => Lookup.lt_succ_of_mem_snoc hold rfl hslot
  · rw [hslots]
    exact Lookup.nodup_snoc hsound.distinct fun slot hslot => Nat.ne_of_lt (hold slot hslot)
  · intro entry hentry
    rw [hentries, List.mem_append, List.mem_singleton] at hentry
    rw [hnext, hslots]
    rcases hentry with hentry | rfl
    · obtain ⟨hlt, hfound⟩ := hsound.entries entry hentry
      refine ⟨Nat.lt_succ_of_lt hlt, ?_⟩
      intro slot hslot hkey
      rw [List.mem_append, List.mem_singleton] at hslot
      rcases hslot with hslot | rfl
      · exact hfound slot hslot hkey
      · exact absurd hkey (Nat.ne_of_gt hlt)
    · refine ⟨Nat.lt_succ_self _, ?_⟩
      intro slot hslot hkey
      rw [List.mem_append, List.mem_singleton] at hslot
      rcases hslot with hslot | rfl
      · exact absurd hkey (Nat.ne_of_lt (hold slot hslot))
      · rfl

end Operations

/-- What a caller reads as a reply stands in its slot. -/
theorem exists_slot_of_poll {table : PendingTable} {key : SlotKey} {payload : ByteArray}
    (h : table.poll key = some (.reply payload)) :
    ∃ slot ∈ table.slots, slot.key = key ∧ slot.state = .resolved (.reply payload) := by
  unfold poll at h
  cases hslot : table.slot? key with
  | none =>
      rw [hslot] at h
      cases h
  | some slot =>
      rw [hslot] at h
      refine ⟨slot, List.mem_of_find?_eq_some hslot, ?_, ?_⟩
      · simpa using List.find?_some hslot
      · cases hstate : slot.state with
        | waiting =>
            simp only [Option.map_some, hstate, reduceCtorEq] at h
        | orphaned =>
            simp only [Option.map_some, hstate, Option.some.injEq, reduceCtorEq] at h
        | resolved outcome =>
            simp only [Option.map_some, hstate, Option.some.injEq] at h
            rw [h]

end PendingTable

end Switchboard
