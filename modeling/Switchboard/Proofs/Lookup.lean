import Mathlib.Data.List.Nodup

/-!
# Looking up in lists of keyed records

Routers, relays and networks keep their parts in lists, find a part by its key, and put another
record in the place of the one with its key. What such a replacement does to a look-up depends on
the key alone (`find?_replace_self`, `find?_replace_ne`).
-/

namespace Switchboard

namespace Lookup

variable {α κ : Type} [DecidableEq κ]

/-- The list with `new` in the place of every record that has its key. -/
def replace (key : α → κ) (new : α) (l : List α) : List α :=
  l.map fun old => if key old = key new then new else old

theorem replace_cons (key : α → κ) (new a : α) (l : List α) :
    replace key new (a :: l) = (if key a = key new then new else a) :: replace key new l := rfl

/-- Replacing a record does not change the keys. -/
theorem map_key_replace (key : α → κ) (new : α) (l : List α) :
    (replace key new l).map key = l.map key := by
  induction l with
  | nil => rfl
  | cons a l ih =>
      rw [replace_cons, List.map_cons, List.map_cons, ih]
      by_cases h : key a = key new
      · rw [if_pos h, h]
      · rw [if_neg h]

/-- A key that is there is found with the new record. -/
theorem find?_replace_self (key : α → κ) (new : α) (l : List α) :
    (replace key new l).find? (fun a => key a = key new) =
      (l.find? fun a => key a = key new).map fun _ => new := by
  induction l with
  | nil => rfl
  | cons a l ih =>
      rw [replace_cons]
      by_cases h : key a = key new
      · simp [h]
      · simp [h, ih]

/-- Another key is found with the record it had. -/
theorem find?_replace_ne (key : α → κ) (new : α) (l : List α) {k : κ} (hk : k ≠ key new) :
    (replace key new l).find? (fun a => key a = k) = l.find? fun a => key a = k := by
  induction l with
  | nil => rfl
  | cons a l ih =>
      rw [replace_cons]
      by_cases h : key a = key new
      · have h1 : ¬ key new = k := fun e => hk e.symm
        have h2 : ¬ key a = k := fun e => hk (e.symm.trans h)
        simp [h, h1, ih]
      · rw [if_neg h, List.find?_cons, List.find?_cons, ih]

/-- Where no record changes its key, a key is found with what its record has become. -/
theorem find?_map {key : α → κ} {g : α → α} (hg : ∀ a, key (g a) = key a) (l : List α) (k : κ) :
    ((l.map g).find? fun a => key a = k) = (l.find? fun a => key a = k).map g := by
  rw [List.find?_map]
  simp only [Function.comp_def, hg]

/-- What is in the list with a replacement is the replacement or was there before. -/
theorem mem_replace {key : α → κ} {new a : α} {l : List α} (h : a ∈ replace key new l) :
    a = new ∨ (a ∈ l ∧ key a ≠ key new) := by
  obtain ⟨old, hold, rfl⟩ := List.mem_map.1 h
  by_cases hkey : key old = key new
  · exact Or.inl (if_pos hkey)
  · rw [if_neg hkey]
    exact Or.inr ⟨hold, hkey⟩

/-- What has another key stays. -/
theorem mem_replace_of_ne {key : α → κ} {new a : α} {l : List α} (ha : a ∈ l)
    (hkey : key a ≠ key new) : a ∈ replace key new l :=
  List.mem_map.2 ⟨a, ha, if_neg hkey⟩

/-- The replacement is there if its key was. -/
theorem mem_replace_self {key : α → κ} {new a : α} {l : List α} (ha : a ∈ l)
    (hkey : key a = key new) : new ∈ replace key new l :=
  List.mem_map.2 ⟨a, ha, if_pos hkey⟩

/-- A record that is found has the key it was looked up by. -/
theorem key_of_find? {key : α → κ} {l : List α} {k : κ} {a : α}
    (h : (l.find? fun a => key a = k) = some a) : key a = k := by
  simpa using List.find?_some h

/-- Among records with different keys, a record is found by its key. -/
theorem find?_eq_some_of_mem {key : α → κ} {l : List α} (hl : (l.map key).Nodup) {a : α}
    (ha : a ∈ l) : (l.find? fun b => key b = key a) = some a := by
  induction l with
  | nil => cases ha
  | cons b l ih =>
      rw [List.map_cons, List.nodup_cons] at hl
      rcases List.mem_cons.1 ha with rfl | ha
      · simp
      · have hne : ¬ key b = key a := by
          intro e
          exact hl.1 (e ▸ List.mem_map_of_mem ha)
        rw [List.find?_cons, decide_eq_false hne]
        exact ih hl.2 ha

/-- The last of two replacements for one key counts. -/
theorem replace_replace {key : α → κ} {new newer : α} (hkey : key new = key newer) (l : List α) :
    replace key newer (replace key new l) = replace key newer l := by
  unfold replace
  rw [List.map_map]
  refine List.map_congr_left fun a _ => ?_
  show (if key (if key a = key new then new else a) = key newer then newer
    else (if key a = key new then new else a)) = if key a = key newer then newer else a
  by_cases h : key a = key new
  · rw [if_pos h, if_pos hkey, if_pos (h.trans hkey)]
  · rw [if_neg h]

/-- Records with different keys are the same if they have the same key. -/
theorem eq_of_key {key : α → κ} {l : List α} (hl : (l.map key).Nodup) {a b : α} (ha : a ∈ l)
    (hb : b ∈ l) (hkey : key a = key b) : a = b := by
  have hfound := find?_eq_some_of_mem hl ha
  rw [hkey, find?_eq_some_of_mem hl hb] at hfound
  exact (Option.some.inj hfound).symm

/-- What has no record to replace stays as it is. -/
theorem replace_eq_self {key : α → κ} {new : α} {l : List α} (h : ∀ a ∈ l, key a ≠ key new) :
    replace key new l = l := by
  induction l with
  | nil => rfl
  | cons a l ih =>
      rw [replace_cons, if_neg (h a List.mem_cons_self),
        ih fun b hb => h b (List.mem_cons_of_mem a hb)]

/-- A replacement counts for what it replaces. -/
theorem countP_replace {key : α → κ} {new old : α} {l : List α} (hl : (l.map key).Nodup)
    (hold : old ∈ l) (hkey : key old = key new) (p : α → Bool) :
    (replace key new l).countP p + (if p old then 1 else 0) =
      l.countP p + if p new then 1 else 0 := by
  induction l with
  | nil => cases hold
  | cons a l ih =>
      rw [List.map_cons, List.nodup_cons] at hl
      rw [replace_cons]
      by_cases h : key a = key new
      · -- No other record of the list has the key.
        have hothers : ∀ b ∈ l, key b ≠ key new := by
          intro b hb e
          exact hl.1 (h ▸ e ▸ List.mem_map_of_mem hb)
        have hsame : old = a := by
          rcases List.mem_cons.1 hold with e | hmem
          · exact e
          · exact absurd hkey (hothers old hmem)
        rw [if_pos h, replace_eq_self hothers, List.countP_cons, List.countP_cons, hsame]
        omega
      · have hmem : old ∈ l := by
          rcases List.mem_cons.1 hold with rfl | hmem
          · exact absurd hkey h
          · exact hmem
        have htail := ih hl.2 hmem
        rw [if_neg h, List.countP_cons, List.countP_cons]
        omega

/-- Among records with different keys, a record stands beside those of other keys. -/
theorem perm_cons_filter {key : α → κ} {l : List α} (hl : (l.map key).Nodup) {a : α} (ha : a ∈ l) :
    l.Perm (a :: l.filter fun b => key b ≠ key a) := by
  induction l with
  | nil => cases ha
  | cons b l ih =>
      rw [List.map_cons, List.nodup_cons] at hl
      by_cases h : key b = key a
      · -- No other record of the list has the key.
        have hothers : ∀ c ∈ l, key c ≠ key a := by
          intro c hc e
          exact hl.1 (h ▸ e ▸ List.mem_map_of_mem hc)
        have hsame : b = a := by
          rcases List.mem_cons.1 ha with e | hmem
          · exact e.symm
          · exact absurd rfl (hothers a hmem)
        rw [List.filter_cons_of_neg (by simpa using h), hsame,
          List.filter_eq_self.2 fun c hc => by simpa using hothers c hc]
      · have hmem : a ∈ l := by
          rcases List.mem_cons.1 ha with e | hmem
          · exact absurd (congrArg key e.symm) h
          · exact hmem
        rw [List.filter_cons_of_pos (by simpa using h)]
        exact ((ih hl.2 hmem).cons b).trans (List.Perm.swap a b _)

/-! ## A new record -/

omit [DecidableEq κ] in
/-- A record with a key that no other has comes last. -/
theorem nodup_snoc {key : α → κ} {l : List α} {a : α} (hl : (l.map key).Nodup)
    (ha : ∀ b ∈ l, key b ≠ key a) : ((l ++ [a]).map key).Nodup := by
  rw [List.map_append, List.map_singleton]
  refine List.nodup_append.2 ⟨hl, List.nodup_singleton _, ?_⟩
  intro x hx y hy
  obtain ⟨b, hb, rfl⟩ := List.mem_map.1 hx
  rw [List.mem_singleton.1 hy]
  exact ha b hb

/-- A record that is given the next key comes last. -/
theorem lt_succ_of_mem_snoc {key : α → Nat} {l : List α} {a b : α} {next : Nat}
    (hl : ∀ c ∈ l, key c < next) (ha : key a = next) (hb : b ∈ l ++ [a]) : key b < next + 1 := by
  rcases List.mem_append.1 hb with hold | hnew
  · exact Nat.lt_succ_of_lt (hl b hold)
  · rw [List.mem_singleton.1 hnew, ha]
    exact Nat.lt_succ_self next

end Lookup

end Switchboard
