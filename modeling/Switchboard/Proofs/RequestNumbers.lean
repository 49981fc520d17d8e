import Mathlib.Data.List.Basic
import Switchboard.Client.RequestIds

/-!
# Request numbers over any number of attempts

The attempts at a source, whoever makes them, come one after the other, so that a run is given by
their number. What the attempt at position `k` of a new source gives is known for every `k`
(`attempt`, `takeMany_new`). A run gives no number twice, never gives zero and stays exhausted once
it is (`Unrepeated`) exactly as long as it has fewer attempts than there are words
(`unrepeated_iff`): the last of these is the first to fail. The counter has moved on by then, so
that the attempt behind it gives zero (`take_of_failed`), and the numbers come again in the same
order (`attempt_add_size`).
-/

namespace Switchboard

namespace RequestIds

/-! ## Single attempts -/

theorem take_eq_none_iff {ids : RequestIds} : ids.take.1 = none ↔ ids.next = exhausted := by
  simp [take]

theorem take_eq_some_iff {ids : RequestIds} {id : RequestId} :
    ids.take.1 = some id ↔ ids.next ≠ exhausted ∧ id.value = ids.next := by
  obtain ⟨value⟩ := id
  simp [take, eq_comm]

/-- The attempt behind one that has failed gives the number that belongs to no request. -/
theorem take_of_failed {ids : RequestIds} (h : ids.take.1 = none) :
    ids.take.2.take.1 = some .none := by
  have hnext : ids.next = exhausted := take_eq_none_iff.mp h
  have hzero : ids.take.2.next = 0 := by
    rw [take, hnext]
    rfl
  apply take_eq_some_iff.mpr
  rw [hzero]
  exact ⟨by decide, rfl⟩

/-! ## Runs -/

/-- Every attempt moves the counter on by one, whether it fails or not. -/
theorem takeMany_eq_map (n : Nat) (ids : RequestIds) :
    takeMany n ids =
      (List.range n).map fun k => (⟨ids.next + UInt64.ofNat k⟩ : RequestIds).take.1 := by
  induction n generalizing ids with
  | zero => rfl
  | succ n ih =>
      have hmoved (k : Nat) : ids.next + 1 + UInt64.ofNat k = ids.next + UInt64.ofNat (k + 1) := by
        rw [UInt64.add_assoc, UInt64.ofNat_add, UInt64.add_comm 1]
        rfl
      rw [takeMany, ih, List.range_succ_eq_map, List.map_cons, List.map_map]
      simp [Function.comp_def, take, hmoved]

/-- What attempt `k` at a new source gives, the first being attempt zero. -/
def attempt (k : Nat) : Option RequestId := (⟨UInt64.ofNat (k + 1)⟩ : RequestIds).take.1

theorem takeMany_new (n : Nat) : takeMany n new = (List.range n).map attempt := by
  have hfirst (k : Nat) : 1 + UInt64.ofNat k = UInt64.ofNat (k + 1) := by
    rw [UInt64.ofNat_add, UInt64.add_comm]
    rfl
  rw [takeMany_eq_map]
  simp [attempt, new, hfirst]

/-- Where the counter stands at attempt `k`. -/
theorem toNat_ofNat_succ (k : Nat) : (UInt64.ofNat (k + 1)).toNat = (k + 1) % UInt64.size :=
  UInt64.toNat_ofNat'

theorem attempt_eq_none_iff {k : Nat} :
    attempt k = none ↔ (k + 1) % UInt64.size = UInt64.size - 1 := by
  rw [attempt, take_eq_none_iff, ← UInt64.toNat_inj, toNat_ofNat_succ]
  rfl

theorem attempt_eq_some_iff {k : Nat} {id : RequestId} :
    attempt k = some id ↔
      (k + 1) % UInt64.size ≠ UInt64.size - 1 ∧ id.value.toNat = (k + 1) % UInt64.size := by
  rw [attempt, take_eq_some_iff, ← UInt64.toNat_inj, toNat_ofNat_succ, ne_eq, ← UInt64.toNat_inj,
    toNat_ofNat_succ]
  rfl

/-- The counter runs in a circle. -/
theorem attempt_add_size (k : Nat) : attempt (k + UInt64.size) = attempt k := by
  have hword : UInt64.ofNat (k + UInt64.size + 1) = UInt64.ofNat (k + 1) := by
    apply UInt64.toNat_inj.mp
    rw [toNat_ofNat_succ, toNat_ofNat_succ, Nat.add_right_comm, Nat.add_mod_right]
  rw [attempt, hword, attempt]

/-! ## Numbers that are not given twice -/

/-- The results of a run as callers rely on them. -/
structure Unrepeated (results : List (Option RequestId)) : Prop where
  distinct : ∀ (i j : Nat) (id : RequestId), results[i]? = some (some id) →
    results[j]? = some (some id) → i = j
  nonzero : some RequestId.none ∉ results
  /-- Once an attempt has failed, so does every later one. -/
  final : ∀ i j : Nat, i ≤ j → j < results.length → results[i]? = some none →
    results[j]? = some none

theorem getElem?_takeMany_new {n k : Nat} {result : Option RequestId} :
    (takeMany n new)[k]? = some result ↔ k < n ∧ attempt k = result := by
  rw [takeMany_new, List.getElem?_map, Option.map_eq_some_iff]
  constructor
  · rintro ⟨i, hi, hresult⟩
    obtain ⟨hlt, rfl⟩ := List.getElem?_eq_some_iff.mp hi
    rw [List.length_range] at hlt
    rw [List.getElem_range] at hresult
    exact ⟨hlt, hresult⟩
  · rintro ⟨hlt, hresult⟩
    exact ⟨k, List.getElem?_range hlt, hresult⟩

/-- A run that does not use up the words repeats nothing. -/
theorem unrepeated_of_lt {n : Nat} (h : n < UInt64.size) : Unrepeated (takeMany n new) := by
  -- The counter does not run into zero, so it stands on the number of the attempt.
  have hsmall {k : Nat} (hk : k < n) : (k + 1) % UInt64.size = k + 1 := Nat.mod_eq_of_lt (by omega)
  refine ⟨fun i j id hi hj => ?_, fun hzero => ?_, fun i j hle hj hi => ?_⟩
  · obtain ⟨hin, hi⟩ := getElem?_takeMany_new.mp hi
    obtain ⟨hjn, hj⟩ := getElem?_takeMany_new.mp hj
    have hfirst := (attempt_eq_some_iff.mp hi).2
    have hsecond := (attempt_eq_some_iff.mp hj).2
    rw [hsmall hin] at hfirst
    rw [hsmall hjn] at hsecond
    omega
  · obtain ⟨k, hk⟩ := List.mem_iff_getElem?.mp hzero
    obtain ⟨hkn, hk⟩ := getElem?_takeMany_new.mp hk
    have hvalue := (attempt_eq_some_iff.mp hk).2
    rw [hsmall hkn] at hvalue
    exact absurd hvalue.symm (Nat.succ_ne_zero k)
  · obtain ⟨hin, hi⟩ := getElem?_takeMany_new.mp hi
    have hfailed := attempt_eq_none_iff.mp hi
    rw [hsmall hin] at hfailed
    have hlength : (takeMany n new).length = n := by
      rw [takeMany_new, List.length_map, List.length_range]
    rw [hlength] at hj
    -- The attempt that fails is the last for which there is a word.
    have hsame : j = i := by omega
    exact getElem?_takeMany_new.mpr ⟨hj, hsame ▸ hi⟩

/-- **The numbers of a run repeat nothing exactly as long as the words last.** -/
theorem unrepeated_iff {n : Nat} : Unrepeated (takeMany n new) ↔ n < UInt64.size := by
  refine ⟨fun h => ?_, unrepeated_of_lt⟩
  by_contra hlong
  have hsize : UInt64.size = 18446744073709551616 := rfl
  have hzero : (takeMany n new)[UInt64.size - 1]? = some (some .none) := by
    apply getElem?_takeMany_new.mpr
    refine ⟨by omega, attempt_eq_some_iff.mpr ⟨?_, ?_⟩⟩
    · rw [hsize]
      decide
    · rw [hsize]
      rfl
  exact h.nonzero (List.mem_of_getElem? hzero)

end RequestIds

end Switchboard
