import Switchboard.Json.Basic
import Switchboard.Json.Printer
import Switchboard.Proofs.Digits

/-!
# Numerals of natural numbers

A natural number is written as its decimal digits, the most significant first. The digits spell the
number again (`value_whole_ofNat`), the first of them is zero for zero alone, and a number that 64
bits hold is never too large for a reader (`isFinite_ofNat`, `toUInt64?_ofNat`). The number of
digits grows with the number.
-/

namespace Switchboard

namespace Json

namespace Numeral

/-! ## The digits of a number -/

/-- The digits of a numeral spell the number, and they are written as the number is. -/
theorem whole_ofNat_spelled (n : Nat) :
    Digits.Spelled 10 n (ofNat n).whole ∧ digitChars (ofNat n).whole = Nat.toDigits 10 n := by
  obtain ⟨ds, hds, hspelled⟩ := Digits.toDigits_spelled (by decide : 1 < 10) n
  have hwhole : (ofNat n).whole = ds := by
    refine Eq.trans ?_ (List.map_id ds)
    simp only [ofNat, hds, List.map_map]
    apply List.map_congr_left
    intro d hd
    exact Nat.toNat_digitChar_sub_48_of_lt_ten (hspelled.below d hd)
  rw [hwhole]
  exact ⟨hspelled, hds.symm⟩

theorem lt_of_mem_whole_ofNat (n : Nat) : ∀ d ∈ (ofNat n).whole, d < 10 :=
  (whole_ofNat_spelled n).1.below

/-- The digits of a number spell it. -/
theorem value_whole_ofNat (n : Nat) : Digits.value 10 (ofNat n).whole = n :=
  (whole_ofNat_spelled n).1.value_eq

/-- The digits of a numeral as they are written. -/
theorem digitChars_whole_ofNat (n : Nat) : digitChars (ofNat n).whole = Nat.toDigits 10 n :=
  (whole_ofNat_spelled n).2

/-- A number other than zero begins with a digit other than zero. -/
theorem whole_ofNat_of_ne_zero {n : Nat} (h : n ≠ 0) :
    ∃ d ds, (ofNat n).whole = d :: ds ∧ d ≠ 0 := by
  have hspelled := (whole_ofNat_spelled n).1
  cases hds : (ofNat n).whole with
  | nil => exact absurd hds hspelled.nonempty
  | cons d ds =>
      refine ⟨d, ds, rfl, ?_⟩
      rintro rfl
      have hlength := hspelled.lead (by rw [hds]; rfl)
      have hvalue := hspelled.value_eq
      simp only [hds, List.length_cons, Nat.add_eq_right, List.length_eq_zero_iff] at hlength
      simp only [hds, hlength, Digits.value, List.foldl_cons, List.foldl_nil] at hvalue
      exact h (by omega)

/-- The characters of the numeral of a natural number are its digits. -/
theorem chars_ofNat (n : Nat) : (ofNat n).chars = Nat.toDigits 10 n := by
  rw [← digitChars_whole_ofNat]
  simp [chars, ofNat]

/-! ## Numbers of 64 bits -/

/-- Digits whose value 64 bits hold leave nothing over. -/
theorem significand_eq (ds : List Nat) (s : Nat)
    (h : ds.foldl (fun n d => 10 * n + d) s < UInt64.size) :
    significand s ds = (ds.foldl (fun n d => 10 * n + d) s, []) := by
  induction ds generalizing s with
  | nil => rfl
  | cons d ds ih =>
      have hmono : ∀ (ds : List Nat) (t : Nat), t ≤ ds.foldl (fun n d => 10 * n + d) t := by
        intro ds
        induction ds with
        | nil => intro t; exact Nat.le_refl t
        | cons e es ihe =>
            intro t
            exact Nat.le_trans (by omega) (ihe (10 * t + e))
      rw [List.foldl_cons] at h ⊢
      have hlt : 10 * s + d < UInt64.size := Nat.lt_of_le_of_lt (hmono ds _) h
      rw [significand, if_pos hlt]
      exact ih _ h

/-- A number of 64 bits is within the range of a reader. -/
theorem isFinite_ofNat {n : Nat} (h : n < UInt64.size) : (ofNat n).isFinite = true := by
  have hvalue : (ofNat n).whole.foldl (fun n d => 10 * n + d) 0 = n := value_whole_ofNat n
  have hsig : significand 0 (ofNat n).whole = (n, []) := by
    rw [significand_eq _ _ (by rw [hvalue]; exact h), hvalue]
  have hfraction : (ofNat n).fraction = [] := rfl
  have hexponent : (ofNat n).exponent = none := rfl
  simp [isFinite, hsig, hfraction, hexponent, significand]

/-- A number of 64 bits is read as itself. -/
theorem toUInt64?_ofNat {n : Nat} (h : n < UInt64.size) :
    (ofNat n).toUInt64? = some n.toUInt64 := by
  have hvalue : Digits.value 10 (ofNat n).whole = n := value_whole_ofNat n
  have hplain : ((ofNat n).negative || !(ofNat n).fraction.isEmpty ||
      (ofNat n).exponent.isSome) = false := rfl
  simp only [toUInt64?, hplain, hvalue, if_pos h, Bool.false_eq_true, if_false]

/-! ## How many digits -/

/-- A number of 64 bits has at most twenty digits. -/
theorem length_toDigits_le_twenty {n : Nat} (h : n < UInt64.size) :
    (Nat.toDigits 10 n).length ≤ 20 := by
  refine (Nat.length_toDigits_le_iff (by decide) (by decide)).mpr (Nat.lt_trans h ?_)
  decide

end Numeral

end Json

end Switchboard
