import Switchboard.Digits
import Mathlib.Tactic.IntervalCases

/-!
# Numbers and their digits

A number in a base up to sixteen is written as its digits, the most significant first, without
leading zeros (`toDigits_spelled`). A reader of digits takes exactly these off a text in which no
further digit follows them (`span_toDigits`), and they spell the number again.
-/

namespace Switchboard

namespace Digits

/-! ## Single digits -/

/-- A digit is read as the number it stands for. -/
theorem ofChar?_digitChar {base d : Nat} (hd : d < base) (hbase : base ≤ 16) :
    ofChar? base (Nat.digitChar d) = some d := by
  have hvalue : ofChar? 16 (Nat.digitChar d) = some d := by
    have hlt : d < 16 := Nat.lt_of_lt_of_le hd hbase
    interval_cases d <;> rfl
  -- The bases differ only in the values they let through.
  simp only [ofChar?, Option.filter_eq_some_iff, decide_eq_true_eq] at hvalue ⊢
  exact ⟨hvalue.1, hd⟩

/-- What is no digit in a base is none in a smaller one. -/
theorem ofChar?_eq_none_of_le {small large : Nat} (h : small ≤ large) {c : Char}
    (hc : ofChar? large c = none) : ofChar? small c = none := by
  simp only [ofChar?, Option.filter_eq_none_iff, decide_eq_true_eq] at hc ⊢
  intro d hd hlt
  exact hc d hd (Nat.lt_of_lt_of_le hlt h)

/-- A character that is read as a decimal digit is the character of that digit. -/
theorem eq_digitChar_of_ofChar? {c : Char} {d : Nat} (h : ofChar? 10 c = some d) :
    d < 10 ∧ c = Nat.digitChar d := by
  unfold ofChar? at h
  simp only [Option.filter_eq_some_iff, decide_eq_true_eq] at h
  obtain ⟨hvalue, hlt⟩ := h
  refine ⟨hlt, ?_⟩
  split at hvalue
  · rename_i hrange
    simp only [Option.some.injEq] at hvalue
    have hlow : '0'.toNat ≤ c.toNat := by
      have := (Bool.and_eq_true _ _ ▸ hrange).1
      simpa [Char.le_def, UInt32.le_iff_toNat_le] using this
    have hc : c = Char.ofNat ('0'.toNat + d) := by
      rw [← hvalue, Nat.add_sub_cancel' hlow, Char.ofNat_toNat]
    rw [hc]
    interval_cases d <;> rfl
  · split at hvalue
    · simp only [Option.some.injEq] at hvalue
      omega
    · split at hvalue
      · simp only [Option.some.injEq] at hvalue
        omega
      · cases hvalue

/-! ## The digits of a number -/

theorem value_append (base : Nat) (ds : List Nat) (d : Nat) :
    value base (ds ++ [d]) = base * value base ds + d := by
  simp only [value, List.foldl_append, List.foldl_cons, List.foldl_nil]

/-- Induction over the digits of a number: a single digit, or a number with a last digit behind
it. -/
theorem digits_induction {base : Nat} (hbase : 1 < base) {motive : Nat → Prop}
    (single : ∀ n < base, motive n) (more : ∀ n, base ≤ n → motive (n / base) → motive n)
    (n : Nat) :
    motive n := by
  induction n using Nat.strongRecOn with
  | ind n ih =>
      by_cases h : n < base
      · exact single n h
      · have hle : base ≤ n := Nat.le_of_not_lt h
        exact more n hle (ih (n / base) (Nat.div_lt_self (by omega) hbase))

/-- Digits that spell a number, without leading zeros. -/
structure Spelled (base n : Nat) (ds : List Nat) : Prop where
  below : ∀ d ∈ ds, d < base
  value_eq : value base ds = n
  nonempty : ds ≠ []
  /-- Only zero begins with a zero. -/
  lead : ds.head? = some 0 → ds.length = 1

/-- The characters that a number is written with are those of digits that spell it. -/
theorem toDigits_spelled {base : Nat} (hbase : 1 < base) (n : Nat) :
    ∃ ds, Nat.toDigits base n = ds.map Nat.digitChar ∧ Spelled base n ds := by
  -- The induction has to know that a number other than zero begins with another digit.
  suffices h : ∃ ds, Nat.toDigits base n = ds.map Nat.digitChar ∧ Spelled base n ds ∧
      (ds.head? = some 0 → n = 0) by
    obtain ⟨ds, hds, hspelled, -⟩ := h
    exact ⟨ds, hds, hspelled⟩
  induction n using digits_induction hbase with
  | single n h =>
      refine ⟨[n], by simp [Nat.toDigits_of_lt_base h], ⟨?_, ?_, ?_, ?_⟩, ?_⟩
      · simpa using h
      · simp [value]
      · simp
      · simp
      · simp
  | more n h ih =>
      obtain ⟨ds, hds, hspelled, hlead⟩ := ih
      have hhead : (ds ++ [n % base]).head? = ds.head? := by
        cases ds with
        | nil => exact absurd rfl hspelled.nonempty
        | cons d ds => rfl
      have hne : n / base ≠ 0 := Nat.div_ne_zero_iff.mpr ⟨by omega, h⟩
      refine ⟨ds ++ [n % base], ?_, ⟨?_, ?_, ?_, ?_⟩, ?_⟩
      · rw [Nat.toDigits_of_base_le hbase h, hds, List.map_append]
        rfl
      · intro d hd
        rcases List.mem_append.mp hd with hd | hd
        · exact hspelled.below d hd
        · rw [List.mem_singleton.mp hd]
          exact Nat.mod_lt n (by omega)
      · rw [value_append, hspelled.value_eq]
        exact Nat.div_add_mod n base
      · simp
      · intro hzero
        exact absurd (hlead (hhead ▸ hzero)) hne
      · intro hzero
        exact absurd (hlead (hhead ▸ hzero)) hne

/-! ## Reading digits -/

/-- No digit stands at the start of a text. -/
def Ends (base : Nat) (text : List Char) : Prop := ∀ c ∈ text.head?, ofChar? base c = none

theorem ends_nil (base : Nat) : Ends base [] := by
  intro c hc
  cases hc

theorem ends_cons {base : Nat} {c : Char} {text : List Char} (h : ofChar? base c = none) :
    Ends base (c :: text) := by
  intro d hd
  cases hd
  exact h

theorem Ends.mono {small large : Nat} {text : List Char} (h : Ends large text)
    (hle : small ≤ large) : Ends small text :=
  fun c hc => ofChar?_eq_none_of_le hle (h c hc)

theorem Ends.span_eq {base : Nat} {text : List Char} (h : Ends base text) :
    span base text = ([], text) := by
  cases text with
  | nil => rfl
  | cons c cs => simp [span, h c rfl]

/-- A reader takes all the digits in front of something else. -/
theorem span_digits {base : Nat} (hbase : base ≤ 16) {ds : List Nat} (hds : ∀ d ∈ ds, d < base)
    {rest : List Char} (hrest : Ends base rest) :
    span base (ds.map Nat.digitChar ++ rest) = (ds, rest) := by
  induction ds with
  | nil => exact hrest.span_eq
  | cons d ds ih =>
      have htail := ih fun e he => hds e (List.mem_cons_of_mem d he)
      have hhead : ofChar? base d.digitChar = some d :=
        ofChar?_digitChar (hds d List.mem_cons_self) hbase
      simp [span, hhead, htail]

/-- A reader of digits does not stop at a mark that stands neither among some characters nor
directly behind them. -/
theorem head?_span_append_ne {base : Nat} {mark : Char} {cs rest : List Char} (hcs : mark ∉ cs)
    (hrest : Ends base rest) (hmark : rest.head? ≠ some mark) :
    (span base (cs ++ rest)).2.head? ≠ some mark := by
  induction cs with
  | nil => simpa [hrest.span_eq] using hmark
  | cons c cs ih =>
      have hc : c ≠ mark := fun h => hcs (h ▸ List.mem_cons_self)
      have htail := ih fun h => hcs (List.mem_cons_of_mem c h)
      cases hdigit : ofChar? base c with
      | none => simpa [span, hdigit] using hc
      | some d => simpa [span, hdigit] using htail

/-- The digits of a number are read off a text in which no further digit follows them. -/
theorem span_toDigits {base : Nat} (hlow : 1 < base) (hhigh : base ≤ 16) (n : Nat)
    {rest : List Char} (hrest : Ends base rest) :
    ∃ ds, span base (Nat.toDigits base n ++ rest) = (ds, rest) ∧ Spelled base n ds ∧
      ds.length = (Nat.toDigits base n).length := by
  obtain ⟨ds, hds, hspelled⟩ := toDigits_spelled hlow n
  refine ⟨ds, ?_, hspelled, by simp [hds]⟩
  rw [hds]
  exact span_digits hhigh hspelled.below hrest

/-- What a reader of decimal digits takes are the characters of digits. -/
theorem eq_of_span {cs rest : List Char} {ds : List Nat} (h : span 10 cs = (ds, rest)) :
    cs = ds.map Nat.digitChar ++ rest ∧ ∀ d ∈ ds, d < 10 := by
  induction cs generalizing ds with
  | nil =>
      cases h
      exact ⟨rfl, fun d hd => absurd hd (List.not_mem_nil)⟩
  | cons c cs ih =>
      cases hdigit : ofChar? 10 c with
      | none =>
          simp only [span, hdigit] at h
          cases h
          exact ⟨rfl, fun d hd => absurd hd (List.not_mem_nil)⟩
      | some d =>
          simp only [span, hdigit] at h
          obtain ⟨hlt, rfl⟩ := eq_digitChar_of_ofChar? hdigit
          cases h
          obtain ⟨hcs, hds⟩ := ih rfl
          refine ⟨congrArg (d.digitChar :: ·) hcs, fun e he => ?_⟩
          rcases List.mem_cons.mp he with rfl | he
          · exact hlt
          · exact hds e he

/-- A word is read off decimal digits that spell it, however many zeros they begin with. -/
theorem word?_eq_some_iff {text : List Char} {word : UInt64} :
    word? 10 text = some word ↔
      ∃ ds, text = ds.map Nat.digitChar ∧ ds ≠ [] ∧ (∀ d ∈ ds, d < 10) ∧
        value 10 ds = word.toNat := by
  constructor
  · intro h
    simp only [word?, Option.map_eq_some_iff, Option.filter_eq_some_iff, decide_eq_true_eq] at h
    obtain ⟨n, ⟨htext, hlt⟩, rfl⟩ := h
    simp only [ofText?] at htext
    split at htext
    · cases htext
    · rename_i ds hne hspan
      cases htext
      obtain ⟨htext, hds⟩ := eq_of_span hspan
      refine ⟨ds, by simpa using htext, ?_, hds, ?_⟩
      · rintro rfl
        exact hne rfl
      · exact (Nat.mod_eq_of_lt hlt).symm
    · cases htext
  · rintro ⟨ds, rfl, hne, hds, hvalue⟩
    have hspan := span_digits (by decide : 10 ≤ 16) hds (ends_nil 10)
    rw [List.append_nil] at hspan
    have htext : ofText? 10 (ds.map Nat.digitChar) = some word.toNat := by
      cases ds with
      | nil => exact absurd rfl hne
      | cons d ds => simp only [ofText?, hspan, hvalue]
    simp [word?, htext, word.toNat_lt_size]

/-- A word is read off its decimal digits. -/
theorem word?_toDigits (word : UInt64) : word? 10 (Nat.toDigits 10 word.toNat) = some word := by
  obtain ⟨ds, hds, hspelled⟩ := toDigits_spelled (by decide : 1 < 10) word.toNat
  exact word?_eq_some_iff.mpr ⟨ds, hds, hspelled.nonempty, hspelled.below, hspelled.value_eq⟩

end Digits

end Switchboard
