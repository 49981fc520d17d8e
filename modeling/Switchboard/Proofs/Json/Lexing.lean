import Switchboard.Proofs.Json.Grammar
import Switchboard.Proofs.Json.Numerals

/-!
# Reading the tokens that a text spells

The lexer reads a token wherever it is spelled, and passes over the blanks around it. Each character
of a string comes back from every way in which it may stand there (`run?_spellsChar`). A number has
no end of its own: it comes back where nothing goes on with it (`run?_numeral`). A text is therefore
read as the tokens that it spells (`run?_spells`).
-/

namespace Switchboard

namespace Json

/-! ## The end of a number -/

/-- Whether a number may end in a phase that is not its exponent. -/
def NumberPhase.IsPlain (phase : NumberPhase) : Prop :=
  phase = .leadingZero ∨ phase = .whole ∨ phase = .fraction

namespace PartialNumber

theorem finish?_plain {phase : NumberPhase} (hphase : phase.IsPlain) (negative : Bool)
    (whole fraction : List Nat) :
    finish? ⟨phase, negative, whole.reverse, fraction.reverse, false, 0⟩ =
      if (Numeral.mk negative whole fraction none).isFinite then
        some ⟨negative, whole, fraction, none⟩ else none := by
  rcases hphase with rfl | rfl | rfl <;> simp [finish?]

theorem finish?_exponent (negative exponentNegative : Bool) (whole fraction : List Nat)
    (exponent : Nat) :
    finish? ⟨.exponent, negative, whole.reverse, fraction.reverse, exponentNegative, exponent⟩ =
      if (Numeral.mk negative whole fraction
          (some (if exponentNegative then -(exponent : Int) else exponent))).isFinite then
        some ⟨negative, whole, fraction,
          some (if exponentNegative then -(exponent : Int) else exponent)⟩
      else none := by
  simp [finish?]

/-- A character that does not go on with a number ends it where it may end. -/
theorem next_of_ends {n : PartialNumber} {numeral : Numeral} {c : Char} {rest : List Char}
    (hfinish : n.finish? = some numeral) (hends : EndsNumber (c :: rest)) : n.next c = .ended := by
  obtain ⟨hdigit, hpoint, hsmall, hlarge⟩ := hends c rfl
  obtain ⟨phase, negative, whole, fraction, exponentNegative, exponent⟩ := n
  cases phase <;>
    first
    | (simp [finish?] at hfinish; done)
    | simp [next, hdigit, hpoint, hsmall, hlarge]

end PartialNumber

namespace Lexer

/-- The tokens of a text, read from some point on. -/
def run? (lexer : Lexer) (text : List Char) : Option (List Token) :=
  (text.foldlM step lexer).bind finish?

theorem run?_nil (lexer : Lexer) : lexer.run? [] = lexer.finish? := rfl

theorem run?_cons (lexer : Lexer) (c : Char) (text : List Char) :
    lexer.run? (c :: text) = (lexer.step c).bind fun next => next.run? text := by
  simp only [run?, List.foldlM_cons, Option.bind_eq_bind, Option.bind_assoc]

/-- A character that is read without fault. -/
theorem run?_of_step {lexer next : Lexer} {c : Char} (h : lexer.step c = some next)
    (text : List Char) : lexer.run? (c :: text) = next.run? text := by
  rw [run?_cons, h, Option.bind_some]

variable {acc : List Token}

/-! ## Numbers -/

theorem run?_next {n next : PartialNumber} {c : Char} (h : n.next c = .more next)
    (rest : List Char) :
    run? ⟨.number n, acc⟩ (c :: rest) = run? ⟨.number next, acc⟩ rest :=
  run?_of_step (by simp only [step, h]) rest

/-- Digits are read where each of them leads from what has been read to what is read with it. -/
theorem run?_digits (state : List Nat → PartialNumber)
    (hstate : ∀ ds, ∀ d < 10, (state ds).next (Nat.digitChar d) = .more (state (ds ++ [d])))
    (ds : List Nat) {es : List Nat} (hes : ∀ d ∈ es, d < 10) (rest : List Char) :
    run? ⟨.number (state ds), acc⟩ (digitChars es ++ rest) =
      run? ⟨.number (state (ds ++ es)), acc⟩ rest := by
  induction es generalizing ds with
  | nil => simp [digitChars]
  | cons e es ih =>
      have he : e < 10 := hes e List.mem_cons_self
      have hothers : ∀ d ∈ es, d < 10 := fun d hd => hes d (List.mem_cons_of_mem _ hd)
      rw [digitChars, List.map_cons, List.cons_append, run?_next (hstate ds e he), ← digitChars,
        ih _ hothers, List.append_assoc, List.singleton_append]

theorem run?_whole (acc : List Token) (negative : Bool) {whole : List Nat} (hwhole : IsWhole whole)
    (rest : List Char) :
    ∃ phase, (phase = .leadingZero ∨ phase = .whole) ∧
      run? ⟨.blank, acc⟩ (signChars negative ++ digitChars whole ++ rest) =
        run? ⟨.number ⟨phase, negative, whole.reverse, [], false, 0⟩, acc⟩ rest := by
  -- The first digit decides the phase.
  have hfirst :
      ∀ d < 10, ∀ more, run? ⟨.blank, acc⟩ (signChars negative ++ Nat.digitChar d :: more) =
      run? ⟨.number ⟨if d = 0 then .leadingZero else .whole, negative, [d], [], false, 0⟩,
        acc⟩ more := by
    intro d hd more
    cases negative with
    | false =>
        refine run?_of_step ?_ more
        interval_cases d <;> rfl
    | true =>
        have hminus : step ⟨.blank, acc⟩ '-' = some ⟨.number (.start .sign true []), acc⟩ := rfl
        refine (run?_of_step hminus _).trans (run?_next ?_ more)
        interval_cases d <;> rfl
  cases hwhole with
  | zero =>
      refine ⟨.leadingZero, Or.inl rfl, ?_⟩
      have hzero := hfirst 0 (by decide) rest
      simpa [digitChars] using hzero
  | @nonzero d ds hd hdigits =>
      refine ⟨.whole, Or.inr rfl, ?_⟩
      have hstate : ∀ ds, ∀ e < 10,
          PartialNumber.next ⟨.whole, negative, ds.reverse, [], false, 0⟩ (Nat.digitChar e) =
            .more ⟨.whole, negative, (ds ++ [e]).reverse, [], false, 0⟩ := by
        intro ds e he
        simp [PartialNumber.next, Digits.ofChar?_digitChar he (by decide)]
      rw [digitChars, List.map_cons, List.append_assoc, List.cons_append,
        hfirst d (hdigits d List.mem_cons_self), if_neg hd, ← digitChars]
      exact run?_digits (fun ds => ⟨.whole, negative, ds.reverse, [], false, 0⟩) hstate [d]
        (fun e he => hdigits e (List.mem_cons_of_mem _ he)) rest

theorem run?_fraction (acc : List Token) (negative : Bool) (whole : List Nat) {fraction : List Nat}
    {phase : NumberPhase} (hphase : phase = .leadingZero ∨ phase = .whole)
    (hfraction : ∀ d ∈ fraction, d < 10) (rest : List Char) :
    ∃ phase', phase'.IsPlain ∧
      run? ⟨.number ⟨phase, negative, whole, [], false, 0⟩, acc⟩ (fractionChars fraction ++ rest) =
        run? ⟨.number ⟨phase', negative, whole, fraction.reverse, false, 0⟩, acc⟩ rest := by
  cases fraction with
  | nil => exact ⟨phase, by rcases hphase with rfl | rfl <;> simp [NumberPhase.IsPlain], rfl⟩
  | cons d ds =>
      refine ⟨.fraction, Or.inr (Or.inr rfl), ?_⟩
      have hpoint : PartialNumber.next ⟨phase, negative, whole, [], false, 0⟩ '.' =
          .more ⟨.point, negative, whole, [], false, 0⟩ := by
        rcases hphase with rfl | rfl <;> rfl
      have hd : d < 10 := hfraction d List.mem_cons_self
      have hfirst : PartialNumber.next ⟨.point, negative, whole, [], false, 0⟩ (Nat.digitChar d) =
          .more ⟨.fraction, negative, whole, [d], false, 0⟩ := by
        simp [PartialNumber.next, Digits.ofChar?_digitChar hd (by decide)]
      have hstate : ∀ ds, ∀ e < 10,
          PartialNumber.next ⟨.fraction, negative, whole, ds.reverse, false, 0⟩ (Nat.digitChar e) =
            .more ⟨.fraction, negative, whole, (ds ++ [e]).reverse, false, 0⟩ := by
        intro ds e he
        simp [PartialNumber.next, Digits.ofChar?_digitChar he (by decide)]
      rw [fractionChars, if_neg (by simp), digitChars, List.map_cons, List.cons_append,
        run?_next hpoint, List.cons_append, run?_next hfirst, ← digitChars]
      exact run?_digits (fun ds => ⟨.fraction, negative, whole, ds.reverse, false, 0⟩) hstate [d]
        (fun e he => hfraction e (List.mem_cons_of_mem _ he)) rest

theorem run?_exponent (acc : List Token) {negative : Bool} {whole fraction : List Nat}
    {phase : NumberPhase} {spelled : List Char} {exponent : Option Int} (hphase : phase.IsPlain)
    (hexponent : SpellsExponent spelled exponent)
    (hfinite : (Numeral.mk negative whole fraction exponent).isFinite = true) (rest : List Char) :
    ∃ n : PartialNumber, n.finish? = some ⟨negative, whole, fraction, exponent⟩ ∧
      run? ⟨.number ⟨phase, negative, whole.reverse, fraction.reverse, false, 0⟩, acc⟩
        (spelled ++ rest) = run? ⟨.number n, acc⟩ rest := by
  cases hexponent with
  | none =>
      refine ⟨⟨phase, negative, whole.reverse, fraction.reverse, false, 0⟩, ?_, rfl⟩
      rw [PartialNumber.finish?_plain hphase, if_pos hfinite]
  | @some mark sign digits hmark hsign hne hdigits =>
      have hmarked :
          PartialNumber.next ⟨phase, negative, whole.reverse, fraction.reverse, false, 0⟩ mark =
            .more ⟨.mark, negative, whole.reverse, fraction.reverse, false, 0⟩ := by
        rcases hphase with rfl | rfl | rfl <;> rcases hmark with rfl | rfl <;> rfl
      obtain ⟨d, ds, rfl⟩ := List.exists_cons_of_ne_nil hne
      have hd : Digits.ofChar? 10 (Nat.digitChar d) = some d :=
        Digits.ofChar?_digitChar (hdigits d List.mem_cons_self) (by decide)
      have hstate : ∀ ds, ∀ e < 10,
          PartialNumber.next ⟨.exponent, negative, whole.reverse, fraction.reverse,
            decide (sign = ['-']), Digits.value 10 ds⟩ (Nat.digitChar e) =
              .more ⟨.exponent, negative, whole.reverse, fraction.reverse,
                decide (sign = ['-']), Digits.value 10 (ds ++ [e])⟩ := by
        intro ds e he
        simp [PartialNumber.next, Digits.ofChar?_digitChar he (by decide), Digits.value_append]
      have hone : Digits.value 10 [d] = d := by simp [Digits.value]
      -- The sign is read, or left out.
      have hsigned :
          run? ⟨.number ⟨.mark, negative, whole.reverse, fraction.reverse, false, 0⟩, acc⟩
          (sign ++ (digitChars (d :: ds) ++ rest)) =
            run? ⟨.number ⟨.exponent, negative, whole.reverse, fraction.reverse,
              decide (sign = ['-']), Digits.value 10 [d]⟩, acc⟩ (digitChars ds ++ rest) := by
        rw [digitChars, List.map_cons, List.cons_append, hone, ← digitChars]
        rcases hsign with rfl | rfl | rfl
        · refine run?_next ?_ _
          have hplus : Nat.digitChar d ≠ '+' := by rintro h; rw [h] at hd; cases hd
          have hminus : Nat.digitChar d ≠ '-' := by rintro h; rw [h] at hd; cases hd
          simp [PartialNumber.next, hplus, hminus, hd]
        · have hplus :
              PartialNumber.next ⟨.mark, negative, whole.reverse, fraction.reverse, false, 0⟩ '+' =
                .more ⟨.markSign, negative, whole.reverse, fraction.reverse, false, 0⟩ := rfl
          refine (run?_next hplus _).trans (run?_next ?_ _)
          simp [PartialNumber.next, hd]
        · have hminus :
              PartialNumber.next ⟨.mark, negative, whole.reverse, fraction.reverse, false, 0⟩ '-' =
                .more ⟨.markSign, negative, whole.reverse, fraction.reverse, true, 0⟩ := rfl
          refine (run?_next hminus _).trans (run?_next ?_ _)
          simp [PartialNumber.next, hd]
      refine ⟨⟨.exponent, negative, whole.reverse, fraction.reverse, decide (sign = ['-']),
        Digits.value 10 (d :: ds)⟩, ?_, ?_⟩
      · rw [PartialNumber.finish?_exponent]
        simp only [decide_eq_true_eq]
        rw [if_pos hfinite]
      · rw [List.cons_append, List.cons_append, run?_next hmarked, List.append_assoc, hsigned]
        exact run?_digits (fun ds => ⟨.exponent, negative, whole.reverse, fraction.reverse,
          decide (sign = ['-']), Digits.value 10 ds⟩) hstate [d]
          (fun e he => hdigits e (List.mem_cons_of_mem _ he)) rest

/-- A number is read where nothing goes on with it. -/
theorem run?_numeral {spelled rest : List Char} {numeral : Numeral}
    (h : SpellsNumeral spelled numeral) (hfinite : numeral.isFinite = true)
    (hends : EndsNumber rest) :
    run? ⟨.blank, acc⟩ (spelled ++ rest) = run? ⟨.blank, .number numeral :: acc⟩ rest := by
  cases h with
  | @parts _ exponent hwhole hfraction hexponent =>
      -- The parts are read one behind the other, and the number is finished where the text goes on.
      obtain ⟨phase, hphase, hfirst⟩ := run?_whole acc numeral.negative hwhole
        (fractionChars numeral.fraction ++ (exponent ++ rest))
      obtain ⟨phase', hphase', hsecond⟩ :=
        run?_fraction acc numeral.negative numeral.whole.reverse hphase
        hfraction (exponent ++ rest)
      obtain ⟨n, hfinish, hthird⟩ := run?_exponent acc hphase' hexponent hfinite rest
      have hnumber : run? ⟨.number n, acc⟩ rest = run? ⟨.blank, .number numeral :: acc⟩ rest := by
        cases rest with
        | nil => simp [run?_nil, finish?, hfinish]
        | cons c rest =>
            have hnext := PartialNumber.next_of_ends hfinish hends
            simp [run?_cons, step, hnext, hfinish]
      rw [List.append_assoc, List.append_assoc, hfirst, hsecond, hthird, hnumber]

/-! ## Strings -/

theorem run?_unit {digits : List Char} {n : Nat} (h : SpellsUnit digits n) (read : String)
    (high : Option Nat) (rest : List Char) :
    run? ⟨.unicode read high 0 4, acc⟩ (digits ++ rest) =
      (stepUnit read high n).bind fun mode => run? ⟨mode, acc⟩ rest := by
  cases h with
  | digits ha hb hc hd =>
      simp [run?_cons, step, ha, hb, hc, hd, Digits.value, Option.bind_map]

/-- A character comes back from each way in which it may stand in a string. -/
theorem run?_spellsChar {spelled : List Char} {c : Char} (h : SpellsChar spelled c) (read : String)
    (rest : List Char) :
    run? ⟨.text read, acc⟩ (spelled ++ rest) = run? ⟨.text (read.push c), acc⟩ rest := by
  have hescape : ∀ more, run? ⟨.text read, acc⟩ ('\\' :: more) = run? ⟨.escape read, acc⟩ more :=
    fun more => run?_of_step rfl more
  have hunicode : ∀ more, run? ⟨.escape read, acc⟩ ('u' :: more) =
      run? ⟨.unicode read none 0 4, acc⟩ more := fun more => run?_of_step rfl more
  cases h with
  | plain hquote hbackslash hcontrol =>
      refine run?_of_step ?_ rest
      simp only [step, if_neg hquote, if_neg hbackslash, if_neg (Nat.not_lt.mpr hcontrol)]
  | @letter e _ he =>
      have hne : e ≠ 'u' := by rintro rfl; cases he
      refine (hescape _).trans (run?_of_step ?_ rest)
      simp only [step, if_neg hne, he, Option.map_some]
  | @unit digits n hdigits hn =>
      have hunit : stepUnit read none n = some (.text (read.push (Char.ofNat n))) := by
        have hlow : ¬ (0xDC00 ≤ n ∧ n ≤ 0xDFFF) := by omega
        have hhigh : ¬ (0xD800 ≤ n ∧ n ≤ 0xDBFF) := by omega
        simp [stepUnit, hlow, hhigh]
      rw [List.cons_append, List.cons_append, hescape, hunicode, run?_unit hdigits, hunit,
        Option.bind_some]
  | @pair digits others high low hdigits hothers hhigh hlow =>
      have hfirst : stepUnit read none high = some (.awaitBackslash read high) := by
        have hnot : ¬ (0xDC00 ≤ high ∧ high ≤ 0xDFFF) := by omega
        simp [stepUnit, hnot, hhigh]
      have hsecond : stepUnit read (some high) low = some (.text (read.push
          (Char.ofNat (0x10000 + (high - 0xD800) * 0x400 + (low - 0xDC00))))) := by
        simp [stepUnit, hlow]
      have hbackslash : ∀ more, run? ⟨.awaitBackslash read high, acc⟩ ('\\' :: more) =
          run? ⟨.awaitU read high, acc⟩ more := fun more => run?_of_step rfl more
      have hagain : ∀ more, run? ⟨.awaitU read high, acc⟩ ('u' :: more) =
          run? ⟨.unicode read (some high) 0 4, acc⟩ more := fun more => run?_of_step rfl more
      rw [List.append_assoc, List.cons_append, List.cons_append, hescape, hunicode,
        run?_unit hdigits,
        hfirst, Option.bind_some, List.cons_append, List.cons_append, hbackslash, hagain,
        run?_unit hothers, hsecond, Option.bind_some]

theorem run?_spellsText {spelled text : List Char} (h : SpellsText spelled text) (read : String)
    (rest : List Char) :
    run? ⟨.text read, acc⟩ (spelled ++ rest) =
      run? ⟨.text (read ++ String.ofList text), acc⟩ rest := by
  induction h generalizing read with
  | nil =>
      have hread : read ++ String.ofList [] = read := by
        rw [← String.toList_inj]; simp
      rw [List.nil_append, hread]
  | @cons spelled more text c hc _ ih =>
      have hread : read.push c ++ String.ofList text = read ++ String.ofList (c :: text) := by
        rw [← String.toList_inj]; simp
      rw [List.append_assoc, run?_spellsChar hc, ih, hread]

/-! ## Tokens -/

/-- A token is read where it is spelled. -/
theorem run?_lexeme {spelled rest : List Char} {token : Token} (h : Lexeme spelled token)
    (hends : ∀ n, token = .number n → EndsNumber rest) :
    run? ⟨.blank, acc⟩ (spelled ++ rest) = run? ⟨.blank, token :: acc⟩ rest := by
  cases h with
  | fixed hnumber hstring =>
      cases token with
      | number n => exact absurd rfl (hnumber n)
      | string s => exact absurd rfl (hstring s)
      | bool b => cases b <;> rfl
      | _ => rfl
  | @string spelled text htext =>
      have hopen : step ⟨.blank, acc⟩ '"' = some ⟨.text "", acc⟩ := rfl
      have hclose : step ⟨.text (String.ofList text), acc⟩ '"' =
          some ⟨.blank, .string (String.ofList text) :: acc⟩ := rfl
      have hread : "" ++ String.ofList text = String.ofList text := by
        rw [← String.toList_inj]; simp
      rw [List.cons_append, List.cons_append, run?_of_step hopen, List.append_assoc,
        run?_spellsText htext, hread]
      exact run?_of_step hclose rest
  | number hnumeral hfinite => exact run?_numeral hnumeral hfinite (hends _ rfl)

theorem run?_blanks {blanks : List Char} (h : ∀ c ∈ blanks, isBlank c = true) (rest : List Char) :
    run? ⟨.blank, acc⟩ (blanks ++ rest) = run? ⟨.blank, acc⟩ rest := by
  induction blanks with
  | nil => rfl
  | cons c blanks ih =>
      have hc : step ⟨.blank, acc⟩ c = some ⟨.blank, acc⟩ :=
        if_pos (h c List.mem_cons_self)
      rw [List.cons_append, run?_of_step hc, ih fun e he => h e (List.mem_cons_of_mem _ he)]

/-- Tokens come back from a text that spells them. -/
theorem run?_spells {text : List Char} {tokens : List Token} (h : Spells text tokens) :
    run? ⟨.blank, acc⟩ text = some (acc.reverse ++ tokens) := by
  induction h generalizing acc with
  | @nil blanks hblanks =>
      have hall : run? ⟨.blank, acc⟩ (blanks ++ []) = run? ⟨.blank, acc⟩ [] :=
        run?_blanks hblanks []
      rw [List.append_nil] at hall
      rw [hall, run?_nil, finish?, List.append_nil]
  | cons hblanks htoken hends _ ih =>
      rw [run?_blanks hblanks, run?_lexeme htoken hends, ih]
      simp

end Lexer

end Json

end Switchboard
