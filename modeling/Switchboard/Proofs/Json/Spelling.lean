import Switchboard.Proofs.Json.Lexing

/-!
# What has been read was spelled

The lexer reads nothing but what is spelled. Behind a part of a number, its state says which
characters it has read (`PartialNumber.Reads`), and that stays so with each of them (`Reads.step`).
Every token that it has read stands in front of the text that is left (`Lexer.lexeme_of_run?`).
Together with the other direction, the tokens that are read from a text are the tokens that it
spells (`tokens?_eq_some_iff`).
-/

namespace Switchboard

namespace Json

/-! ## Numbers that are read in part -/

/-- The characters behind which the lexer stands in a number. -/
inductive PartialNumber.Reads : PartialNumber → List Char → Prop
  | sign : Reads (.start .sign true []) ['-']
  | leadingZero (negative : Bool) :
      Reads (.start .leadingZero negative [0]) (signChars negative ++ digitChars [0])
  | whole (negative : Bool) {d : Nat} (ds : List Nat) (hd : d ≠ 0)
      (hdigits : ∀ e ∈ d :: ds, e < 10) :
      Reads (.start .whole negative (d :: ds).reverse) (signChars negative ++ digitChars (d :: ds))
  | point (negative : Bool) {whole : List Nat} (hwhole : IsWhole whole) :
      Reads (.start .point negative whole.reverse) (signChars negative ++ digitChars whole ++ ['.'])
  | fraction (negative : Bool) {whole fraction : List Nat} (hwhole : IsWhole whole)
      (hne : fraction ≠ []) (hfraction : ∀ d ∈ fraction, d < 10) :
      Reads ⟨.fraction, negative, whole.reverse, fraction.reverse, false, 0⟩
        (signChars negative ++ digitChars whole ++ fractionChars fraction)
  | mark (negative : Bool) {whole fraction : List Nat} {mark : Char} (hwhole : IsWhole whole)
      (hfraction : ∀ d ∈ fraction, d < 10) (hmark : mark = 'e' ∨ mark = 'E') :
      Reads ⟨.mark, negative, whole.reverse, fraction.reverse, false, 0⟩
        (signChars negative ++ digitChars whole ++ fractionChars fraction ++ [mark])
  | markSign (negative : Bool) {whole fraction : List Nat} {mark sign : Char}
      (hwhole : IsWhole whole)
      (hfraction : ∀ d ∈ fraction, d < 10) (hmark : mark = 'e' ∨ mark = 'E')
      (hsign : sign = '+' ∨ sign = '-') :
      Reads ⟨.markSign, negative, whole.reverse, fraction.reverse, decide (sign = '-'), 0⟩
        (signChars negative ++ digitChars whole ++ fractionChars fraction ++ [mark, sign])
  | exponent (negative : Bool) {whole fraction digits : List Nat} {mark : Char} {sign : List Char}
      (hwhole : IsWhole whole) (hfraction : ∀ d ∈ fraction, d < 10)
      (hmark : mark = 'e' ∨ mark = 'E')
      (hsign : sign = [] ∨ sign = ['+'] ∨ sign = ['-']) (hne : digits ≠ [])
      (hdigits : ∀ d ∈ digits, d < 10) :
      Reads ⟨.exponent, negative, whole.reverse, fraction.reverse, decide (sign = ['-']),
          Digits.value 10 digits⟩
        (signChars negative ++ digitChars whole ++ fractionChars fraction ++
          (mark :: sign ++ digitChars digits))

namespace PartialNumber

theorem lt_ten_concat {ds : List Nat} {d : Nat} (hds : ∀ e ∈ ds, e < 10) (hd : d < 10) :
    ∀ e ∈ ds ++ [d], e < 10 :=
  List.forall_mem_append.mpr ⟨hds, List.forall_mem_singleton.mpr hd⟩

/-- Behind the digits of a number that may end there, a point or an exponent may come. -/
theorem Reads.mark_of_whole {negative : Bool} {whole : List Nat} {c : Char} (hwhole : IsWhole whole)
    (hc : c = 'e' ∨ c = 'E') :
    Reads ⟨.mark, negative, whole.reverse, [], false, 0⟩
      (signChars negative ++ digitChars whole ++ [c]) := by
  have hnone : ∀ d ∈ ([] : List Nat), d < 10 := List.forall_mem_nil _
  have h := Reads.mark negative hwhole hnone hc
  simpa [fractionChars] using h

/-- A character that goes on with a number is read behind the others. -/
theorem Reads.step {n next : PartialNumber} {spelled : List Char} {c : Char} (h : n.Reads spelled)
    (hnext : n.next c = .more next) : next.Reads (spelled ++ [c]) := by
  -- A digit goes to the part that is being read, and any other character begins the part behind it.
  cases h with
  | sign =>
      simp only [PartialNumber.next, start] at hnext
      cases hdigit : Digits.ofChar? 10 c with
      | none => simp [hdigit] at hnext
      | some d =>
          obtain ⟨hlt, rfl⟩ := Digits.eq_digitChar_of_ofChar? hdigit
          rw [hdigit] at hnext
          cases d with
          | zero =>
              cases hnext
              exact .leadingZero true
          | succ d =>
              cases hnext
              exact .whole true [] (Nat.succ_ne_zero d) (by simpa using hlt)
  | leadingZero negative =>
      simp only [PartialNumber.next, start] at hnext
      split at hnext
      · cases hnext
      split at hnext
      · rename_i hpoint
        cases hnext
        rw [hpoint]
        exact .point negative .zero
      split at hnext
      · rename_i hmark
        cases hnext
        exact Reads.mark_of_whole .zero (by simpa using hmark)
      · cases hnext
  | @whole negative d ds hd hdigits =>
      simp only [PartialNumber.next, start] at hnext
      split at hnext
      · rename_i e hdigit
        obtain ⟨hlt, rfl⟩ := Digits.eq_digitChar_of_ofChar? hdigit
        cases hnext
        have hwhole := Reads.whole negative (ds ++ [e]) hd (lt_ten_concat hdigits hlt)
        simpa [digitChars, start] using hwhole
      · split at hnext
        · rename_i hpoint
          cases hnext
          rw [hpoint]
          exact .point negative (.nonzero hd hdigits)
        split at hnext
        · rename_i hmark
          cases hnext
          exact Reads.mark_of_whole (.nonzero hd hdigits) (by simpa using hmark)
        · cases hnext
  | @point negative whole hwhole =>
      simp only [PartialNumber.next, start] at hnext
      split at hnext
      · rename_i d hdigit
        obtain ⟨hlt, rfl⟩ := Digits.eq_digitChar_of_ofChar? hdigit
        cases hnext
        have hfraction :=
          Reads.fraction negative hwhole (List.cons_ne_nil d []) (by simpa using hlt)
        simpa [fractionChars, digitChars] using hfraction
      · cases hnext
  | @fraction negative whole fraction hwhole hne hfraction =>
      simp only [PartialNumber.next] at hnext
      split at hnext
      · rename_i d hdigit
        obtain ⟨hlt, rfl⟩ := Digits.eq_digitChar_of_ofChar? hdigit
        cases hnext
        have hlonger := Reads.fraction negative hwhole (List.concat_ne_nil d fraction)
          (lt_ten_concat hfraction hlt)
        simpa [fractionChars, digitChars, hne] using hlonger
      · split at hnext
        · rename_i hmark
          cases hnext
          exact .mark negative hwhole hfraction (by simpa using hmark)
        · cases hnext
  | @mark negative whole fraction mark hwhole hfraction hmark =>
      simp only [PartialNumber.next] at hnext
      split at hnext
      · rename_i hplus
        cases hnext
        have hsigned := Reads.markSign negative hwhole hfraction hmark (Or.inl hplus)
        simpa [hplus] using hsigned
      split at hnext
      · rename_i hminus
        cases hnext
        have hsigned := Reads.markSign negative hwhole hfraction hmark (Or.inr hminus)
        simpa [hminus] using hsigned
      split at hnext
      · rename_i d hdigit
        obtain ⟨hlt, rfl⟩ := Digits.eq_digitChar_of_ofChar? hdigit
        cases hnext
        have hexponent := Reads.exponent negative hwhole hfraction hmark (Or.inl rfl)
          (List.cons_ne_nil d []) (by simpa using hlt)
        simpa [digitChars, Digits.value] using hexponent
      · cases hnext
  | @markSign negative whole fraction mark sign hwhole hfraction hmark hsign =>
      simp only [PartialNumber.next] at hnext
      split at hnext
      · rename_i d hdigit
        obtain ⟨hlt, rfl⟩ := Digits.eq_digitChar_of_ofChar? hdigit
        cases hnext
        have hsigned : [sign] = [] ∨ [sign] = ['+'] ∨ [sign] = ['-'] := by simpa using hsign
        have hexponent :=
          Reads.exponent negative hwhole hfraction hmark hsigned (List.cons_ne_nil d [])
          (by simpa using hlt)
        simpa [digitChars, Digits.value] using hexponent
      · cases hnext
  | @exponent negative whole fraction digits mark sign hwhole hfraction hmark hsign hne hdigits =>
      simp only [PartialNumber.next] at hnext
      split at hnext
      · rename_i d hdigit
        obtain ⟨hlt, rfl⟩ := Digits.eq_digitChar_of_ofChar? hdigit
        cases hnext
        have hlonger := Reads.exponent negative hwhole hfraction hmark hsign
          (List.concat_ne_nil d digits) (lt_ten_concat hdigits hlt)
        simpa [digitChars, Digits.value_append] using hlonger
      · cases hnext

theorem spellsNumeral_of_checked {spelled : List Char} {numeral other : Numeral}
    (hspells : SpellsNumeral spelled other)
    (h : (if other.isFinite then some other else none) = some numeral) :
    SpellsNumeral spelled numeral ∧ numeral.isFinite = true := by
  split at h
  · rename_i hfinite
    cases h
    exact ⟨hspells, hfinite⟩
  · cases h

/-- A number that may end here is spelled by the characters that have been read. -/
theorem Reads.spellsNumeral {n : PartialNumber} {spelled : List Char} {numeral : Numeral}
    (h : n.Reads spelled) (hfinish : n.finish? = some numeral) :
    SpellsNumeral spelled numeral ∧ numeral.isFinite = true := by
  -- In four of the phases a number cannot end.
  cases h with
  | sign => cases hfinish
  | point => cases hfinish
  | mark => cases hfinish
  | markSign => cases hfinish
  | leadingZero negative =>
      have hspells := SpellsNumeral.parts (⟨negative, [0], [], none⟩) .zero (by simp) .none
      refine spellsNumeral_of_checked ?_
        ((finish?_plain (Or.inl rfl) negative [0] []).symm.trans hfinish)
      simpa [fractionChars] using hspells
  | @whole negative d ds hd hdigits =>
      have hspells := SpellsNumeral.parts (⟨negative, d :: ds, [], none⟩)
        (.nonzero hd hdigits) (by simp) .none
      refine spellsNumeral_of_checked ?_
        ((finish?_plain (Or.inr (Or.inl rfl)) negative (d :: ds) []).symm.trans hfinish)
      simpa [fractionChars] using hspells
  | @fraction negative whole fraction hwhole hne hfraction =>
      have hspells := SpellsNumeral.parts (⟨negative, whole, fraction, none⟩)
        hwhole hfraction .none
      refine spellsNumeral_of_checked ?_
        ((finish?_plain (Or.inr (Or.inr rfl)) negative whole fraction).symm.trans hfinish)
      simpa using hspells
  | @exponent negative whole fraction digits mark sign hwhole hfraction hmark hsign hne hdigits =>
      have hspells := SpellsNumeral.parts (⟨negative, whole, fraction, some
          (if sign = ['-'] then -(Digits.value 10 digits : Int) else Digits.value 10 digits)⟩)
        hwhole hfraction (.some hmark hsign hne hdigits)
      refine spellsNumeral_of_checked hspells ?_
      have hexponent := finish?_exponent negative (decide (sign = ['-'])) whole fraction
        (Digits.value 10 digits)
      simp only [decide_eq_true_eq] at hexponent
      exact hexponent.symm.trans hfinish

/-- Where a number has ended, the next character does not go on with it. -/
theorem endsNumber_of_next {n : PartialNumber} {c : Char} {rest : List Char} {acc : List Token}
    {lexer : Lexer} (hnext : n.next c = .ended) (hblank : Lexer.stepBlank acc c = some lexer) :
    EndsNumber (c :: rest) := by
  intro e he
  cases he
  have hdigit : Digits.ofChar? 10 c = none := by
    cases hd : Digits.ofChar? 10 c with
    | none => rfl
    | some d =>
        obtain ⟨phase, negative, whole, fraction, exponentNegative, exponent⟩ := n
        obtain ⟨hlt, rfl⟩ := Digits.eq_digitChar_of_ofChar? hd
        interval_cases d <;> cases phase <;> cases hnext
  -- Neither a point nor an exponent begins a token.
  refine ⟨hdigit, ?_, ?_, ?_⟩ <;> rintro rfl <;> cases hblank

end PartialNumber

namespace Lexer

variable {acc out : List Token}

/-! ## What has been read -/

theorem run?_cons_eq_some {lexer : Lexer} {c : Char} {text : List Char} :
    lexer.run? (c :: text) = some out ↔
      ∃ next, lexer.step c = some next ∧ next.run? text = some out := by
  rw [run?_cons, Option.bind_eq_some_iff]

theorem exists_digit_of_run? {read : String} {high : Option Nat} {value left : Nat}
    {text : List Char}
    (h : run? ⟨.unicode read high value left, acc⟩ text = some out) :
    ∃ c d more, text = c :: more ∧ Digits.ofChar? 16 c = some d ∧
      (left ≤ 1 → ∃ mode, stepUnit read high (16 * value + d) = some mode ∧
        run? ⟨mode, acc⟩ more = some out) ∧
      (1 < left → run? ⟨.unicode read high (16 * value + d) (left - 1), acc⟩ more = some out) := by
  cases text with
  | nil => cases h
  | cons c more =>
      obtain ⟨next, hstep, hmore⟩ := run?_cons_eq_some.mp h
      simp only [step] at hstep
      cases hd : Digits.ofChar? 16 c with
      | none => simp [hd] at hstep
      | some d =>
          simp only [hd] at hstep
          refine ⟨c, d, more, rfl, hd, ?_, ?_⟩
          · intro hleft
            rw [if_pos hleft, Option.map_eq_some_iff] at hstep
            obtain ⟨mode, hmode, rfl⟩ := hstep
            exact ⟨mode, hmode, hmore⟩
          · intro hleft
            rw [if_neg (Nat.not_le.mpr hleft)] at hstep
            cases hstep
            exact hmore

theorem spellsUnit_of_run? {read : String} {high : Option Nat} {text : List Char}
    (h : run? ⟨.unicode read high 0 4, acc⟩ text = some out) :
    ∃ digits n rest mode, text = digits ++ rest ∧ SpellsUnit digits n ∧
      stepUnit read high n = some mode ∧ run? ⟨mode, acc⟩ rest = some out := by
  obtain ⟨a, w, text, rfl, ha, -, hmore⟩ := exists_digit_of_run? h
  obtain ⟨b, x, text, rfl, hb, -, hmore⟩ := exists_digit_of_run? (hmore (by decide))
  obtain ⟨c, y, text, rfl, hc, -, hmore⟩ := exists_digit_of_run? (hmore (by decide))
  obtain ⟨d, z, text, rfl, hd, hlast, -⟩ := exists_digit_of_run? (hmore (by decide))
  obtain ⟨mode, hmode, hrest⟩ := hlast (by decide)
  exact ⟨[a, b, c, d], _, text, mode, rfl, .digits ha hb hc hd, hmode, hrest⟩

/-- A high surrogate is completed by the escape of a low one. -/
theorem spellsUnit_of_surrogate {read : String} {high : Nat} {text : List Char}
    (h : run? ⟨.awaitBackslash read high, acc⟩ text = some out) :
    ∃ digits low rest, text = '\\' :: 'u' :: digits ++ rest ∧ SpellsUnit digits low ∧
      (0xDC00 ≤ low ∧ low ≤ 0xDFFF) ∧
      run? ⟨.text (read.push (Char.ofNat (0x10000 + (high - 0xD800) * 0x400 + (low - 0xDC00)))),
        acc⟩
        rest = some out := by
  -- Nothing but a backslash and a `u` may come before the digits of the other half.
  cases text with
  | nil => cases h
  | cons b text =>
      obtain ⟨next, hstep, hmore⟩ := run?_cons_eq_some.mp h
      simp only [step, Option.ite_none_right_eq_some, Option.some.injEq] at hstep
      obtain ⟨rfl, rfl⟩ := hstep
      cases text with
      | nil => cases hmore
      | cons u text =>
          obtain ⟨next, hstep, hmore⟩ := run?_cons_eq_some.mp hmore
          simp only [step, Option.ite_none_right_eq_some, Option.some.injEq] at hstep
          obtain ⟨rfl, rfl⟩ := hstep
          obtain ⟨digits, low, rest, mode, rfl, hdigits, hmode, hrest⟩ := spellsUnit_of_run? hmore
          simp only [stepUnit, Option.ite_none_right_eq_some, Option.some.injEq, Bool.and_eq_true,
            decide_eq_true_eq] at hmode
          obtain ⟨hrange, rfl⟩ := hmode
          exact ⟨digits, low, rest, rfl, hdigits, hrange, hrest⟩

/-- An escape stands for a character in one of its ways. -/
theorem spellsChar_of_escape {read : String} {text : List Char}
    (h : run? ⟨.escape read, acc⟩ text = some out) :
    ∃ spelled e rest, '\\' :: text = spelled ++ rest ∧ SpellsChar spelled e ∧
      run? ⟨.text (read.push e), acc⟩ rest = some out := by
  cases text with
  | nil => cases h
  | cons c text =>
      obtain ⟨next, hstep, hmore⟩ := run?_cons_eq_some.mp h
      simp only [step] at hstep
      split at hstep
      · rename_i hu
        cases hstep
        obtain ⟨digits, n, rest, mode, rfl, hdigits, hmode, hrest⟩ := spellsUnit_of_run? hmore
        rw [hu]
        simp only [stepUnit, Bool.and_eq_true, decide_eq_true_eq] at hmode
        split at hmode
        · cases hmode
        rename_i hlow
        split at hmode
        · rename_i hhigh
          cases hmode
          obtain ⟨others, low, rest, rfl, hothers, hrange, hrest⟩ := spellsUnit_of_surrogate hrest
          exact ⟨_, _, rest, by simp, .pair hdigits hothers hhigh hrange, hrest⟩
        · rename_i hhigh
          cases hmode
          exact ⟨_, _, rest, by simp, .unit hdigits (by omega), hrest⟩
      · obtain ⟨e, he, rfl⟩ := Option.map_eq_some_iff.mp hstep
        exact ⟨['\\', c], e, text, rfl, .letter he, hmore⟩

/-- A string goes on with a character as it may stand there. -/
theorem spellsChar_of_run? {read : String} {c : Char} {text : List Char} (hquote : c ≠ '"')
    (h : run? ⟨.text read, acc⟩ (c :: text) = some out) :
    ∃ spelled e rest, c :: text = spelled ++ rest ∧ SpellsChar spelled e ∧
      run? ⟨.text (read.push e), acc⟩ rest = some out := by
  obtain ⟨next, hstep, hmore⟩ := run?_cons_eq_some.mp h
  simp only [step, if_neg hquote] at hstep
  split at hstep
  · rename_i hbackslash
    cases hstep
    rw [hbackslash]
    exact spellsChar_of_escape hmore
  rename_i hbackslash
  split at hstep
  · cases hstep
  · rename_i hcontrol
    cases hstep
    exact ⟨[c], c, text, rfl, .plain hquote hbackslash (Nat.le_of_not_lt hcontrol), hmore⟩

theorem spellsText_of_run? {read : String} {text : List Char}
    (h : run? ⟨.text read, acc⟩ text = some out) :
    ∃ spelled body rest, text = spelled ++ '"' :: rest ∧ SpellsText spelled body ∧
      run? ⟨.blank, .string (read ++ String.ofList body) :: acc⟩ rest = some out := by
  -- A character may take up to twelve characters of the text.
  induction hlength : text.length using Nat.strongRecOn generalizing text read with
  | ind length ih =>
      cases text with
      | nil => cases h
      | cons c text =>
          by_cases hquote : c = '"'
          · obtain ⟨next, hstep, hmore⟩ := run?_cons_eq_some.mp h
            simp only [step, if_pos hquote] at hstep
            cases hstep
            have hread : read ++ String.ofList [] = read := by
              rw [← String.toList_inj]; simp
            exact ⟨[], [], text, by rw [hquote, List.nil_append], .nil, hread.symm ▸ hmore⟩
          · obtain ⟨first, e, rest, htext, hfirst, hrest⟩ := spellsChar_of_run? hquote h
            have hpos := List.length_pos_iff.mpr hfirst.ne_nil
            have hsum := congrArg List.length htext
            rw [List.length_append] at hsum
            obtain ⟨spelled, body, behind, rfl, hspelled, hbehind⟩ :=
              ih rest.length (by omega) hrest rfl
            have hread : read.push e ++ String.ofList body = read ++ String.ofList (e :: body) := by
              rw [← String.toList_inj]; simp
            exact ⟨first ++ spelled, e :: body, behind, by rw [htext, List.append_assoc],
              .cons hfirst hspelled, hread ▸ hbehind⟩

/-- A number ends where it may end, and nothing goes on with it there. -/
theorem spellsNumeral_of_run? {n : PartialNumber} {spelled text : List Char} (hn : n.Reads spelled)
    (h : run? ⟨.number n, acc⟩ text = some out) :
    ∃ more rest numeral, text = more ++ rest ∧ SpellsNumeral (spelled ++ more) numeral ∧
      numeral.isFinite = true ∧ EndsNumber rest ∧
      run? ⟨.blank, .number numeral :: acc⟩ rest = some out := by
  induction text generalizing n spelled with
  | nil =>
      rw [run?_nil, finish?, Option.map_eq_some_iff] at h
      obtain ⟨numeral, hfinish, hout⟩ := h
      obtain ⟨hspells, hfinite⟩ := hn.spellsNumeral hfinish
      exact ⟨[], [], numeral, rfl, by rwa [List.append_nil], hfinite, endsNumber_nil,
        congrArg some hout⟩
  | cons c text ih =>
      obtain ⟨next, hstep, hmore⟩ := run?_cons_eq_some.mp h
      simp only [step] at hstep
      cases hnext : n.next c with
      | more m =>
          rw [hnext] at hstep
          cases hstep
          obtain ⟨more, rest, numeral, rfl, hspells, hothers⟩ := ih (hn.step hnext) hmore
          exact ⟨c :: more, rest, numeral, rfl, by simpa using hspells, hothers⟩
      | ended =>
          rw [hnext] at hstep
          obtain ⟨numeral, hfinish, hblank⟩ := Option.bind_eq_some_iff.mp hstep
          obtain ⟨hspells, hfinite⟩ := hn.spellsNumeral hfinish
          refine ⟨[], c :: text, numeral, rfl, by rwa [List.append_nil], hfinite,
            PartialNumber.endsNumber_of_next hnext hblank, ?_⟩
          exact run?_cons_eq_some.mpr ⟨next, hblank, hmore⟩
      | broken => simp [hnext] at hstep

theorem word_of_run? {left text : List Char} {token : Token}
    (h : run? ⟨.word left token, acc⟩ text = some out) :
    ∃ rest, text = left ++ rest ∧ run? ⟨.blank, token :: acc⟩ rest = some out := by
  induction left generalizing text with
  | nil =>
      cases text with
      | nil => cases h
      | cons c text =>
          obtain ⟨next, hstep, -⟩ := run?_cons_eq_some.mp h
          cases hstep
  | cons l left ih =>
      cases text with
      | nil => cases h
      | cons c text =>
          obtain ⟨next, hstep, hmore⟩ := run?_cons_eq_some.mp h
          cases left with
          | nil =>
              simp only [step] at hstep
              split at hstep
              · rename_i hc
                cases hstep
                exact ⟨text, by rw [hc]; rfl, hmore⟩
              · cases hstep
          | cons m left =>
              simp only [step] at hstep
              split at hstep
              · rename_i hc
                cases hstep
                obtain ⟨rest, rfl, hrest⟩ := ih hmore
                exact ⟨rest, by rw [hc]; rfl, hrest⟩
              · cases hstep

/-- Between tokens, what is no blank begins a token. -/
theorem lexeme_of_run? {c : Char} {text : List Char} (hblank : isBlank c = false)
    (h : run? ⟨.blank, acc⟩ (c :: text) = some out) :
    ∃ spelled token rest, c :: text = spelled ++ rest ∧ Lexeme spelled token ∧
      (∀ n, token = .number n → EndsNumber rest) ∧
      run? ⟨.blank, token :: acc⟩ rest = some out := by
  obtain ⟨next, hstep, hmore⟩ := run?_cons_eq_some.mp h
  -- A token that is spelled in one way, of which the first character has been read.
  have hfixed : ∀ (token : Token) {left rest : List Char}, (∀ n, token ≠ .number n) →
      (∀ s, token ≠ .string s) → token.chars = c :: left → text = left ++ rest →
      run? ⟨.blank, token :: acc⟩ rest = some out →
      ∃ spelled token rest, c :: text = spelled ++ rest ∧ Lexeme spelled token ∧
        (∀ n, token = .number n → EndsNumber rest) ∧
        run? ⟨.blank, token :: acc⟩ rest = some out := by
    intro token left rest hnumber hstring hchars htext hrest
    refine ⟨token.chars, token, rest, ?_, .fixed hnumber hstring, ?_, hrest⟩
    · rw [hchars, htext, List.cons_append]
    · exact fun n hn => absurd hn (hnumber n)
  have hnumeral : ∀ {n : PartialNumber}, n.Reads [c] → next = ⟨.number n, acc⟩ →
      ∃ spelled token rest, c :: text = spelled ++ rest ∧ Lexeme spelled token ∧
        (∀ n, token = .number n → EndsNumber rest) ∧
        run? ⟨.blank, token :: acc⟩ rest = some out := by
    rintro n hn rfl
    obtain ⟨more, rest, numeral, rfl, hspells, hfinite, hends, hrest⟩ :=
      spellsNumeral_of_run? hn hmore
    exact ⟨c :: more, .number numeral, rest, rfl, .number hspells hfinite, fun _ _ => hends, hrest⟩
  simp only [step, stepBlank, hblank, Bool.false_eq_true, if_false] at hstep
  split at hstep
  · cases hstep
    exact hfixed .beginObject (by simp) (by simp) rfl rfl hmore
  · cases hstep
    exact hfixed .endObject (by simp) (by simp) rfl rfl hmore
  · cases hstep
    exact hfixed .beginArray (by simp) (by simp) rfl rfl hmore
  · cases hstep
    exact hfixed .endArray (by simp) (by simp) rfl rfl hmore
  · cases hstep
    exact hfixed .comma (by simp) (by simp) rfl rfl hmore
  · cases hstep
    exact hfixed .colon (by simp) (by simp) rfl rfl hmore
  · cases hstep
    obtain ⟨spelled, body, rest, rfl, hspelled, hrest⟩ := spellsText_of_run? hmore
    have hread : "" ++ String.ofList body = String.ofList body := by
      rw [← String.toList_inj]; simp
    exact ⟨'"' :: spelled ++ ['"'], .string (String.ofList body), rest, by simp, .string hspelled,
      by simp, hread ▸ hrest⟩
  · cases hstep
    obtain ⟨rest, rfl, hrest⟩ := word_of_run? hmore
    exact hfixed .null (by simp) (by simp) rfl rfl hrest
  · cases hstep
    obtain ⟨rest, rfl, hrest⟩ := word_of_run? hmore
    exact hfixed (.bool true) (by simp) (by simp) rfl rfl hrest
  · cases hstep
    obtain ⟨rest, rfl, hrest⟩ := word_of_run? hmore
    exact hfixed (.bool false) (by simp) (by simp) rfl rfl hrest
  · cases hstep
    exact hnumeral .sign rfl
  · split at hstep
    · rename_i hdigit
      obtain ⟨-, rfl⟩ := Digits.eq_digitChar_of_ofChar? hdigit
      cases hstep
      exact hnumeral (.leadingZero false) rfl
    · rename_i d hne hdigit
      obtain ⟨hlt, rfl⟩ := Digits.eq_digitChar_of_ofChar? hdigit
      cases hstep
      exact hnumeral (.whole false [] (by simpa using hne) (by simpa using hlt)) rfl
    · cases hstep

/-- A text from which tokens are read spells them. -/
theorem spells_of_run? {text : List Char} (h : run? ⟨.blank, acc⟩ text = some out) :
    ∃ tokens, out = acc.reverse ++ tokens ∧ Spells text tokens := by
  -- A token has at least one character, so that the text behind it is shorter.
  induction hlength : text.length using Nat.strongRecOn generalizing text acc with
  | ind length ih =>
      cases text with
      | nil =>
          cases h
          exact ⟨[], by rw [List.append_nil], .nil (List.forall_mem_nil _)⟩
      | cons c text =>
          cases hblank : isBlank c with
          | true =>
              have hstep : step ⟨.blank, acc⟩ c = some ⟨.blank, acc⟩ := if_pos hblank
              rw [run?_of_step hstep] at h
              obtain ⟨tokens, hout, htokens⟩ := ih text.length (hlength ▸ Nat.lt_succ_self _) h rfl
              exact ⟨tokens, hout, .blank hblank htokens⟩
          | false =>
              obtain ⟨spelled, token, rest, htext, htoken, hends, hrest⟩ := lexeme_of_run? hblank h
              have hpos := List.length_pos_iff.mpr htoken.ne_nil
              have hsum := congrArg List.length htext
              rw [List.length_append] at hsum
              obtain ⟨tokens, rfl, htokens⟩ := ih rest.length (by omega) hrest rfl
              refine ⟨token :: tokens, by simp, ?_⟩
              rw [htext]
              exact .token htoken hends htokens

end Lexer

/-- The lexer reads exactly the tokens that a text spells. -/
theorem tokens?_eq_some_iff {text : List Char} {tokens : List Token} :
    tokens? text = some tokens ↔ Spells text tokens := by
  constructor
  · intro h
    have hrun : Lexer.run? ⟨.blank, []⟩ text = some tokens := h
    obtain ⟨others, rfl, hspells⟩ := Lexer.spells_of_run? hrun
    exact hspells
  · intro h
    have hrun : Lexer.run? ⟨.blank, []⟩ text = some tokens := Lexer.run?_spells h
    exact hrun

end Json

end Switchboard
