import Switchboard.Proofs.Json.Parsing
import Switchboard.Proofs.Json.Spelling

/-!
# Reading the values that were written

A text is read as a value if and only if it spells the tokens of the value, and no more arrays and
objects lie inside each other than a reader admits (`parse?_eq_some_iff`, `written_iff`). What the
printer writes is one of these texts where all numbers are natural numbers of 64 bits
(`Plain.lexes`), and a value of that kind is read back from it (`parse?_render`).
-/

namespace Switchboard

namespace Json

/-- The texts that are read as a value are those that spell it. -/
theorem parse?_eq_some_iff {text : String} {v : Json} :
    parse? text = some v ↔ Spells text.toList v.tokens ∧ Within maxDepth v := by
  rw [parse?, Option.bind_eq_some_iff]
  constructor
  · rintro ⟨tokens, htokens, hvalue⟩
    obtain ⟨rfl, hwithin⟩ := ofTokens?_eq_some_iff.mp hvalue
    exact ⟨tokens?_eq_some_iff.mp htokens, hwithin⟩
  · rintro ⟨hspells, hwithin⟩
    exact ⟨v.tokens, tokens?_eq_some_iff.mpr hspells, ofTokens?_eq_some_iff.mpr ⟨rfl, hwithin⟩⟩

theorem written_of_parse? {text : String} {v : Json} (h : parse? text = some v) :
    Written text.toUTF8 v := by
  obtain ⟨hspells, hwithin⟩ := parse?_eq_some_iff.mp h
  exact ⟨⟨text, rfl, hspells⟩, hwithin⟩

/-- A text is read back from its bytes. -/
theorem fromUTF8?_toUTF8 (text : String) : String.fromUTF8? text.toUTF8 = some text := by
  have hvalid : text.toUTF8.IsValidUTF8 := text.isValidUTF8
  rw [String.fromUTF8?, dif_pos hvalid]
  rfl

/-- A text is read from its bytes and from no others. -/
theorem fromUTF8?_eq_some_iff {bytes : ByteArray} {text : String} :
    String.fromUTF8? bytes = some text ↔ bytes = text.toUTF8 := by
  constructor
  · intro htext
    rw [String.fromUTF8?] at htext
    split at htext
    · cases htext
      rfl
    · cases htext
  · rintro rfl
    exact fromUTF8?_toUTF8 text

/-- The byte strings that are read as a value are those in which it is written. -/
theorem written_iff {bytes : ByteArray} {v : Json} :
    Written bytes v ↔ (String.fromUTF8? bytes).bind parse? = some v := by
  rw [Option.bind_eq_some_iff]
  constructor
  · rintro ⟨⟨text, rfl, hspells⟩, hwithin⟩
    exact ⟨text, fromUTF8?_toUTF8 text, parse?_eq_some_iff.mpr ⟨hspells, hwithin⟩⟩
  · rintro ⟨text, htext, hparse⟩
    obtain rfl := fromUTF8?_eq_some_iff.mp htext
    exact written_of_parse? hparse

/-- Values whose numbers are natural numbers of 64 bits, with at most `depth` arrays and objects
inside each other. -/
inductive Plain : Nat → Json → Prop
  | null (depth : Nat) : Plain depth .null
  | bool (depth : Nat) (b : Bool) : Plain depth (.bool b)
  | number (depth : Nat) {n : Nat} (hn : n < UInt64.size) : Plain depth (.number (.ofNat n))
  | string (depth : Nat) (s : String) : Plain depth (.string s)
  | array {depth : Nat} {items : List Json} (hitems : ∀ v ∈ items, Plain depth v) :
      Plain (depth + 1) (.array items)
  | object {depth : Nat} {members : List (String × Json)}
      (hmembers : ∀ m ∈ members, Plain depth m.2) : Plain (depth + 1) (.object members)

/-- A value that is plain lies within a limit that is no lower than its own. -/
theorem Plain.within {depth limit : Nat} {v : Json} (h : Plain depth v) (hle : depth ≤ limit) :
    Within limit v := by
  induction h generalizing limit with
  | null => exact .null limit
  | bool _ b => exact .bool limit b
  | number => exact .number limit _
  | string _ s => exact .string limit s
  | array _ ih =>
      obtain ⟨limit, rfl⟩ := Nat.exists_eq_add_of_le' (Nat.le_trans (Nat.le_add_left 1 _) hle)
      exact .array fun v hv => ih v hv (Nat.le_of_succ_le_succ hle)
  | object _ ih =>
      obtain ⟨limit, rfl⟩ := Nat.exists_eq_add_of_le' (Nat.le_trans (Nat.le_add_left 1 _) hle)
      exact .object fun m hm => ih m hm (Nat.le_of_succ_le_succ hle)

/-! ## Tokens as they are written -/

theorem spellsChar_control {c : Char} (hc : c.toNat < 0x20) :
    SpellsChar ['\\', 'u', '0', '0', hexDigit (c.toNat / 16), hexDigit (c.toNat % 16)] c := by
  have hzero : Digits.ofChar? 16 '0' = some 0 := rfl
  have hhigh : Digits.ofChar? 16 (hexDigit (c.toNat / 16)) = some (c.toNat / 16) :=
    Digits.ofChar?_digitChar (by omega) (Nat.le_refl 16)
  have hlow : Digits.ofChar? 16 (hexDigit (c.toNat % 16)) = some (c.toNat % 16) :=
    Digits.ofChar?_digitChar (by omega) (Nat.le_refl 16)
  have hvalue : Digits.value 16 [0, 0, c.toNat / 16, c.toNat % 16] = c.toNat := by
    simpa [Digits.value] using Nat.div_add_mod c.toNat 16
  have hunit := SpellsChar.unit (.digits hzero hzero hhigh hlow) (by rw [hvalue]; omega)
  rwa [hvalue, Char.ofNat_toNat] at hunit

/-- The printer spells a character in one of the ways in which it may stand in a string. -/
theorem spellsChar_escapeChar (c : Char) : SpellsChar (escapeChar c) c := by
  unfold escapeChar
  by_cases hquote : c = '"'
  · rw [if_pos hquote, hquote]
    exact .letter rfl
  by_cases hbackslash : c = '\\'
  · rw [if_neg hquote, if_pos hbackslash, hbackslash]
    exact .letter rfl
  by_cases hbackspace : c = '\x08'
  · rw [if_neg hquote, if_neg hbackslash, if_pos hbackspace, hbackspace]
    exact .letter rfl
  by_cases htab : c = '\t'
  · rw [if_neg hquote, if_neg hbackslash, if_neg hbackspace, if_pos htab, htab]
    exact .letter rfl
  by_cases hline : c = '\n'
  · rw [if_neg hquote, if_neg hbackslash, if_neg hbackspace, if_neg htab, if_pos hline, hline]
    exact .letter rfl
  by_cases hform : c = '\x0c'
  · rw [if_neg hquote, if_neg hbackslash, if_neg hbackspace, if_neg htab, if_neg hline,
      if_pos hform, hform]
    exact .letter rfl
  by_cases hreturn : c = '\r'
  · rw [if_neg hquote, if_neg hbackslash, if_neg hbackspace, if_neg htab, if_neg hline,
      if_neg hform, if_pos hreturn, hreturn]
    exact .letter rfl
  rw [if_neg hquote, if_neg hbackslash, if_neg hbackspace, if_neg htab, if_neg hline,
    if_neg hform, if_neg hreturn]
  -- The control characters that are left have four digits, and all else stands for itself.
  by_cases hcontrol : c.toNat < 0x20
  · rw [if_pos hcontrol]
    exact spellsChar_control hcontrol
  · rw [if_neg hcontrol]
    exact .plain hquote hbackslash (Nat.le_of_not_lt hcontrol)

theorem spellsText_flatMap (text : List Char) : SpellsText (text.flatMap escapeChar) text := by
  induction text with
  | nil => exact .nil
  | cons c text ih =>
      rw [List.flatMap_cons]
      exact .cons (spellsChar_escapeChar c) ih

theorem isWhole_ofNat (n : Nat) : IsWhole (Numeral.ofNat n).whole := by
  by_cases hzero : n = 0
  · rw [hzero]
    exact .zero
  · obtain ⟨d, ds, hds, hd⟩ := Numeral.whole_ofNat_of_ne_zero hzero
    rw [hds]
    exact .nonzero hd (hds ▸ Numeral.lt_of_mem_whole_ofNat n)

theorem spellsNumeral_ofNat (n : Nat) : SpellsNumeral (Numeral.ofNat n).chars (.ofNat n) := by
  have hparts := SpellsNumeral.parts (.ofNat n) (isWhole_ofNat n) (List.forall_mem_nil _) .none
  have hsign : signChars (Numeral.ofNat n).negative = [] := rfl
  have hfraction : fractionChars (Numeral.ofNat n).fraction = [] := rfl
  rwa [hsign, hfraction, List.nil_append, List.append_nil, List.append_nil,
    Numeral.digitChars_whole_ofNat, ← Numeral.chars_ofNat] at hparts

/-- A token that is no number is spelled as it is written. -/
theorem lexeme_chars {token : Token} (hnumber : ∀ n, token ≠ .number n) :
    Lexeme token.chars token := by
  cases token with
  | number n => exact absurd rfl (hnumber n)
  | string s =>
      have hstring := Lexeme.string (spellsText_flatMap s.toList)
      rwa [String.ofList_toList] at hstring
  | _ => exact .fixed (by simp) (by simp)

/-! ## Values as they are written -/

/-- A token that is no number may stand before any text. -/
theorem Spells.chars {rest : List Char} {token : Token} {tokens : List Token}
    (hnumber : ∀ n, token ≠ .number n) (hrest : Spells rest tokens) :
    Spells (token.chars ++ rest) (token :: tokens) :=
  .token (lexeme_chars hnumber) (fun n hn => absurd hn (hnumber n)) hrest

/-- The written tokens of a value are spelled in front of a text before which a number may end. -/
def Lexes (v : Json) : Prop :=
  ∀ rest tokens, EndsNumber rest → Spells rest tokens →
    Spells (v.tokens.flatMap Token.chars ++ rest) (v.tokens ++ tokens)

theorem endsNumber_comma (rest : List Char) : EndsNumber (Token.comma.chars ++ rest) := by
  rintro c ⟨⟩
  exact ⟨rfl, by decide, by decide, by decide⟩

theorem endsNumber_endArray (rest : List Char) : EndsNumber (Token.endArray.chars ++ rest) := by
  rintro c ⟨⟩
  exact ⟨rfl, by decide, by decide, by decide⟩

theorem endsNumber_endObject (rest : List Char) : EndsNumber (Token.endObject.chars ++ rest) := by
  rintro c ⟨⟩
  exact ⟨rfl, by decide, by decide, by decide⟩

theorem spells_itemTokens {items : List Json} (hitems : ∀ v ∈ items, v.Lexes) {rest : List Char}
    {tokens : List Token} (hends : EndsNumber rest) (hrest : Spells rest tokens) :
    Spells ((itemTokens items).flatMap Token.chars ++ rest) (itemTokens items ++ tokens) := by
  induction items with
  | nil => rw [itemTokens]; exact hrest
  | cons v items ih =>
      have hv : v.Lexes := hitems v List.mem_cons_self
      have hothers : ∀ w ∈ items, w.Lexes := fun w hw => hitems w (List.mem_cons_of_mem v hw)
      cases items with
      | nil => rw [itemTokens]; exact hv rest tokens hends hrest
      | cons w items =>
          rw [itemTokens, List.flatMap_append, List.flatMap_cons, List.append_assoc,
            List.append_assoc, List.append_assoc]
          exact hv _ _ (endsNumber_comma _) (.chars (by simp) (ih hothers))

theorem spells_memberTokens {members : List (String × Json)} (hmembers : ∀ m ∈ members, m.2.Lexes)
    {rest : List Char} {tokens : List Token} (hends : EndsNumber rest)
    (hrest : Spells rest tokens) :
    Spells ((memberTokens members).flatMap Token.chars ++ rest)
      (memberTokens members ++ tokens) := by
  induction members with
  | nil => rw [memberTokens]; exact hrest
  | cons m members ih =>
      have hm : m.2.Lexes := hmembers m List.mem_cons_self
      have hothers : ∀ o ∈ members, o.2.Lexes :=
        fun o ho => hmembers o (List.mem_cons_of_mem m ho)
      obtain ⟨name, v⟩ := m
      cases members with
      | nil =>
          rw [memberTokens, List.flatMap_cons, List.flatMap_cons, List.append_assoc,
            List.append_assoc]
          exact .chars (by simp) (.chars (by simp) (hm rest tokens hends hrest))
      | cons o members =>
          rw [memberTokens, List.flatMap_append, List.flatMap_cons, List.flatMap_cons,
            List.flatMap_cons, List.append_assoc, List.append_assoc, List.append_assoc,
            List.append_assoc, List.append_assoc]
          exact .chars (by simp) (.chars (by simp)
            (hm _ _ (endsNumber_comma _) (.chars (by simp) (ih hothers))))

/-- What is written of a plain value is spelled. -/
theorem Plain.lexes {depth : Nat} {v : Json} (h : Plain depth v) : v.Lexes := by
  induction h with
  | null =>
      intro rest tokens _ hrest
      rw [Json.tokens, List.flatMap_singleton]
      exact .chars (by simp) hrest
  | bool depth b =>
      intro rest tokens _ hrest
      rw [Json.tokens, List.flatMap_singleton]
      exact .chars (by simp) hrest
  | @number depth n hn =>
      intro rest tokens hends hrest
      rw [Json.tokens, List.flatMap_singleton]
      exact .token (.number (spellsNumeral_ofNat n) (Numeral.isFinite_ofNat hn))
        (fun _ _ => hends) hrest
  | string depth s =>
      intro rest tokens _ hrest
      rw [Json.tokens, List.flatMap_singleton]
      exact .chars (by simp) hrest
  | array _ ih =>
      intro rest tokens _ hrest
      rw [Json.tokens, List.flatMap_append, List.flatMap_cons, List.flatMap_singleton,
        List.append_assoc, List.append_assoc, List.append_assoc]
      exact .chars (by simp) (spells_itemTokens ih (endsNumber_endArray _) (.chars (by simp) hrest))
  | object _ ih =>
      intro rest tokens _ hrest
      rw [Json.tokens, List.flatMap_append, List.flatMap_cons, List.flatMap_singleton,
        List.append_assoc, List.append_assoc, List.append_assoc]
      exact .chars (by simp) (spells_memberTokens ih (endsNumber_endObject _)
        (.chars (by simp) hrest))

/-- The text of a value is read back as the value. -/
theorem parse?_render {depth : Nat} {v : Json} (h : Plain depth v) (hdepth : depth ≤ maxDepth) :
    parse? v.render = some v := by
  have hspells := h.lexes [] [] endsNumber_nil (.nil (List.forall_mem_nil _))
  rw [List.append_nil, List.append_nil] at hspells
  rw [parse?_eq_some_iff, render, String.toList_ofList]
  exact ⟨hspells, h.within hdepth⟩

end Json

end Switchboard
