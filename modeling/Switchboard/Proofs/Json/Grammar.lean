import Switchboard.Json.Parser
import Switchboard.Json.Printer

/-!
# The grammar of JSON texts

The texts that spell a value, said without a reader. A character of a string may stand for itself or
be escaped in several ways, a number is kept digit by digit, and blanks may stand before, between
and behind the tokens of a value. The tokens are those of the printer (`Json.tokens`), in their
order. A reader sets two limits: a number must be within double precision (`Lexeme.number`), and
only so many arrays and objects may lie inside each other (`Within`).
-/

namespace Switchboard

namespace Json

/-! ## Strings -/

/-- Four hexadecimal digits, in either case, and the number that they spell. -/
inductive SpellsUnit : List Char → Nat → Prop
  | digits {a b c d : Char} {w x y z : Nat} (ha : Digits.ofChar? 16 a = some w)
      (hb : Digits.ofChar? 16 b = some x) (hc : Digits.ofChar? 16 c = some y)
      (hd : Digits.ofChar? 16 d = some z) : SpellsUnit [a, b, c, d] (Digits.value 16 [w, x, y, z])

/-- The ways in which a character may stand in a string: for itself, as a letter behind a backslash,
as its code unit, or as the two code units of a character beyond the basic plane. -/
inductive SpellsChar : List Char → Char → Prop
  | plain {c : Char} (hquote : c ≠ '"') (hbackslash : c ≠ '\\') (hcontrol : 0x20 ≤ c.toNat) :
      SpellsChar [c] c
  | letter {e c : Char} (he : Lexer.escaped? e = some c) : SpellsChar ['\\', e] c
  | unit {digits : List Char} {n : Nat} (hdigits : SpellsUnit digits n)
      (hn : n < 0xD800 ∨ 0xDFFF < n) : SpellsChar ('\\' :: 'u' :: digits) (Char.ofNat n)
  | pair {digits others : List Char} {high low : Nat} (hdigits : SpellsUnit digits high)
      (hothers : SpellsUnit others low) (hhigh : 0xD800 ≤ high ∧ high ≤ 0xDBFF)
      (hlow : 0xDC00 ≤ low ∧ low ≤ 0xDFFF) :
      SpellsChar ('\\' :: 'u' :: digits ++ '\\' :: 'u' :: others)
        (Char.ofNat (0x10000 + (high - 0xD800) * 0x400 + (low - 0xDC00)))

theorem SpellsChar.ne_nil {spelled : List Char} {c : Char} (h : SpellsChar spelled c) :
    spelled ≠ [] := by
  cases h <;> simp

/-- The characters of a string as they may stand between its quotation marks. -/
inductive SpellsText : List Char → List Char → Prop
  | nil : SpellsText [] []
  | cons {spelled more text : List Char} {c : Char} (hc : SpellsChar spelled c)
      (hmore : SpellsText more text) : SpellsText (spelled ++ more) (c :: text)

/-! ## Numbers -/

/-- The digits before the point: a single zero, or digits of which the first is not zero. -/
inductive IsWhole : List Nat → Prop
  | zero : IsWhole [0]
  | nonzero {d : Nat} {ds : List Nat} (hd : d ≠ 0) (hdigits : ∀ e ∈ d :: ds, e < 10) :
      IsWhole (d :: ds)

theorem IsWhole.ne_nil {digits : List Nat} (h : IsWhole digits) : digits ≠ [] := by
  cases h <;> simp

/-- The power of ten behind a number: nothing, or digits behind an `e` of either case and a sign
that may be left out. -/
inductive SpellsExponent : List Char → Option Int → Prop
  | none : SpellsExponent [] none
  | some {mark : Char} {sign : List Char} {digits : List Nat} (hmark : mark = 'e' ∨ mark = 'E')
      (hsign : sign = [] ∨ sign = ['+'] ∨ sign = ['-']) (hne : digits ≠ [])
      (hdigits : ∀ d ∈ digits, d < 10) :
      SpellsExponent (mark :: sign ++ digitChars digits)
        (some (if sign = ['-'] then -(Digits.value 10 digits : Int) else Digits.value 10 digits))

/-- A minus, or nothing. -/
def signChars (negative : Bool) : List Char := if negative then ['-'] else []

/-- The point and the digits behind it, or nothing. -/
def fractionChars (fraction : List Nat) : List Char :=
  if fraction = [] then [] else '.' :: digitChars fraction

/-- A number: its sign, the digits before the point, point and digits, and a power of ten. -/
inductive SpellsNumeral : List Char → Numeral → Prop
  | parts (numeral : Numeral) {exponent : List Char} (hwhole : IsWhole numeral.whole)
      (hfraction : ∀ d ∈ numeral.fraction, d < 10)
      (hexponent : SpellsExponent exponent numeral.exponent) :
      SpellsNumeral
        (signChars numeral.negative ++ digitChars numeral.whole ++ fractionChars numeral.fraction ++
          exponent) numeral

/-! ## Texts -/

/-- The ways in which a token may be spelled. A token that is neither string nor number is spelled
in one way. -/
inductive Lexeme : List Char → Token → Prop
  | fixed {token : Token} (hnumber : ∀ n, token ≠ .number n) (hstring : ∀ s, token ≠ .string s) :
      Lexeme token.chars token
  | string {spelled text : List Char} (htext : SpellsText spelled text) :
      Lexeme ('"' :: spelled ++ ['"']) (.string (String.ofList text))
  | number {spelled : List Char} {numeral : Numeral} (hnumeral : SpellsNumeral spelled numeral)
      (hfinite : numeral.isFinite = true) : Lexeme spelled (.number numeral)

theorem Lexeme.ne_nil {spelled : List Char} {token : Token} (h : Lexeme spelled token) :
    spelled ≠ [] := by
  cases h with
  | fixed hnumber hstring =>
      cases token with
      | number n => exact absurd rfl (hnumber n)
      | string s => exact absurd rfl (hstring s)
      | bool b => cases b <;> simp [Token.chars]
      | _ => simp [Token.chars]
  | string => simp
  | number hnumeral =>
      cases hnumeral with
      | parts _ hwhole => simp [digitChars, hwhole.ne_nil]

/-- Whether a number may end before a text: the next character does not go on with it. -/
def EndsNumber (text : List Char) : Prop :=
  ∀ c ∈ text.head?, Digits.ofChar? 10 c = none ∧ c ≠ '.' ∧ c ≠ 'e' ∧ c ≠ 'E'

theorem endsNumber_nil : EndsNumber [] := by
  intro c hc
  cases hc

/-- Tokens one behind the other, with blanks before, between and behind them. -/
inductive Spells : List Char → List Token → Prop
  | nil {blanks : List Char} (hblanks : ∀ c ∈ blanks, isBlank c = true) : Spells blanks []
  | cons {blanks spelled rest : List Char} {token : Token} {tokens : List Token}
      (hblanks : ∀ c ∈ blanks, isBlank c = true) (htoken : Lexeme spelled token)
      (hends : ∀ n, token = .number n → EndsNumber rest) (hrest : Spells rest tokens) :
      Spells (blanks ++ (spelled ++ rest)) (token :: tokens)

/-- Tokens need no blanks between them. -/
theorem Spells.token {spelled rest : List Char} {token : Token} {tokens : List Token}
    (htoken : Lexeme spelled token) (hends : ∀ n, token = .number n → EndsNumber rest)
    (hrest : Spells rest tokens) : Spells (spelled ++ rest) (token :: tokens) := by
  have hnone : ∀ c ∈ ([] : List Char), isBlank c = true := List.forall_mem_nil _
  exact Spells.cons hnone htoken hends hrest

/-- A blank in front does not matter. -/
theorem Spells.blank {c : Char} {text : List Char} {tokens : List Token} (hc : isBlank c = true)
    (h : Spells text tokens) : Spells (c :: text) tokens := by
  have hblanks : ∀ {blanks : List Char}, (∀ e ∈ blanks, isBlank e = true) →
      ∀ e ∈ c :: blanks, isBlank e = true := by
    intro blanks hall e he
    rcases List.mem_cons.mp he with rfl | he
    · exact hc
    · exact hall e he
  cases h with
  | nil hall => exact .nil (hblanks hall)
  | cons hall htoken hends hrest => exact .cons (hblanks hall) htoken hends hrest

/-- Values with at most `depth` arrays and objects inside each other. -/
inductive Within : Nat → Json → Prop
  | null (depth : Nat) : Within depth .null
  | bool (depth : Nat) (b : Bool) : Within depth (.bool b)
  | number (depth : Nat) (n : Numeral) : Within depth (.number n)
  | string (depth : Nat) (s : String) : Within depth (.string s)
  | array {depth : Nat} {items : List Json} (hitems : ∀ v ∈ items, Within depth v) :
      Within (depth + 1) (.array items)
  | object {depth : Nat} {members : List (String × Json)}
      (hmembers : ∀ m ∈ members, Within depth m.2) :
      Within (depth + 1) (.object members)

/-- A byte string that is the text of a value and keeps to the limits of a reader. -/
structure Written (bytes : ByteArray) (v : Json) : Prop where
  spells : ∃ text : String, bytes = text.toUTF8 ∧ Spells text.toList v.tokens
  within : Within maxDepth v

end Json

end Switchboard
