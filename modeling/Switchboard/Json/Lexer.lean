import Switchboard.Json.Basic

/-!
# Tokens of a JSON text

The lexer is a machine that takes one character per step. Between tokens it skips blanks (space,
tab, line feed, carriage return); inside a string it resolves escapes; a number ends at the first
character that cannot continue it, which is then read again between tokens. A text that breaks the
grammar of a token, or a number beyond double precision, stops the machine.
-/

namespace Switchboard

namespace Json

/-- Where in a number the lexer stands. -/
inductive NumberPhase where
  | sign
  | leadingZero
  | whole
  | point
  | fraction
  | mark
  | markSign
  | exponent
deriving DecidableEq, Repr

/-- A number read in part. Digits stand last first. -/
structure PartialNumber where
  phase : NumberPhase
  negative : Bool
  whole : List Nat
  fraction : List Nat
  exponentNegative : Bool
  exponent : Nat
deriving DecidableEq, Repr

/-- Where in the text the lexer stands. -/
inductive LexerMode where
  /-- Between tokens. -/
  | blank
  /-- In a string, behind the characters of `read`. -/
  | text (read : String)
  /-- Behind a backslash. -/
  | escape (read : String)
  /-- In a `\u` escape with `left` digits to come; `high` is a high surrogate that the escape has to
  complete. -/
  | unicode (read : String) (high : Option Nat) (value : Nat) (left : Nat)
  /-- Behind a high surrogate, where a backslash must stand. -/
  | awaitBackslash (read : String) (high : Nat)
  /-- Behind the backslash that follows a high surrogate, where a `u` must stand. -/
  | awaitU (read : String) (high : Nat)
  /-- In a number. -/
  | number (n : PartialNumber)
  /-- In one of the words `null`, `true` and `false`, with `left` to come. -/
  | word (left : List Char) (token : Token)

/-- A lexer: its mode and the tokens read so far, last first. -/
structure Lexer where
  mode : LexerMode
  tokens : List Token

/-- Whether a character may stand between tokens. -/
def isBlank (c : Char) : Bool := c = ' ' || c = '\t' || c = '\n' || c = '\r'

namespace PartialNumber

/-- A number of which nothing has been read. -/
def start (phase : NumberPhase) (negative : Bool) (whole : List Nat) : PartialNumber :=
  ⟨phase, negative, whole, [], false, 0⟩

/-- What a character does to a number: it goes on with it, ends before it, or breaks the grammar. -/
inductive Next where
  | more (n : PartialNumber)
  | ended
  | broken

/-- The effect of one character. -/
def next (n : PartialNumber) (c : Char) : Next :=
  match n.phase with
  | .sign =>
      match Digits.ofChar? 10 c with
      | some 0 => .more { n with phase := .leadingZero, whole := [0] }
      | some d => .more { n with phase := .whole, whole := [d] }
      | none => .broken
  | .leadingZero =>
      if (Digits.ofChar? 10 c).isSome then .broken
      else if c = '.' then .more { n with phase := .point }
      else if c = 'e' || c = 'E' then .more { n with phase := .mark }
      else .ended
  | .whole =>
      match Digits.ofChar? 10 c with
      | some d => .more { n with whole := d :: n.whole }
      | none =>
          if c = '.' then .more { n with phase := .point }
          else if c = 'e' || c = 'E' then .more { n with phase := .mark }
          else .ended
  | .point =>
      match Digits.ofChar? 10 c with
      | some d => .more { n with phase := .fraction, fraction := [d] }
      | none => .broken
  | .fraction =>
      match Digits.ofChar? 10 c with
      | some d => .more { n with fraction := d :: n.fraction }
      | none => if c = 'e' || c = 'E' then .more { n with phase := .mark } else .ended
  | .mark =>
      if c = '+' then .more { n with phase := .markSign }
      else if c = '-' then .more { n with phase := .markSign, exponentNegative := true }
      else
        match Digits.ofChar? 10 c with
        | some d => .more { n with phase := .exponent, exponent := d }
        | none => .broken
  | .markSign =>
      match Digits.ofChar? 10 c with
      | some d => .more { n with phase := .exponent, exponent := d }
      | none => .broken
  | .exponent =>
      match Digits.ofChar? 10 c with
      | some d => .more { n with exponent := 10 * n.exponent + d }
      | none => .ended

/-- The numeral, if the number may end here and is within double precision. -/
def finish? (n : PartialNumber) : Option Numeral :=
  let numeral (exponent : Option Int) : Numeral :=
    ⟨n.negative, n.whole.reverse, n.fraction.reverse, exponent⟩
  let checked (numeral : Numeral) : Option Numeral :=
    if numeral.isFinite then some numeral else none
  match n.phase with
  | .leadingZero | .whole | .fraction => checked (numeral none)
  | .exponent =>
      checked (numeral (some (if n.exponentNegative then -n.exponent else n.exponent)))
  | _ => none

end PartialNumber

namespace Lexer

/-- The lexer before the first character. -/
def start : Lexer := ⟨.blank, []⟩

/-- Reads a character between tokens. -/
def stepBlank (tokens : List Token) (c : Char) : Option Lexer :=
  if isBlank c then some ⟨.blank, tokens⟩
  else
    match c with
    | '{' => some ⟨.blank, .beginObject :: tokens⟩
    | '}' => some ⟨.blank, .endObject :: tokens⟩
    | '[' => some ⟨.blank, .beginArray :: tokens⟩
    | ']' => some ⟨.blank, .endArray :: tokens⟩
    | ',' => some ⟨.blank, .comma :: tokens⟩
    | ':' => some ⟨.blank, .colon :: tokens⟩
    | '"' => some ⟨.text "", tokens⟩
    | 'n' => some ⟨.word ['u', 'l', 'l'] .null, tokens⟩
    | 't' => some ⟨.word ['r', 'u', 'e'] (.bool true), tokens⟩
    | 'f' => some ⟨.word ['a', 'l', 's', 'e'] (.bool false), tokens⟩
    | '-' => some ⟨.number (.start .sign true []), tokens⟩
    | c =>
        match Digits.ofChar? 10 c with
        | some 0 => some ⟨.number (.start .leadingZero false [0]), tokens⟩
        | some d => some ⟨.number (.start .whole false [d]), tokens⟩
        | none => none

/-- The character that a one-letter escape stands for. -/
def escaped? : Char → Option Char
  | '"' => some '"'
  | '\\' => some '\\'
  | '/' => some '/'
  | 'b' => some '\x08'
  | 'f' => some '\x0c'
  | 'n' => some '\n'
  | 'r' => some '\r'
  | 't' => some '\t'
  | _ => none

/-- Goes on behind a complete `\u` escape of the given code unit. -/
def stepUnit (read : String) (high : Option Nat) (unit : Nat) : Option LexerMode :=
  match high with
  | some h =>
      if 0xDC00 ≤ unit && unit ≤ 0xDFFF then
        some (.text (read.push (Char.ofNat (0x10000 + (h - 0xD800) * 0x400 + (unit - 0xDC00)))))
      else none
  | none =>
      if 0xDC00 ≤ unit && unit ≤ 0xDFFF then none
      else if 0xD800 ≤ unit && unit ≤ 0xDBFF then some (.awaitBackslash read unit)
      else some (.text (read.push (Char.ofNat unit)))

/-- Reads one character. -/
def step (lexer : Lexer) (c : Char) : Option Lexer :=
  let tokens := lexer.tokens
  match lexer.mode with
  | .blank => stepBlank tokens c
  | .text read =>
      if c = '"' then some ⟨.blank, .string read :: tokens⟩
      else if c = '\\' then some ⟨.escape read, tokens⟩
      else if c.toNat < 0x20 then none
      else some ⟨.text (read.push c), tokens⟩
  | .escape read =>
      if c = 'u' then some ⟨.unicode read none 0 4, tokens⟩
      else (escaped? c).map fun e => ⟨.text (read.push e), tokens⟩
  | .unicode read high value left =>
      match Digits.ofChar? 16 c with
      | none => none
      | some d =>
          let value := 16 * value + d
          if left ≤ 1 then (stepUnit read high value).map fun mode => ⟨mode, tokens⟩
          else some ⟨.unicode read high value (left - 1), tokens⟩
  | .awaitBackslash read high =>
      if c = '\\' then some ⟨.awaitU read high, tokens⟩ else none
  | .awaitU read high => if c = 'u' then some ⟨.unicode read (some high) 0 4, tokens⟩ else none
  | .number n =>
      match n.next c with
      | .more n => some ⟨.number n, tokens⟩
      | .ended => n.finish?.bind fun numeral => stepBlank (.number numeral :: tokens) c
      | .broken => none
  | .word left token =>
      match left with
      | [] => none
      | [l] => if c = l then some ⟨.blank, token :: tokens⟩ else none
      | l :: more => if c = l then some ⟨.word more token, tokens⟩ else none

/-- The tokens, if the text may end here. -/
def finish? (lexer : Lexer) : Option (List Token) :=
  match lexer.mode with
  | .blank => some lexer.tokens.reverse
  | .number n => n.finish?.map fun numeral => (Token.number numeral :: lexer.tokens).reverse
  | _ => none

end Lexer

/-- The tokens of a text. -/
def tokens? (text : List Char) : Option (List Token) :=
  (text.foldlM Lexer.step Lexer.start).bind Lexer.finish?

end Json

end Switchboard
