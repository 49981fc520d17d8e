import Switchboard.Json.Basic

/-!
# Writing JSON

A value is written without blanks, members in the order they stand. In a string, the quotation mark,
the backslash and the control characters below U+0020 are escaped, five of the latter by a letter of
their own and the rest by four lower-case hexadecimal digits; every other character stands for
itself.
-/

namespace Switchboard

namespace Json

/-- A number below sixteen as a lower-case hexadecimal digit. -/
def hexDigit (n : Nat) : Char := Nat.digitChar n

/-- A character as it stands in a string. -/
def escapeChar (c : Char) : List Char :=
  if c = '"' then ['\\', '"']
  else if c = '\\' then ['\\', '\\']
  else if c = '\x08' then ['\\', 'b']
  else if c = '\t' then ['\\', 't']
  else if c = '\n' then ['\\', 'n']
  else if c = '\x0c' then ['\\', 'f']
  else if c = '\r' then ['\\', 'r']
  else if c.toNat < 0x20 then
    ['\\', 'u', '0', '0', hexDigit (c.toNat / 16), hexDigit (c.toNat % 16)]
  else [c]

/-- A string between quotation marks. -/
def quote (s : String) : List Char := '"' :: s.toList.flatMap escapeChar ++ ['"']

/-- The characters of digits. -/
def digitChars (digits : List Nat) : List Char := digits.map Nat.digitChar

namespace Numeral

/-- The characters of a numeral. -/
def chars (n : Numeral) : List Char :=
  (if n.negative then ['-'] else []) ++ digitChars n.whole ++
    (if n.fraction.isEmpty then [] else '.' :: digitChars n.fraction) ++
    match n.exponent with
    | none => []
    | some e => 'e' :: (toString e).toList

end Numeral

namespace Token

/-- The characters of a token. -/
def chars : Token → List Char
  | beginObject => ['{']
  | endObject => ['}']
  | beginArray => ['[']
  | endArray => [']']
  | comma => [',']
  | colon => [':']
  | null => ['n', 'u', 'l', 'l']
  | bool true => ['t', 'r', 'u', 'e']
  | bool false => ['f', 'a', 'l', 's', 'e']
  | number n => n.chars
  | string s => quote s

end Token

mutual

/-- The tokens that spell a value. -/
def tokens : Json → List Token
  | null => [.null]
  | bool b => [.bool b]
  | number n => [.number n]
  | string s => [.string s]
  | array items => .beginArray :: itemTokens items ++ [.endArray]
  | object members => .beginObject :: memberTokens members ++ [.endObject]

/-- The tokens that spell the items of an array. -/
def itemTokens : List Json → List Token
  | [] => []
  | [v] => tokens v
  | v :: w :: items => tokens v ++ .comma :: itemTokens (w :: items)

/-- The tokens that spell the members of an object. -/
def memberTokens : List (String × Json) → List Token
  | [] => []
  | [(name, v)] => .string name :: .colon :: tokens v
  | (name, v) :: m :: members =>
      .string name :: .colon :: tokens v ++ .comma :: memberTokens (m :: members)

end

/-- The text of a value. -/
def render (v : Json) : String := String.ofList (v.tokens.flatMap Token.chars)

end Json

end Switchboard
