/-!
# Places in a YAML text

A cursor is a place in a text together with its line and column, on which the layout of YAML
depends. Line breaks are made uniform before anything is read.
-/

namespace Switchboard

namespace Yaml

/-- Space and tab. -/
def isBlank (c : Char) : Bool := c = ' ' || c = '\t'

/-- Whether a character ends a line, in a text with uniform breaks. -/
def isBreak (c : Char) : Bool := c = '\n' || c = '\u2028' || c = '\u2029'

/-- Whether a word ends where `next` follows. -/
def endsWord (next : Option Char) : Bool := next.all fun c => isBlank c || isBreak c

/-- Whether a character may stand in a YAML text at all. -/
def isAllowed (c : Char) : Bool :=
  let n := c.toNat
  n == 0x09 || n == 0x0A || n == 0x0D || (0x20 ≤ n && n ≤ 0x7E) || n == 0x85 ||
    (0xA0 ≤ n && n ≤ 0xFFFD) || 0x10000 ≤ n

/-- Writes each carriage return, with or without a line feed, and each next-line character as one
line feed. -/
def uniformBreaks : List Char → List Char
  | '\r' :: '\n' :: cs => '\n' :: uniformBreaks cs
  | '\r' :: cs => '\n' :: uniformBreaks cs
  | '\u0085' :: cs => '\n' :: uniformBreaks cs
  | c :: cs => c :: uniformBreaks cs
  | [] => []

/-- The character that may begin a text or a line without being part of it. -/
def byteOrderMark : Char := '\uFEFF'

/-- A letter, digit, hyphen or underscore. -/
def isNameChar (c : Char) : Bool := c.isAlphanum || c = '-' || c = '_'

/-- A place in a text. -/
structure Cursor where
  rest : List Char
  line : Nat := 0
  column : Nat := 0

namespace Cursor

/-- The character at the place. -/
def peek (cursor : Cursor) : Option Char := cursor.rest.head?

/-- The character behind that. -/
def peekNext (cursor : Cursor) : Option Char := cursor.rest[1]?

/-- The place `n` characters on, in the same line. -/
def advance (cursor : Cursor) (n : Nat) : Cursor :=
  { cursor with rest := cursor.rest.drop n, column := cursor.column + n }

/-- The place behind the line break that stands here. -/
def newLine (cursor : Cursor) : Cursor := ⟨cursor.rest.drop 1, cursor.line + 1, 0⟩

/-- The longest run of characters that satisfy `p`, which no line break does, and the place behind
it. -/
def takeRun (cursor : Cursor) (p : Char → Bool) : List Char × Cursor :=
  let run := cursor.rest.takeWhile p
  (run, cursor.advance run.length)

/-- The place behind the blanks that stand here. -/
def skipBlanks (cursor : Cursor) : Cursor := (cursor.takeRun isBlank).2

/-- The place at the end of the line. -/
def toLineEnd (cursor : Cursor) : Cursor := (cursor.takeRun fun c => !isBreak c).2

/-- Behind blanks and a comment, the place behind the end of the line. None if something else stands
there. -/
def finishLine? (cursor : Cursor) : Option Cursor :=
  let cursor := cursor.skipBlanks
  let cursor := if cursor.peek = some '#' then cursor.toLineEnd else cursor
  match cursor.peek with
  | none => some cursor
  | some c => if isBreak c then some cursor.newLine else none

end Cursor

/-- Whether a text at the start of a line marks the start or the end of a document. -/
def startsWithMarker : List Char → Bool
  | '-' :: '-' :: '-' :: cs => endsWord cs.head?
  | '.' :: '.' :: '.' :: cs => endsWord cs.head?
  | _ => false

/-- The white space between two words of a scalar. -/
structure Gap where
  /-- The blanks before the first line break, last first. -/
  blanks : List Char := []
  /-- Whether the line ended. -/
  lineEnded : Bool := false
  /-- The break that ended it, unless it was escaped. -/
  first : Option Char := none
  /-- The breaks behind it, last first. -/
  more : List Char := []

namespace Gap

/-- Whether there is any white space. -/
def isEmpty (gap : Gap) : Bool := gap.blanks.isEmpty && !gap.lineEnded

/-- One more blank. Blanks behind a line break do not count. -/
def addBlank (gap : Gap) (c : Char) : Gap :=
  if gap.lineEnded then gap else { gap with blanks := c :: gap.blanks }

/-- One more line break. Blanks before it do not count. -/
def addBreak (gap : Gap) (c : Char) : Gap :=
  if gap.lineEnded then { gap with more := c :: gap.more }
  else { lineEnded := true, first := some c }

/-- The white space behind an escaped line break. -/
def escaped : Gap := { lineEnded := true }

/-- What the white space contributes to the scalar: blanks within a line are kept, a single line
break becomes a space, and of several the first is dropped. The result stands last character
first. -/
def folded (gap : Gap) : List Char :=
  if !gap.lineEnded then gap.blanks
  else match gap.first with
    | some '\n' => if gap.more.isEmpty then [' '] else gap.more
    | some c => gap.more ++ [c]
    | none => gap.more

end Gap

end Yaml

end Switchboard
