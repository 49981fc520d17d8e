import Switchboard.Digits
import Switchboard.Yaml.Cursor

/-!
# Scalars of a YAML text

Readers for the four ways to write a scalar: plain, in single or double quotes, and as a block. Each
takes the place where the scalar starts and returns its text and the place behind it, or nothing if
the text breaks the rules. The characters of a text under construction stand last first.
-/

namespace Switchboard

namespace Yaml

/-! ## Plain scalars -/

/-- Whether a character opens, closes or separates flow collections. -/
def isFlowIndicator (c : Char) : Bool := c = ',' || c = '[' || c = ']' || c = '{' || c = '}'

/-- A plain scalar that has been read: its text, whether a line ended behind it, and where it
ended. -/
structure PlainScalar where
  text : String
  lineEnded : Bool
  behind : Cursor

/-- Whether a plain scalar ends before `c`, which follows `gap`. In a block it has to be
indented. -/
def endsPlain (inFlow : Bool) (indent : Nat) (gap : Gap) (column : Nat) (c : Char)
    (cs : List Char) : Bool :=
  (!gap.isEmpty && (c = '#' || (!inFlow && column < indent) ||
    (column == 0 && startsWithMarker (c :: cs)))) ||
  (c = ':' && endsWord cs.head?) || (inFlow && isFlowIndicator c)

/-- Reads a plain scalar from `text`, `gap` and the characters at the given line and column. -/
def readPlain (inFlow : Bool) (indent : Nat) (text : List Char) (gap : Gap) (line column : Nat) :
    List Char → Option PlainScalar
  | [] => some ⟨String.ofList text.reverse, gap.lineEnded, ⟨[], line, column⟩⟩
  | c :: cs =>
      if isBlank c then
        if gap.lineEnded && c = '\t' && column < indent then none
        else readPlain inFlow indent text (gap.addBlank c) line (column + 1) cs
      else if isBreak c then readPlain inFlow indent text (gap.addBreak c) (line + 1) 0 cs
      else if inFlow && c = ':' && (cs.head?.any fun d => d = '?' || isFlowIndicator d) then none
      else if endsPlain inFlow indent gap column c cs then
        some ⟨String.ofList text.reverse, gap.lineEnded, ⟨c :: cs, line, column⟩⟩
      else readPlain inFlow indent (c :: (gap.folded ++ text)) {} line (column + 1) cs

/-! ## Quoted scalars -/

/-- Reads a scalar in single quotes, behind the opening quote. A quote within is written twice. -/
def readSingleQuoted (text : List Char) (gap : Gap) (line column : Nat) :
    List Char → Option (String × Cursor)
  | [] => none
  | c :: cs =>
      if column == 0 && startsWithMarker (c :: cs) then none
      else if isBlank c then readSingleQuoted text (gap.addBlank c) line (column + 1) cs
      else if isBreak c then readSingleQuoted text (gap.addBreak c) (line + 1) 0 cs
      else
        let text := gap.folded ++ text
        match c, cs with
        | '\'', '\'' :: cs => readSingleQuoted ('\'' :: text) {} line (column + 2) cs
        | '\'', cs => some (String.ofList text.reverse, ⟨cs, line, column + 1⟩)
        | c, cs => readSingleQuoted (c :: text) {} line (column + 1) cs

/-- The character that a one-letter escape stands for. -/
def escapedChar? : Char → Option Char
  | '0' => some '\x00'
  | 'a' => some '\x07'
  | 'b' => some '\x08'
  | 't' => some '\t'
  | '\t' => some '\t'
  | 'n' => some '\n'
  | 'v' => some '\x0b'
  | 'f' => some '\x0c'
  | 'r' => some '\r'
  | 'e' => some '\x1b'
  | ' ' => some ' '
  | '"' => some '"'
  | '/' => some '/'
  | '\\' => some '\\'
  | 'N' => some '\u0085'
  | '_' => some '\u00a0'
  | 'L' => some '\u2028'
  | 'P' => some '\u2029'
  | _ => none

/-- How many hexadecimal digits follow the letter of a numeric escape. -/
def escapeDigits? : Char → Option Nat
  | 'x' => some 2
  | 'u' => some 4
  | 'U' => some 8
  | _ => none

/-- The character of the given number, if there is one. -/
def charOfNumber? (n : Nat) : Option Char :=
  if h : n.isValidChar then some (Char.ofNatAux n h) else none

/-- Where a reader of a scalar in double quotes stands. -/
inductive QuotedMode where
  /-- Behind the white space `gap`. -/
  | text (gap : Gap)
  /-- Behind a backslash. -/
  | escape
  /-- In a numeric escape with `left` digits to come. -/
  | number (value left : Nat)

/-- Reads a scalar in double quotes, behind the opening quote. -/
def readDoubleQuoted (text : List Char) (mode : QuotedMode) (line column : Nat) :
    List Char → Option (String × Cursor)
  | [] => none
  | c :: cs =>
      match mode with
      | .text gap =>
          if column == 0 && startsWithMarker (c :: cs) then none
          else if isBlank c then readDoubleQuoted text (.text (gap.addBlank c)) line (column + 1) cs
          else if isBreak c then readDoubleQuoted text (.text (gap.addBreak c)) (line + 1) 0 cs
          else
            let text := gap.folded ++ text
            if c = '"' then some (String.ofList text.reverse, ⟨cs, line, column + 1⟩)
            else if c = '\\' then readDoubleQuoted text .escape line (column + 1) cs
            else readDoubleQuoted (c :: text) (.text {}) line (column + 1) cs
      | .escape =>
          if isBreak c then readDoubleQuoted text (.text .escaped) (line + 1) 0 cs
          else match escapedChar? c, escapeDigits? c with
            | some d, _ => readDoubleQuoted (d :: text) (.text {}) line (column + 1) cs
            | none, some n => readDoubleQuoted text (.number 0 n) line (column + 1) cs
            | none, none => none
      | .number value left =>
          match Digits.ofChar? 16 c with
          | none => none
          | some d =>
              let value := 16 * value + d
              if left ≤ 1 then
                match charOfNumber? value with
                | some d => readDoubleQuoted (d :: text) (.text {}) line (column + 1) cs
                | none => none
              else readDoubleQuoted text (.number value (left - 1)) line (column + 1) cs

/-! ## Block scalars -/

/-- What becomes of the line breaks at the end of a block scalar. -/
inductive Chomping where
  | strip
  | clip
  | keep
deriving DecidableEq, Repr

/-- The header of a block scalar: the chomping, and how much deeper than its parent it is indented,
if the text says so. -/
structure BlockHeader where
  chomping : Chomping := .clip
  depth : Option Nat := none

/-- The chomping that a character asks for. -/
def chomping? : Char → Option Chomping
  | '+' => some .keep
  | '-' => some .strip
  | _ => none

/-- The depth that a character asks for. -/
def depth? (c : Char) : Option Nat := Digits.ofChar? 10 c

/-- Reads the header behind `|` or `>`, up to the next line. -/
def readBlockHeader (cursor : Cursor) : Option (BlockHeader × Cursor) := do
  let chomping := cursor.peek.bind chomping?
  let cursor := cursor.advance (if chomping.isSome then 1 else 0)
  let depth := cursor.peek.bind depth?
  let cursor := cursor.advance (if depth.isSome then 1 else 0)
  let late := if chomping.isNone && depth.isSome then cursor.peek.bind chomping? else none
  let cursor := cursor.advance (if late.isSome then 1 else 0)
  if depth = some 0 then none
  else
    let cursor ← cursor.finishLine?
    some (⟨(chomping <|> late).getD .clip, depth⟩, cursor)

/-- Behind the empty lines of a block scalar: their breaks, last first, the place, and the widest
indentation of spaces that was met. Without a limit all spaces at the start of a line are
indentation. -/
def readEmptyLines (limit : Option Nat) (breaks : List Char) (widest line column : Nat) :
    List Char → Option (List Char × Nat × Cursor)
  | [] => some (breaks, max widest column, ⟨[], line, column⟩)
  | c :: cs =>
      let within := limit.all (column < ·)
      if within && c = ' ' then readEmptyLines limit breaks widest line (column + 1) cs
      else if within && c = '\t' then none
      else if isBreak c then readEmptyLines limit (c :: breaks) (max widest column) (line + 1) 0 cs
      else some (breaks, max widest column, ⟨c :: cs, line, column⟩)

/-- A block scalar that has been read in part: its text, the break behind its last line, and those
of the empty lines that follow, each last first. -/
structure BlockText where
  text : List Char := []
  lineBreak : List Char := []
  emptyLines : List Char := []
  /-- Whether the last line began with a blank. Such a line is not folded. -/
  indented : Bool := false

/-- Adds a line. In a folded scalar the break between two lines that are not indented becomes a
space, or nothing if empty lines stand between them. -/
def BlockText.addLine (block : BlockText) (folded : Bool) (words : List Char)
    (lineBreak : List Char)
    (emptyLines : List Char) : BlockText :=
  let indented := words.head?.any isBlank
  let joint :=
    if folded && block.lineBreak == ['\n'] && !block.indented && !indented then
      if block.emptyLines.isEmpty then [' '] else []
    else block.lineBreak
  { text := words.reverse ++ (block.emptyLines ++ (joint ++ block.text))
    lineBreak, emptyLines, indented }

/-- Reads the lines of a block scalar that are indented by exactly `indent`, at most `count`. -/
def readBlockLines (folded : Bool) (indent : Nat) :
    Nat → BlockText → Cursor → Option (BlockText × Cursor)
  | 0, block, cursor => some (block, cursor)
  | count + 1, block, cursor =>
      if cursor.column = indent && cursor.peek.isSome then do
        let (words, cursor) := cursor.takeRun fun c => !isBreak c
        let lineBreak := cursor.peek.toList
        let cursor := if lineBreak.isEmpty then cursor else cursor.newLine
        let (emptyLines, _, cursor) ←
          readEmptyLines (some indent) [] 0 cursor.line cursor.column cursor.rest
        readBlockLines folded indent count (block.addLine folded words lineBreak emptyLines) cursor
      else some (block, cursor)

/-- Reads a block scalar behind `|` or `>`, in a parent that is indented by `parent`, if by
anything. Without a given depth the widest indentation up to the first line with text counts. -/
def readBlock (folded : Bool) (parent : Option Nat) (cursor : Cursor) :
    Option (String × Cursor) := do
  let (header, cursor) ← readBlockHeader cursor
  let given := header.depth.map (parent.getD 0 + ·)
  let (emptyLines, widest, cursor) ←
    readEmptyLines given [] 0 cursor.line cursor.column cursor.rest
  let indent := given.getD (max widest (max 1 ((parent.map (· + 1)).getD 0)))
  let (block, cursor) ←
    readBlockLines folded indent (cursor.rest.length + 1) { emptyLines } cursor
  let ending := match header.chomping with
    | .strip => []
    | .clip => block.lineBreak
    | .keep => block.emptyLines ++ block.lineBreak
  some (String.ofList (ending ++ block.text).reverse, cursor)

end Yaml

end Switchboard
