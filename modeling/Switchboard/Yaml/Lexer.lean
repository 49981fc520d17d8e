import Switchboard.Yaml.Basic
import Switchboard.Yaml.Scalar

/-!
# Tokens of a YAML text

The layout of a text becomes explicit here: tokens open and close the blocks that indentation makes,
and mark keys and values. A key is recognized only by the colon behind it, so the lexer remembers
for each open flow collection, and for the block around them, the token that may turn out to begin a
key, and marks it afterwards. A key without a question mark stands on one line and is not longer
than 1024 characters.
-/

namespace Switchboard

namespace Yaml

/-- The smallest parts of a YAML text. -/
inductive Token where
  | version (major minor : Nat)
  | tagHandle (handle : String) (lead : String)
  | documentStart
  | documentEnd
  | beginBlockSequence
  | beginBlockMapping
  | endBlock
  | beginSequence
  | endSequence
  | beginMapping
  | endMapping
  | blockEntry
  | flowEntry
  | key
  | value
  | alias (anchor : String)
  | anchor (name : String)
  | tag (handle suffix : String)
  | scalar (style : ScalarStyle) (text : String)
deriving DecidableEq, Repr

/-- A token that may begin a key: its index among all tokens, and its place. -/
structure KeySite where
  index : Nat
  line : Nat
  column : Nat
  /-- Whether nothing but a key may stand here. -/
  required : Bool

/-- A lexer: where it stands, the tokens so far, the columns of the blocks it is in, innermost
first, and the sites of possible keys: that of the innermost flow collection first, that of the
block around them last. -/
structure Lexer where
  cursor : Cursor
  tokens : Array Token := #[]
  indents : List Nat := []
  site : Option KeySite := none
  outerSites : List (Option KeySite) := []
  /-- Whether a key may begin at the next token. -/
  keyAllowed : Bool := true
  finished : Bool := false

namespace Lexer

/-- Whether the lexer is in a flow collection. -/
def inFlow (lexer : Lexer) : Bool := !lexer.outerSites.isEmpty

/-- Adds a token. -/
def emit (lexer : Lexer) (token : Token) : Lexer :=
  { lexer with tokens := lexer.tokens.push token }

/-- Adds a token for the next `n` characters. -/
def emitFor (lexer : Lexer) (n : Nat) (token : Token) : Lexer :=
  { lexer.emit token with cursor := lexer.cursor.advance n }

/-- Says whether a key may begin at the next token. -/
def allowKey (lexer : Lexer) (keyAllowed : Bool) : Lexer := { lexer with keyAllowed }

/-! ## Blocks -/

/-- Closes the blocks that are indented deeper than `column`, or all. -/
def closeBlocks (column : Option Nat) (lexer : Lexer) : Lexer :=
  if lexer.inFlow then lexer
  else
    let deeper := lexer.indents.takeWhile fun indent => column.all (· < indent)
    { lexer with
      indents := lexer.indents.drop deeper.length
      tokens := deeper.foldl (fun tokens _ => tokens.push .endBlock) lexer.tokens }

/-- Opens a block at `column` unless one of that depth is open. Its token stands at `index`. -/
def openBlock (lexer : Lexer) (column index : Nat) (token : Token) : Lexer :=
  if lexer.inFlow || !lexer.indents.head?.all (· < column) then lexer
  else
    { lexer with
      indents := column :: lexer.indents
      tokens := lexer.tokens.insertIdxIfInBounds index token }

/-! ## Keys -/

/-- Drops the site of a possible key. None if there had to be a key. -/
def dropSite (lexer : Lexer) : Option Lexer :=
  if lexer.site.any KeySite.required then none else some { lexer with site := none }

/-- Remembers the next token as the possible beginning of a key. -/
def markSite (lexer : Lexer) : Option Lexer :=
  if lexer.keyAllowed then do
    let lexer ← lexer.dropSite
    let ⟨_, line, column⟩ := lexer.cursor
    let required := !lexer.inFlow && lexer.indents.head? == some column
    some { lexer with site := some ⟨lexer.tokens.size, line, column, required⟩ }
  else some lexer

/-- Whether a key that begins at a site would be too long by now. -/
def isStale (cursor : Cursor) (site : KeySite) : Bool :=
  site.line < cursor.line || site.column + 1024 < cursor.column

/-- Drops a site that is too far back. None if there had to be a key. -/
def refreshSite (cursor : Cursor) : Option KeySite → Option (Option KeySite)
  | some site =>
      if isStale cursor site then (if site.required then none else some none)
      else some (some site)
  | none => some none

/-- Drops the sites that are too far back. -/
def refreshSites (lexer : Lexer) : Option Lexer := do
  let site ← refreshSite lexer.cursor lexer.site
  let outerSites ← lexer.outerSites.mapM (refreshSite lexer.cursor)
  some { lexer with site, outerSites }

/-! ## Between tokens -/

/-- Skips white space and comments. A tab may not stand where a key may begin in a block. -/
def skipSpace (inFlow : Bool) (keyAllowed comment : Bool) (line column : Nat) :
    List Char → Cursor × Bool
  | [] => (⟨[], line, column⟩, keyAllowed)
  | c :: cs =>
      if isBreak c then skipSpace inFlow (keyAllowed || !inFlow) false (line + 1) 0 cs
      else if comment || c = ' ' || (c = '\t' && (inFlow || !keyAllowed)) ||
          (column == 0 && c = byteOrderMark) then
        skipSpace inFlow keyAllowed comment line (column + 1) cs
      else if c = '#' then skipSpace inFlow keyAllowed true line (column + 1) cs
      else (⟨c :: cs, line, column⟩, keyAllowed)

/-! ## Single tokens -/

/-- The end of the text: all blocks are closed. -/
def finish (lexer : Lexer) : Option Lexer := do
  let lexer ← (lexer.closeBlocks none).dropSite
  some { lexer with finished := true }

/-- The marks that may stand in an address. -/
def addressMarks : String := ";/?:@&=+$.%!~*'()"

/-- Characters of which an address in a tag consists. -/
def isAddressChar (verbatim : Bool) (c : Char) : Bool :=
  isNameChar c || addressMarks.toList.contains c ||
    (verbatim && (c = ',' || c = '[' || c = ']'))

/-- Resolves the escapes in an address: `%` and two hexadecimal digits stand for a byte. -/
def addressBytes : List Char → Option (List UInt8)
  | '%' :: a :: b :: cs => do
      let high ← Digits.ofChar? 16 a
      let low ← Digits.ofChar? 16 b
      let rest ← addressBytes cs
      some ((16 * high + low).toUInt8 :: rest)
  | '%' :: _ => none
  | c :: cs => do
      let rest ← addressBytes cs
      some ((String.singleton c).toUTF8.toList ++ rest)
  | [] => some []

/-- The text of an address. -/
def addressText (address : List Char) : Option String := do
  let bytes ← addressBytes address
  String.fromUTF8? ⟨bytes.toArray⟩

/-- Reads a tag handle: `!`, `!!` or `!name!`. A lone `!` may be followed by anything, so that the
name behind it is left to be read as an address. -/
def readHandle (cursor : Cursor) : Option (String × Cursor) :=
  if cursor.peek = some '!' then
    let (name, behind) := (cursor.advance 1).takeRun isNameChar
    if behind.peek = some '!' then
      some (String.ofList ('!' :: name ++ ['!']), behind.advance 1)
    else some ("!", cursor.advance 1)
  else none

/-- Reads a tag: its handle and suffix, and the place behind it. The handle of a tag in full is
empty. -/
def readTag (cursor : Cursor) : Option ((String × String) × Cursor) := do
  if cursor.peekNext = some '<' then
    let (address, behind) := (cursor.advance 2).takeRun (isAddressChar true)
    let suffix ← addressText address
    if address.isEmpty || behind.peek ≠ some '>' then none
    else some (("", suffix), behind.advance 1)
  else
    let (handle, behind) ← readHandle cursor
    let (address, behind) := behind.takeRun (isAddressChar false)
    let suffix ← addressText address
    if address.isEmpty then
      if handle = "!" then some (("", "!"), behind) else none
    else some ((handle, suffix), behind)

/-- Reads a directive behind its percent sign. -/
def readDirective (cursor : Cursor) : Option (Token × Cursor) := do
  let (name, cursor) := cursor.takeRun isNameChar
  if !endsWord cursor.peek then none
  else
    let cursor := cursor.skipBlanks
    match String.ofList name with
    | "YAML" =>
        let (major, cursor) := cursor.takeRun Char.isDigit
        let (minor, behind) := (cursor.advance 1).takeRun Char.isDigit
        let major ← Digits.ofText? 10 major
        let minor ← Digits.ofText? 10 minor
        if cursor.peek = some '.' then some (.version major minor, ← behind.finishLine?) else none
    | "TAG" =>
        let (handle, behind) ← readHandle cursor
        let (address, last) := behind.skipBlanks.takeRun (isAddressChar true)
        let lead ← addressText address
        if behind.peek.any isBlank && !address.isEmpty && endsWord last.peek then
          some (.tagHandle handle lead, ← last.finishLine?)
        else none
    | _ => none

/-- A directive, a marker of a document's start or end, which close all blocks. -/
def atMargin (lexer : Lexer) : Option Lexer := do
  let lexer ← (lexer.closeBlocks none).dropSite
  let lexer := lexer.allowKey false
  match lexer.cursor.peek with
  | some '%' =>
      let (token, cursor) ← readDirective (lexer.cursor.advance 1)
      some { lexer.emit token with cursor }
  | some '-' => some (lexer.emitFor 3 .documentStart)
  | _ => some (lexer.emitFor 3 .documentEnd)

/-- The start of a flow collection. -/
def enterFlow (lexer : Lexer) (token : Token) : Option Lexer := do
  let lexer ← lexer.markSite
  let lexer := (lexer.emitFor 1 token).allowKey true
  some { lexer with outerSites := lexer.site :: lexer.outerSites, site := none }

/-- The end of a flow collection. -/
def leaveFlow (lexer : Lexer) (token : Token) : Option Lexer := do
  let lexer ← lexer.dropSite
  let lexer := (lexer.emitFor 1 token).allowKey false
  match lexer.outerSites with
  | [] => some lexer
  | site :: outerSites => some { lexer with site, outerSites }

/-- The comma between entries of a flow collection. -/
def separate (lexer : Lexer) : Option Lexer := do
  let lexer ← lexer.dropSite
  some ((lexer.emitFor 1 .flowEntry).allowKey true)

/-- Opens a block at the place of an indicator that stands first in its line, unless in a flow
collection. None if no block may begin here. -/
def openBlockHere (lexer : Lexer) (token : Token) : Option Lexer :=
  if lexer.inFlow then some lexer
  else if lexer.keyAllowed then
    some (lexer.openBlock lexer.cursor.column lexer.tokens.size token)
  else none

/-- The hyphen before an entry of a block sequence. -/
def beginEntry (lexer : Lexer) : Option Lexer := do
  let lexer ← lexer.openBlockHere .beginBlockSequence
  let lexer ← lexer.dropSite
  some ((lexer.emitFor 1 .blockEntry).allowKey true)

/-- The question mark before a key. -/
def beginKey (lexer : Lexer) : Option Lexer := do
  let lexer ← lexer.openBlockHere .beginBlockMapping
  let lexer ← lexer.dropSite
  some ((lexer.emitFor 1 .key).allowKey !lexer.inFlow)

/-- The colon before a value. If a key may have begun before, it did. -/
def beginValue (lexer : Lexer) : Option Lexer :=
  match lexer.site with
  | some site =>
      let marked :=
        { lexer with tokens := lexer.tokens.insertIdxIfInBounds site.index .key, site := none }
      let opened := marked.openBlock site.column site.index .beginBlockMapping
      some ((opened.emitFor 1 .value).allowKey false)
  | none => do
      let lexer ← lexer.openBlockHere .beginBlockMapping
      some ((lexer.emitFor 1 .value).allowKey !lexer.inFlow)

/-- The characters, white space apart, that may stand directly behind the name of an anchor. -/
def namesMayPrecede : List Char := ['?', ':', ',', ']', '\x7d', '%', '@', '\x60']

/-- An anchor or a reference to one. -/
def nameNode (lexer : Lexer) (token : String → Token) : Option Lexer := do
  let lexer ← lexer.markSite
  let (name, cursor) := (lexer.cursor.advance 1).takeRun isNameChar
  if name.isEmpty || !(endsWord cursor.peek || cursor.peek.any namesMayPrecede.contains) then none
  else some { (lexer.emit (token (String.ofList name))).allowKey false with cursor }

/-- A tag. -/
def tagNode (lexer : Lexer) : Option Lexer := do
  let lexer ← lexer.markSite
  let ((handle, suffix), cursor) ← readTag lexer.cursor
  if endsWord cursor.peek || (lexer.inFlow && cursor.peek = some ',') then
    some { (lexer.emit (.tag handle suffix)).allowKey false with cursor }
  else none

/-- A block scalar, behind which a key may begin. -/
def blockScalar (lexer : Lexer) (style : ScalarStyle) : Option Lexer := do
  let lexer ← lexer.dropSite
  let (text, cursor) ← readBlock (style = .folded) lexer.indents.head? (lexer.cursor.advance 1)
  some { (lexer.emit (.scalar style text)).allowKey true with cursor }

/-- A scalar in quotes. -/
def quotedScalar (lexer : Lexer) (quote : Char) : Option Lexer := do
  let lexer ← lexer.markSite
  let ⟨rest, line, column⟩ := lexer.cursor.advance 1
  let (text, cursor) ←
    if quote = '"' then readDoubleQuoted [] (.text {}) line column rest
    else readSingleQuoted [] {} line column rest
  some { (lexer.emit (.scalar .quoted text)).allowKey false with cursor }

/-- A plain scalar. A key may begin behind it if its line has ended. -/
def plainScalar (lexer : Lexer) : Option Lexer := do
  let lexer ← lexer.markSite
  let ⟨rest, line, column⟩ := lexer.cursor
  let indent := (lexer.indents.head?.map (· + 1)).getD 0
  let scalar ← readPlain lexer.inFlow indent [] {} line column rest
  some
    { (lexer.emit (.scalar .plain scalar.text)).allowKey scalar.lineEnded with
      cursor := scalar.behind }

/-- The characters that begin something other than a plain scalar wherever they stand. -/
def indicators : List Char := ['#', '&', '*', '!', '|', '>', '\'', '"', '%', '@', '\x60']

/-- Whether a plain scalar may begin with `c`. -/
def beginsPlain (inFlow : Bool) (c : Char) (next : Option Char) : Bool :=
  if c = '-' then !next.any isBlank
  else if c = '?' || c = ':' then !inFlow && !endsWord next
  else !(isBlank c || isBreak c || isFlowIndicator c || indicators.contains c)

/-- Reads the token that begins with `c`. -/
def token (lexer : Lexer) (c : Char) : Option Lexer :=
  let next := lexer.cursor.peekNext
  let inFlow := lexer.inFlow
  if lexer.cursor.column = 0 && (c = '%' || startsWithMarker lexer.cursor.rest) then lexer.atMargin
  else match c with
    | '[' => lexer.enterFlow .beginSequence
    | '{' => lexer.enterFlow .beginMapping
    | ']' => lexer.leaveFlow .endSequence
    | '}' => lexer.leaveFlow .endMapping
    | ',' => lexer.separate
    | '*' => lexer.nameNode .alias
    | '&' => lexer.nameNode .anchor
    | '!' => lexer.tagNode
    | '\'' | '"' => lexer.quotedScalar c
    | _ =>
        if c = '-' && endsWord next then lexer.beginEntry
        else if c = '?' && (inFlow || endsWord next) then lexer.beginKey
        else if c = ':' && (inFlow || endsWord next) then lexer.beginValue
        else if c = '|' && !inFlow then lexer.blockScalar .literal
        else if c = '>' && !inFlow then lexer.blockScalar .folded
        else if beginsPlain inFlow c next then lexer.plainScalar
        else none

/-- Skips white space, closes the blocks that end here, and reads a token. -/
def step (lexer : Lexer) : Option Lexer := do
  let ⟨rest, line, column⟩ := lexer.cursor
  let (cursor, keyAllowed) := skipSpace lexer.inFlow lexer.keyAllowed false line column rest
  let lexer ← { lexer with cursor, keyAllowed }.refreshSites
  let lexer := lexer.closeBlocks (some cursor.column)
  match cursor.peek with
  | none => lexer.finish
  | some c => lexer.token c

/-- Takes at most `count` steps to the end of the text. Every step but the last takes a
character. -/
def run : Nat → Lexer → Option (Array Token)
  | 0, _ => none
  | count + 1, lexer =>
      match lexer.step with
      | none => none
      | some lexer => if lexer.finished then some lexer.tokens else run count lexer

end Lexer

/-- The tokens of a text. -/
def tokens? (text : String) : Option (List Token) :=
  let chars := match text.toList with
    | c :: cs => if c = byteOrderMark then cs else c :: cs
    | [] => []
  if chars.all isAllowed then
    let start : Lexer := { cursor := { rest := uniformBreaks chars } }
    (start.run (chars.length + 1)).map Array.toList
  else none

end Yaml

end Switchboard
