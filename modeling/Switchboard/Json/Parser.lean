import Switchboard.Json.Lexer

/-!
# Reading JSON

The parser is a stack machine over tokens: one step per token, the arrays and objects that are open
on its stack. No more than `Json.maxDepth` of them may be open at once. `Json.parse?` reads a whole
text.
-/

namespace Switchboard

namespace Json

/-- How many arrays and objects may be open at once. -/
def maxDepth : Nat := 127

/-- An array or object that is open, with what it holds so far, last first. -/
inductive Open where
  | array (items : List Json)
  | object (members : List (String × Json))
  /-- An object behind a name whose value is to come. -/
  | member (members : List (String × Json)) (name : String)

/-- What may come next. -/
inductive Expected where
  /-- A value. -/
  | value
  /-- A value, or the end of the array that has just been opened. -/
  | firstItem
  /-- A name, or the end of the object that has just been opened. -/
  | firstName
  /-- A name. -/
  | name
  /-- The colon behind a name. -/
  | colon
  /-- A comma, or the end of what is open. -/
  | commaOrEnd
  /-- Nothing: the value is complete. -/
  | done (v : Json)

/-- A parser: what is open, innermost first, and what may come next. -/
structure Parser where
  stack : List Open
  expected : Expected

namespace Parser

/-- The parser before the first token. -/
def start : Parser := ⟨[], .value⟩

/-- Puts a complete value where it belongs. -/
def complete (v : Json) : List Open → Option Parser
  | [] => some ⟨[], .done v⟩
  | .array items :: stack => some ⟨.array (v :: items) :: stack, .commaOrEnd⟩
  | .member members name :: stack => some ⟨.object ((name, v) :: members) :: stack, .commaOrEnd⟩
  | .object _ :: _ => none

/-- Opens an array or object. -/
def opening (stack : List Open) (opened : Open) (expected : Expected) : Option Parser :=
  if stack.length < maxDepth then some ⟨opened :: stack, expected⟩ else none

/-- Reads a token where a value may begin. -/
def stepValue (stack : List Open) : Token → Option Parser
  | .null => complete .null stack
  | .bool b => complete (.bool b) stack
  | .number n => complete (.number n) stack
  | .string s => complete (.string s) stack
  | .beginArray => opening stack (.array []) .firstItem
  | .beginObject => opening stack (.object []) .firstName
  | _ => none

/-- Reads the token that ends the innermost open array or object. -/
def stepEnd : List Open → Token → Option Parser
  | .array items :: stack, .endArray => complete (.array items.reverse) stack
  | .object members :: stack, .endObject => complete (.object members.reverse) stack
  | _, _ => none

/-- Reads a name of the innermost open object. -/
def stepName : List Open → Token → Option Parser
  | .object members :: stack, .string name => some ⟨.member members name :: stack, .colon⟩
  | _, _ => none

/-- Reads one token. -/
def step (parser : Parser) (token : Token) : Option Parser :=
  let stack := parser.stack
  match parser.expected with
  | .value => stepValue stack token
  | .firstItem => if token = .endArray then stepEnd stack token else stepValue stack token
  | .firstName => if token = .endObject then stepEnd stack token else stepName stack token
  | .name => stepName stack token
  | .colon => if token = .colon then some ⟨stack, .value⟩ else none
  | .commaOrEnd =>
      if token = .comma then
        match stack with
        | .array _ :: _ => some ⟨stack, .value⟩
        | .object _ :: _ => some ⟨stack, .name⟩
        | _ => none
      else stepEnd stack token
  | .done _ => none

/-- The value, if the tokens may end here. -/
def finish? (parser : Parser) : Option Json :=
  match parser.expected with
  | .done v => some v
  | _ => none

end Parser

/-- The value that a list of tokens spells. -/
def ofTokens? (tokens : List Token) : Option Json :=
  (tokens.foldlM Parser.step Parser.start).bind Parser.finish?

/-- The value that a text spells. -/
def parse? (text : String) : Option Json := (tokens? text.toList).bind ofTokens?

end Json

end Switchboard
