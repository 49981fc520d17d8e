import Switchboard.Yaml.Lexer

/-!
# YAML documents

`document?` reads a text that holds at most one document. References are replaced by the nodes they
refer to, and tags are written in full.
-/

namespace Switchboard

namespace Yaml

/-- A node under a name. While the node is being read, it is not known yet. -/
structure Anchor where
  name : String
  serial : Nat
  node : Option Node

/-- What a reader of nodes works on: the tokens to come, the named nodes, the last of them first,
and what the handles of tags stand for. -/
structure Source where
  tokens : List Token
  anchors : List Anchor := []
  handles : List (String × String) := []

/-- A reader of nodes. It fails where the tokens break the grammar. -/
abbrev NodeReader := StateT Source Option

namespace NodeReader

/-- The next token. -/
def peek : NodeReader (Option Token) := do
  return (← get).tokens.head?

/-- Takes the next token. -/
def skip : NodeReader Unit :=
  modify fun source => { source with tokens := source.tokens.drop 1 }

/-- Takes the next token if it is `token`. Returns whether it was. -/
def accept (token : Token) : NodeReader Bool := do
  if (← peek) = some token then
    skip
    return true
  else return false

/-- Takes the next token, which has to be `token`. -/
def expect (token : Token) : NodeReader Unit := do
  unless ← accept token do failure

/-- A tag in full. -/
def fullTag (handle suffix : String) : NodeReader String := do
  if handle.isEmpty then return suffix
  else
    match (← get).handles.lookup handle with
    | some lead => return lead ++ suffix
    | none => failure

/-- The properties that stand before a node, each at most once. -/
structure Properties where
  anchor : Option String := none
  tag : Option String := none

/-- Reads at most `count` properties. -/
def properties : Nat → Properties → NodeReader Properties
  | 0, found => return found
  | count + 1, found => do
      match ← peek, found.anchor, found.tag with
      | some (.anchor name), none, _ =>
          skip
          properties count { found with anchor := some name }
      | some (.tag handle suffix), _, none =>
          skip
          let tag ← fullTag handle suffix
          properties count { found with tag := some tag }
      | _, _, _ => return found

/-- Reads a node under a name. While it is being read, references to it refer to a node around
them. -/
def named (anchor : Option String) (node : NodeReader Node) : NodeReader Node :=
  match anchor with
  | none => node
  | some name => do
      let serial := (← get).anchors.length
      modify fun source => { source with anchors := ⟨name, serial, none⟩ :: source.anchors }
      let node ← node
      modify fun source =>
        { source with
          anchors := source.anchors.map fun entry =>
            if entry.serial = serial then { entry with node := some node } else entry }
      return node

/-- The node that a reference refers to. -/
def resolve (name : String) : NodeReader Node := do
  match (← get).anchors.find? fun entry => entry.name = name with
  | some ⟨_, _, some node⟩ => return node
  | some ⟨_, _, none⟩ => return .enclosing name
  | none => failure

/-- Whether a part of a block ends before the next token. -/
def endsInBlock : Option Token → Bool
  | some .key | some .value | some .blockEntry | some .endBlock => true
  | _ => false

/-- Whether a part of a flow collection ends before the next token. -/
def endsInFlow : Option Token → Bool
  | some .value | some .flowEntry | some .endSequence | some .endMapping => true
  | _ => false

mutual

/-- Reads a node. Where `loose` is set, a sequence may begin without a block of its own. The number
of tokens bounds the depth. -/
def node (loose : Bool) : Nat → NodeReader Node
  | 0 => failure
  | depth + 1 => do
      if let some (.alias name) ← peek then
        skip
        return ← resolve name
      let found ← properties 2 {}
      named found.anchor do
        match ← peek with
        | some (.scalar style text) =>
            skip
            return .scalar style found.tag text
        | some .beginSequence =>
            skip
            return .sequence (← flowItems true depth)
        | some .beginMapping =>
            skip
            return .mapping (← flowEntries true depth)
        | some .beginBlockSequence =>
            skip
            let items ← blockItems depth
            expect .endBlock
            return .sequence items
        | some .beginBlockMapping =>
            skip
            return .mapping (← blockEntries depth)
        | some .blockEntry =>
            if loose then return .sequence (← blockItems depth)
            else if found.anchor.isSome || found.tag.isSome then return .scalar .plain found.tag ""
            else failure
        | _ =>
            if found.anchor.isSome || found.tag.isSome then return .scalar .plain found.tag ""
            else failure

/-- Reads the items of a block sequence, each behind its hyphen. -/
def blockItems : Nat → NodeReader (List Node)
  | 0 => failure
  | depth + 1 => do
      if ← accept .blockEntry then
        let item ← if endsInBlock (← peek) then pure .missing else node false depth
        return item :: (← blockItems depth)
      else return []

/-- Reads a part of a block mapping, or nothing where it is left out. -/
def blockPart : Nat → NodeReader Node
  | 0 => failure
  | depth + 1 => do
      match ← peek with
      | some .key | some .value | some .endBlock => return .missing
      | _ => node true depth

/-- Reads the entries of a block mapping and its end. -/
def blockEntries : Nat → NodeReader (List (Node × Node))
  | 0 => failure
  | depth + 1 => do
      if ← accept .key then
        let key ← blockPart depth
        let value ← if ← accept .value then blockPart depth else pure .missing
        return (key, value) :: (← blockEntries depth)
      else
        expect .endBlock
        return []

/-- Reads a part of a flow collection, or nothing where it is left out. -/
def flowPart : Nat → NodeReader Node
  | 0 => failure
  | depth + 1 => do
      if endsInFlow (← peek) then return .missing else node false depth

/-- Reads the value that may follow a key in a flow collection. -/
def flowValue : Nat → NodeReader Node
  | 0 => failure
  | depth + 1 => do
      if ← accept .value then flowPart depth else return .missing

/-- Reads the items of a flow sequence and its end. An item may be a mapping of a single entry. -/
def flowItems (first : Bool) : Nat → NodeReader (List Node)
  | 0 => failure
  | depth + 1 => do
      if ← accept .endSequence then return []
      else
        unless first do expect .flowEntry
        if ← accept .endSequence then return []
        else
          let item ←
            if ← accept .key then
              let key ← flowPart depth
              let value ← flowValue depth
              pure (.mapping [(key, value)])
            else node false depth
          return item :: (← flowItems false depth)

/-- Reads the entries of a flow mapping and its end. A value may be left out. -/
def flowEntries (first : Bool) : Nat → NodeReader (List (Node × Node))
  | 0 => failure
  | depth + 1 => do
      if ← accept .endMapping then return []
      else
        unless first do expect .flowEntry
        if ← accept .endMapping then return []
        else
          let entry ←
            if ← accept .key then
              let key ← flowPart depth
              let value ← flowValue depth
              pure (key, value)
            else
              let key ← node false depth
              pure (key, Node.missing)
          return entry :: (← flowEntries false depth)

end

/-- What the handles of tags stand for unless a directive says otherwise. -/
def standardHandles : List (String × String) := [("!", "!"), ("!!", "tag:yaml.org,2002:")]

/-- The directives at the start of a document. -/
structure Directives where
  version : Bool := false
  handles : List (String × String) := []

/-- Takes a directive. A version must be 1.1 or 1.2 and is given at most once, as is each handle. -/
def Directives.add? (found : Directives) : Token → Option Directives
  | .version major minor =>
      if found.version || major ≠ 1 || (minor ≠ 1 && minor ≠ 2) then none
      else some { found with version := true }
  | .tagHandle handle lead =>
      if (found.handles.lookup handle).isSome then none
      else some { found with handles := (handle, lead) :: found.handles }
  | _ => none

/-- Whether a token is a directive. -/
def isDirective : Token → Bool
  | .version .. | .tagHandle .. => true
  | _ => false

/-- Reads a document and what ends it. Only a document without directives may leave out the mark of
its start. A document that is marked may be empty. -/
def document (depth : Nat) : NodeReader Node := do
  let directives := (← get).tokens.takeWhile isDirective
  let some found := directives.foldlM Directives.add? {} | failure
  modify fun source =>
    { source with
      tokens := source.tokens.drop directives.length
      handles := found.handles ++ standardHandles }
  let marked ← accept .documentStart
  if !marked && !directives.isEmpty then failure
  else
    match ← peek with
    | none | some .documentStart | some .documentEnd =>
        if marked then return .missing else failure
    | some token =>
        if marked && isDirective token then return .missing
        else node false depth

end NodeReader

/-- The document in a text, or nothing if the text is blank. None if the text is not YAML or holds
more than one document. -/
def document? (text : String) : Option (Option Node) := do
  let tokens ← tokens? text
  if tokens.isEmpty then some none
  else
    let (node, source) ← (NodeReader.document (2 * tokens.length + 2)).run { tokens }
    if source.tokens.all (· = .documentEnd) then some (some node) else none

end Yaml

end Switchboard
