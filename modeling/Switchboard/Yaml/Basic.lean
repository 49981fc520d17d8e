/-!
# YAML nodes

What a YAML document says once its layout is gone: scalars with the style in which they were
written, sequences, and mappings whose entries stand in the order of the text, repeated keys
included.
-/

namespace Switchboard

namespace Yaml

/-- How a scalar was written. -/
inductive ScalarStyle where
  | plain
  | quoted
  | literal
  | folded
deriving DecidableEq, Repr

/-- A node of a document. -/
inductive Node where
  /-- A text with its style and, if one was given, its tag. -/
  | scalar (style : ScalarStyle) (tag : Option String) (text : String)
  | sequence (items : List Node)
  | mapping (entries : List (Node × Node))
  /-- A reference to a node that contains it. -/
  | enclosing (anchor : String)
deriving Inhabited

/-- The tag of whole numbers. -/
def intTag : String := "tag:yaml.org,2002:int"

/-- The scalar that stands where nothing was written. -/
def Node.missing : Node := .scalar .plain none ""

end Yaml

end Switchboard
