import Switchboard.Net.AddressReader
import Switchboard.Yaml.Parser

/-!
# Settings

The settings of a relay that a file or the environment gives, each of which may be left out. A file
is a YAML mapping with the sections `network` and `routing`; keys it does not know are passed over,
and a section or a whole file may be empty. A variable of the environment that is not valid text, or
that does not spell a value of its setting, counts as left out.
-/

namespace Switchboard

/-- Settings, each of them given or left out. -/
structure Settings where
  bindAddress : Option SocketAddress := none
  idleTimeoutSecs : Option UInt64 := none
  maxConnections : Option UInt64 := none
  sweepIntervalMs : Option UInt64 := none
  outboundQueue : Option UInt64 := none
deriving DecidableEq, Repr

namespace Settings

/-! ## From a file -/

/-- Whether a text has several digits of which the first is zero. -/
def hasIdleZero (digits : List Char) : Bool :=
  digits.head? == some '0' && 1 < digits.length && digits.all Char.isDigit

/-- The word that an unquoted scalar spells: decimal digits, or digits in base two, eight or sixteen
behind `0b`, `0o` or `0x`, in each case behind at most one plus sign. -/
def scalarWord? (text : List Char) : Option UInt64 :=
  let digits := match text with
    | '+' :: cs => cs
    | cs => cs
  match digits with
  | '0' :: 'x' :: cs => Digits.word? 16 cs
  | '0' :: 'o' :: cs => Digits.word? 8 cs
  | '0' :: 'b' :: cs => Digits.word? 2 cs
  | cs => if hasIdleZero cs then none else Digits.word? 10 cs

/-- The number that a node gives. A quoted text is not a number; a literal block is one if it is
tagged as such. -/
def number? : Yaml.Node → Option UInt64
  | .scalar style tag text =>
      if style = .plain || (style = .literal && tag = some Yaml.intTag) then scalarWord? text.toList
      else none
  | _ => none

/-- The address that a node gives. -/
def address? : Yaml.Node → Option SocketAddress
  | .scalar _ _ text => SocketAddress.parse? text
  | _ => none

/-- The entries of a section with their keys, which have to be texts. Where nothing is written,
there are none. -/
def section? : Yaml.Node → Option (List (String × Yaml.Node))
  | .mapping entries => entries.mapM fun
      | (.scalar _ _ key, value) => some (key, value)
      | _ => none
  | .scalar .plain _ "" => some []
  | _ => none

/-- Reads a value that may be given only once. -/
def once {α : Type} (given : Option α) (read : Option α) : Option (Option α) :=
  if given.isSome then none else read.map some

/-- Adds an entry of the section `network`. -/
def addNetwork (settings : Settings) : String × Yaml.Node → Option Settings
  | ("bind_addr", node) => do
      some { settings with bindAddress := ← once settings.bindAddress (address? node) }
  | ("idle_timeout_secs", node) => do
      some { settings with idleTimeoutSecs := ← once settings.idleTimeoutSecs (number? node) }
  | ("max_connections", node) => do
      some { settings with maxConnections := ← once settings.maxConnections (number? node) }
  | _ => some settings

/-- Adds an entry of the section `routing`. -/
def addRouting (settings : Settings) : String × Yaml.Node → Option Settings
  | ("sweep_interval_ms", node) => do
      some { settings with sweepIntervalMs := ← once settings.sweepIntervalMs (number? node) }
  | ("outbound_queue", node) => do
      some { settings with outboundQueue := ← once settings.outboundQueue (number? node) }
  | _ => some settings

/-- Adds the section with the given key, which may occur only once. A section that refers to the
document around it has the entries of the document. -/
def addSection (entries : List (String × Yaml.Node)) (key : String)
    (add : Settings → String × Yaml.Node → Option Settings) (settings : Settings) :
    Option Settings :=
  match entries.filter fun entry => entry.1 = key with
  | [] => some settings
  | [(_, .enclosing _)] => entries.foldlM add settings
  | [(_, node)] => do (← section? node).foldlM add settings
  | _ => none

/-- The settings in a text. None if it is not YAML or does not have the form of settings. -/
def ofText? (text : String) : Option Settings := do
  let entries ← match ← Yaml.document? text with
    | none => some []
    | some node => section? node
  let settings ← addSection entries "network" addNetwork {}
  addSection entries "routing" addRouting settings

/-! ## From the environment -/

/-- The variables of a process with their values, which need not be text. -/
abbrev Environment := List (String × ByteArray)

/-- The value of a variable that is valid text. -/
def Environment.text? (environment : Environment) (name : String) : Option String :=
  (environment.lookup name).bind String.fromUTF8?

/-- The word that a variable spells: decimal digits behind at most one plus sign. -/
def variableWord? (text : String) : Option UInt64 :=
  match text.toList with
  | '+' :: cs => Digits.word? 10 cs
  | cs => Digits.word? 10 cs

/-- The settings in the environment. -/
def ofEnvironment (environment : Environment) : Settings :=
  let word? (name : String) := (environment.text? name).bind variableWord?
  { bindAddress := (environment.text? "IRIS_BIND").bind SocketAddress.parse?
    idleTimeoutSecs := word? "IRIS_IDLE_TIMEOUT"
    maxConnections := word? "IRIS_MAX_CONNECTIONS"
    sweepIntervalMs := word? "IRIS_ROUTE_SWEEP_MS"
    outboundQueue := word? "IRIS_OUTBOUND_QUEUE" }

end Settings

end Switchboard
