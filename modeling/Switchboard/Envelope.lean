import Switchboard.ErrorCode

/-!
# Envelopes

The envelope of a message says what the message is. Its text is a JSON object whose member `type`
names the kind and whose other members hold the fields of that kind; absent optional fields are left
out. A reader takes the members in any order and passes over members it does not know, but refuses
one that it knows and meets twice. It also takes an array of the kind and the fields in their order.
-/

namespace Switchboard

/-- The number by which a reply is matched to its request. -/
structure RequestId where
  value : UInt64
deriving DecidableEq, Repr, Hashable

namespace RequestId

/-- The number that belongs to no request. -/
def none : RequestId := ⟨0⟩

instance : ToString RequestId := ⟨fun id => toString id.value⟩

end RequestId

/-- What an error reply says. -/
structure ReplyError where
  code : ErrorCode
  message : String
deriving DecidableEq, Repr

/-- What a message is, and the fields that go with it. -/
inductive Envelope where
  /-- A client opens a session and joins a cluster. -/
  | hello (protocolVersion : UInt16) (cluster : String) (clientName : Option String)
  /-- The relay has accepted the session. -/
  | welcome (connectionId : String)
  /-- A request to a cluster; the payload is its body. -/
  | request (id : RequestId) (cluster : String) (timeoutMs : UInt64)
  /-- A reply; the payload is its body. -/
  | reply (id : RequestId)
  /-- A reply that reports an error. -/
  | errorReply (id : RequestId) (error : ReplyError)
  /-- The session ends. -/
  | close (reason : Option String)
deriving DecidableEq, Repr

namespace Envelope

/-- The kind of an envelope, without its fields. -/
inductive Kind where
  | hello
  | welcome
  | request
  | reply
  | errorReply
  | close
deriving DecidableEq, Repr

namespace Kind

/-- All kinds. -/
def all : List Kind := [hello, welcome, request, reply, errorReply, close]

/-- The name of a kind. -/
def name : Kind → String
  | hello => "hello"
  | welcome => "welcome"
  | request => "request"
  | reply => "reply"
  | errorReply => "error_reply"
  | close => "close"

/-- The kind with the given name. -/
def ofName? (name : String) : Option Kind := all.find? fun kind => kind.name = name

/-- The names of the fields of a kind, in their order. -/
def fields : Kind → List String
  | hello => ["protocol_version", "cluster", "client_name"]
  | welcome => ["connection_id"]
  | request => ["id", "cluster", "timeout_ms"]
  | reply => ["id"]
  | errorReply => ["id", "error"]
  | close => ["reason"]

end Kind

/-- The kind of an envelope. -/
def kind : Envelope → Kind
  | hello .. => .hello
  | welcome .. => .welcome
  | request .. => .request
  | reply .. => .reply
  | errorReply .. => .errorReply
  | close .. => .close

/-- The request id, if the envelope carries one. -/
def requestId? : Envelope → Option RequestId
  | request id .. => some id
  | reply id => some id
  | errorReply id .. => some id
  | _ => none

/-! ## Writing -/

/-- A number as a JSON value. -/
def jsonOfNat (n : Nat) : Json := .number (.ofNat n)

/-- An optional text as the members it makes: none when it is absent. -/
def optionalMember (name : String) : Option String → List (String × Json)
  | none => []
  | some s => [(name, .string s)]

/-- The fields of an envelope as members, in their order. -/
def fieldMembers : Envelope → List (String × Json)
  | hello version cluster clientName =>
      ("protocol_version", jsonOfNat version.toNat) :: ("cluster", .string cluster) ::
        optionalMember "client_name" clientName
  | welcome connectionId => [("connection_id", .string connectionId)]
  | request id cluster timeoutMs =>
      [("id", jsonOfNat id.value.toNat), ("cluster", .string cluster),
        ("timeout_ms", jsonOfNat timeoutMs.toNat)]
  | reply id => [("id", jsonOfNat id.value.toNat)]
  | errorReply id error =>
      [("id", jsonOfNat id.value.toNat),
        ("error", .object [("code", error.code.toJson), ("message", .string error.message)])]
  | close reason => optionalMember "reason" reason

/-- An envelope as a JSON value. -/
def toJson (envelope : Envelope) : Json :=
  .object (("type", .string envelope.kind.name) :: envelope.fieldMembers)

/-- The text of an envelope. -/
def text (envelope : Envelope) : String := envelope.toJson.render

/-! ## Reading -/

/-- What was given for one field: nothing, or a value. -/
abbrev Given := Option Json

/-- The values given for the named fields by the members of an object. Refused when a field is given
twice. -/
def givenByMembers? (fields : List String) (members : List (String × Json)) :
    Option (List Given) :=
  fields.mapM fun field =>
    match members.filter fun m => m.1 = field with
    | [] => some none
    | [(_, v)] => some (some v)
    | _ => none

/-- The values given for the named fields by the items of an array, in order. Refused when there are
more items than fields. -/
def givenByItems? : List String → List Json → Option (List Given)
  | [], [] => some []
  | [], _ :: _ => none
  | _ :: fields, [] => (givenByItems? fields []).map (none :: ·)
  | _ :: fields, v :: items => (givenByItems? fields items).map (some v :: ·)

/-- A field that is a text. -/
def readText? : Given → Option String
  | some (.string s) => some s
  | _ => none

/-- A field that is a text, absent or null. -/
def readOptionalText? : Given → Option (Option String)
  | none => some none
  | some .null => some none
  | some (.string s) => some (some s)
  | _ => none

/-- A field that is a 64-bit number. -/
def readUInt64? : Given → Option UInt64
  | some (.number n) => n.toUInt64?
  | _ => none

/-- A field that is a 16-bit number. -/
def readUInt16? (given : Given) : Option UInt16 :=
  (readUInt64? given).bind fun n => if n.toNat < UInt16.size then some n.toNat.toUInt16 else none

/-- A field that is a request id. -/
def readId? (given : Given) : Option RequestId := (readUInt64? given).map RequestId.mk

/-- A field that is an error code. Null and the empty object count as nothing here. -/
def readCode? (given : Given) : Option ErrorCode :=
  given.bind <| ErrorCode.ofJsonWith? fun
    | .null => true
    | .object [] => true
    | _ => false

/-- The error that the values given for its fields make. -/
def errorOfGiven? : List Given → Option ReplyError
  | [code, message] => do
      let code ← readCode? code
      let message ← readText? message
      some ⟨code, message⟩
  | _ => none

/-- A field that is the error of an error reply. -/
def readError? : Given → Option ReplyError
  | some (.object members) =>
      (givenByMembers? ["code", "message"] members).bind errorOfGiven?
  | some (.array items) => (givenByItems? ["code", "message"] items).bind errorOfGiven?
  | _ => none

/-- The envelope of a kind that the values given for its fields make. -/
def ofGiven? : Kind → List Given → Option Envelope
  | .hello, [version, cluster, clientName] => do
      let version ← readUInt16? version
      let cluster ← readText? cluster
      let clientName ← readOptionalText? clientName
      some (.hello version cluster clientName)
  | .welcome, [connectionId] => (readText? connectionId).map .welcome
  | .request, [id, cluster, timeoutMs] => do
      let id ← readId? id
      let cluster ← readText? cluster
      let timeoutMs ← readUInt64? timeoutMs
      some (.request id cluster timeoutMs)
  | .reply, [id] => (readId? id).map .reply
  | .errorReply, [id, error] => do
      let id ← readId? id
      let error ← readError? error
      some (.errorReply id error)
  | .close, [reason] => (readOptionalText? reason).map .close
  | _, _ => none

/-- The kind that a JSON value names. -/
def kindOfJson? : Json → Option Kind
  | .string name => Kind.ofName? name
  | _ => none

/-- The envelope that a JSON value spells. -/
def ofJson? : Json → Option Envelope
  | .object members => do
      let given ← givenByMembers? ["type"] members
      let kind ← (given.headD none).bind kindOfJson?
      let given ← givenByMembers? kind.fields members
      ofGiven? kind given
  | .array (v :: items) => do
      let kind ← kindOfJson? v
      let given ← givenByItems? kind.fields items
      ofGiven? kind given
  | _ => none

/-- The envelope that a header spells. -/
def parse? (header : ByteArray) : Option Envelope := do
  let text ← String.fromUTF8? header
  let json ← Json.parse? text
  ofJson? json

end Envelope

end Switchboard
