import Switchboard.Json.Parser
import Switchboard.Json.Printer

/-!
# Error codes

The stable codes that an error reply carries. On the wire a code is its name in capitals; a reader
also takes an object with that name as its only member, whose value stands for nothing.
-/

namespace Switchboard

/-- Why a request, or a session, was refused. -/
inductive ErrorCode where
  /-- The peer speaks another version of the protocol. -/
  | unsupportedProtocol
  /-- The message makes no sense where it stands. -/
  | badRequest
  /-- The serving handler reported a failure. -/
  | handlerFailed
  /-- The serving handler broke off. -/
  | handlerPanicked
  /-- The cluster has no members. -/
  | noMembers
  /-- The serving member went away. -/
  | memberLost
  /-- The relay could not pass the request on. -/
  | internalError
deriving DecidableEq, Repr

namespace ErrorCode

/-- All codes. -/
def all : List ErrorCode :=
  [unsupportedProtocol, badRequest, handlerFailed, handlerPanicked, noMembers, memberLost,
    internalError]

/-- The name of a code. -/
def name : ErrorCode → String
  | unsupportedProtocol => "UNSUPPORTED_PROTOCOL"
  | badRequest => "BAD_REQUEST"
  | handlerFailed => "HANDLER_FAILED"
  | handlerPanicked => "HANDLER_PANICKED"
  | noMembers => "NO_MEMBERS"
  | memberLost => "MEMBER_LOST"
  | internalError => "INTERNAL_ERROR"

/-- The code with the given name. -/
def ofName? (name : String) : Option ErrorCode := all.find? fun code => code.name = name

/-- Whether a request refused with this code may succeed when it is made again. -/
def isRetryable : ErrorCode → Bool
  | noMembers | memberLost | internalError => true
  | _ => false

/-- A code as a JSON value. -/
def toJson (code : ErrorCode) : Json := .string code.name

/-- The code that a JSON value spells: its name, or an object with that name as its only member and
a value that `isUnit` takes for nothing. -/
def ofJsonWith? (isUnit : Json → Bool) : Json → Option ErrorCode
  | .string name => ofName? name
  | .object [(name, v)] => if isUnit v then ofName? name else none
  | _ => none

/-- The code that a JSON text spells. -/
def parse? (text : String) : Option ErrorCode :=
  (Json.parse? text).bind <| ofJsonWith? fun
    | .null => true
    | _ => false

end ErrorCode

end Switchboard
