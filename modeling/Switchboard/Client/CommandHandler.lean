import Switchboard.Client.Handler
import Switchboard.Digits
import Switchboard.Text.Lossy

/-!
# Handlers to try things with

A handler that does what its requests say, so that every kind of answer can be had, and one that
gives back what it is given.
-/

namespace Switchboard

namespace CommandHandler

/-- A command, read from the text of a request. -/
inductive Command where
  | fail (text : String)
  | breakOff (text : Option String)
  | capitals (text : String)
  | fill (count : Nat)
  | echo

/-- What stands behind a colon and the given word, if the text begins so. -/
def argument? (text word : String) : Option String :=
  let lead := word ++ ":"
  if text.startsWith lead then some (text.drop lead.length).toString else none

/-- The command in a text. What is no command is to be given back. -/
def Command.ofText (text : String) : Command :=
  if text = "panicstr" then .breakOff (some "static panic")
  else if text = "panicany" then .breakOff none
  else
    let failure := argument? text "fail" <|> argument? text "failstr" <|>
        argument? text "failstring"
    match failure, argument? text "panic", argument? text "upper", argument? text "big" with
    | some why, _, _, _ => .fail why
    | _, some why, _, _ => .breakOff (some why)
    | _, _, some words, _ => .capitals words
    | _, _, _, some count => .fill ((Digits.ofText? 10 count.toList).getD 0)
    | _, _, _, _ => .echo

/-- The byte that fills an answer of a given length. -/
def filler : UInt8 := 'z'.toUInt8

/-- Does what the request says. -/
def obey : Handler := fun payload =>
  match Command.ofText (Text.decodeLossy payload) with
  | .fail text => .failed text
  | .breakOff text => .brokeOff text
  | .capitals text => .answered text.toUpper.toUTF8
  | .fill count => .answered ⟨Array.replicate count filler⟩
  | .echo => .answered payload

/-- Gives back what it is given. -/
def echo : Handler := fun payload => .answered payload

end CommandHandler

end Switchboard
