/-!
# Digits

The values of digits in bases up to sixteen, and the numbers that runs of digits spell.
-/

namespace Switchboard

namespace Digits

/-- The value of a character as a digit. Letters of either case count from ten. -/
def ofChar? (base : Nat) (c : Char) : Option Nat :=
  let value? :=
    if '0' ≤ c && c ≤ '9' then some (c.toNat - '0'.toNat)
    else if 'a' ≤ c && c ≤ 'f' then some (c.toNat - 'a'.toNat + 10)
    else if 'A' ≤ c && c ≤ 'F' then some (c.toNat - 'A'.toNat + 10)
    else none
  value?.filter (· < base)

/-- The digits at the start of a text and what follows them. -/
def span (base : Nat) : List Char → List Nat × List Char
  | [] => ([], [])
  | c :: cs =>
      match ofChar? base c with
      | some d => let (ds, rest) := span base cs; (d :: ds, rest)
      | none => ([], c :: cs)

/-- The number that digits stand for, the first of them the most significant. -/
def value (base : Nat) (digits : List Nat) : Nat := digits.foldl (fun n d => base * n + d) 0

/-- The number that a text spells which consists of digits alone, at least one. -/
def ofText? (base : Nat) (text : List Char) : Option Nat :=
  match span base text with
  | ([], _) => none
  | (digits, []) => some (value base digits)
  | _ => none

/-- A 64-bit word spelled by digits alone. -/
def word? (base : Nat) (text : List Char) : Option UInt64 :=
  ((ofText? base text).filter (· < UInt64.size)).map Nat.toUInt64

end Digits

end Switchboard
