import Switchboard.Digits

/-!
# JSON values and tokens

The values that an envelope text can spell, and the tokens that such a text consists of. A number is
kept as its digits: what matters about it here is whether it is a whole number that a 64-bit word
holds (`Numeral.toUInt64?`), and whether a double-precision reader would take it at all
(`Numeral.isFinite`).
-/

namespace Switchboard

namespace Json

/-- A number as it is spelled: digits before the point, digits behind it, power of ten. The digits
stand most significant first; no digits behind the point means no point. -/
structure Numeral where
  negative : Bool
  whole : List Nat
  fraction : List Nat
  exponent : Option Int
deriving DecidableEq, Repr

namespace Numeral

/-- The numeral of a natural number. -/
def ofNat (n : Nat) : Numeral :=
  ⟨false, (Nat.toDigits 10 n).map (fun c => c.toNat - '0'.toNat), [], none⟩

/-- The value of a numeral that has neither sign, point nor exponent, if 64 bits hold it. -/
def toUInt64? (numeral : Numeral) : Option UInt64 :=
  if numeral.negative || !numeral.fraction.isEmpty || numeral.exponent.isSome then none
  else
    let n := Digits.value 10 numeral.whole
    if n < UInt64.size then some n.toUInt64 else none

/-- Takes digits into the significand `s` for as long as 64 bits hold it. Returns the significand
and the digits left over. -/
def significand (s : Nat) : List Nat → Nat × List Nat
  | [] => (s, [])
  | d :: ds => if 10 * s + d < UInt64.size then significand (10 * s + d) ds else (s, d :: ds)

/-- `n` with all but its first 53 bits rounded away, a half to the even neighbour. -/
def roundTo53 (n : Nat) : Nat :=
  if n < Nat.pow 2 53 then n
  else
    let unit := Nat.pow 2 (Nat.log2 n - 52)
    let q := n / unit
    let r := n % unit
    if 2 * r < unit then q * unit
    else if unit < 2 * r then (q + 1) * unit
    else (q + q % 2) * unit

/-- From this number on, rounding to double precision overflows: half a unit of the last place
above the largest finite value. -/
def overflowBound : Nat := (Nat.pow 2 54 - 1) * Nat.pow 2 970

/-- Whether the numeral is within the range of double precision. A whole number with neither point
nor exponent that 64 bits hold is always within. Otherwise significand and power of ten are rounded
first and then multiplied. -/
def isFinite (numeral : Numeral) : Bool :=
  let (s, wholeLeft) := significand 0 numeral.whole
  let (s, fractionLeft) := significand s numeral.fraction
  let scale : Int := wholeLeft.length - (numeral.fraction.length - fractionLeft.length : Nat) +
    numeral.exponent.getD 0
  if s = 0 || scale ≤ 0 then true
  else if 308 < scale then false
  else roundTo53 s * roundTo53 (Nat.pow 10 scale.toNat) < overflowBound

end Numeral

/-- The smallest parts of a JSON text. -/
inductive Token where
  | beginObject
  | endObject
  | beginArray
  | endArray
  | comma
  | colon
  | null
  | bool (b : Bool)
  | number (n : Numeral)
  | string (s : String)
deriving DecidableEq, Repr

end Json

/-- A JSON value. The members of an object stand in the order of the text, repeated names
included. -/
inductive Json where
  | null
  | bool (b : Bool)
  | number (n : Json.Numeral)
  | string (s : String)
  | array (items : List Json)
  | object (members : List (String × Json))
deriving Repr, Inhabited

end Switchboard
