import Switchboard.Digits
import Switchboard.Net.Address

/-!
# Reading socket addresses

`SocketAddress.parse?` takes an IPv4 address and a port, or an IPv6 address in brackets and a port.
A part of an IPv4 address has at most three digits and no leading zero; an IPv6 group has at most
four hexadecimal digits; the last two groups may be an IPv4 address, and `::` stands once for at
least one group of zeros. Each reader takes a text and returns what it read and what is left.
-/

namespace Switchboard

namespace Net

/-- Reads a number of at most `maxDigits` digits that is at most `limit`. A number of more than one
digit may begin with zero only if `leadingZero` says so. -/
def readNumber (base : Nat) (maxDigits : Option Nat) (leadingZero : Bool) (limit : Nat)
    (text : List Char) : Option (Nat × List Char) :=
  let (digits, rest) := Digits.span base text
  let n := Digits.value base digits
  if digits.isEmpty then none
  else if maxDigits.any (· < digits.length) then none
  else if !leadingZero && digits.head? == some 0 && 1 < digits.length then none
  else if limit < n then none
  else some (n, rest)

/-- Reads one given character. -/
def readChar (expected : Char) : List Char → Option (Unit × List Char)
  | c :: cs => if c = expected then some ((), cs) else none
  | [] => none

/-- Reads a separator, except before the first of several parts. -/
def readSeparator (separator : Char) (index : Nat) (text : List Char) : Option (Unit × List Char) :=
  if index = 0 then some ((), text) else readChar separator text

/-- Reads one part of an IPv4 address. -/
def readOctet (text : List Char) : Option (UInt8 × List Char) :=
  (readNumber 10 (some 3) false 255 text).map fun (n, rest) => (n.toUInt8, rest)

/-- Reads an IPv4 address. -/
def readIPv4 (text : List Char) : Option (IPv4 × List Char) := do
  let (a, text) ← readOctet text
  let (_, text) ← readChar '.' text
  let (b, text) ← readOctet text
  let (_, text) ← readChar '.' text
  let (c, text) ← readOctet text
  let (_, text) ← readChar '.' text
  let (d, text) ← readOctet text
  some (⟨a, b, c, d⟩, text)

/-- Reads one group of an IPv6 address. -/
def readGroup (text : List Char) : Option (UInt16 × List Char) :=
  (readNumber 16 (some 4) true 0xFFFF text).map fun (n, rest) => (n.toUInt16, rest)

/-- Groups that have been read: the groups, whether the last two came from an IPv4 address, and the
rest of the text. -/
structure Groups where
  groups : List UInt16
  dotted : Bool
  rest : List Char

/-- Reads up to `room` groups with colons between them, `index` having been read before. An IPv4
address fills two groups and ends them. -/
def readGroups : Nat → Nat → List Char → Groups
  | 0, _, text => ⟨[], false, text⟩
  | room + 1, index, text =>
      let dotted : Option (IPv4 × List Char) :=
        if room = 0 then none
        else (readSeparator ':' index text).bind fun (_, text) => readIPv4 text
      match dotted with
      | some (ip, rest) => ⟨ip.groups, true, rest⟩
      | none =>
          match (readSeparator ':' index text).bind fun (_, text) => readGroup text with
          | some (g, rest) =>
              let more := readGroups room (index + 1) rest
              ⟨g :: more.groups, more.dotted, more.rest⟩
          | none => ⟨[], false, text⟩

/-- Reads an IPv6 address. -/
def readIPv6 (text : List Char) : Option (IPv6 × List Char) :=
  let head := readGroups 8 0 text
  if head.groups.length = 8 then (IPv6.ofGroups? head.groups).map fun ip => (ip, head.rest)
  else if head.dotted then none
  else do
    let (_, text) ← readChar ':' head.rest
    let (_, text) ← readChar ':' text
    let tail := readGroups (7 - head.groups.length) 0 text
    let zeros := List.replicate (8 - head.groups.length - tail.groups.length) 0
    let ip ← IPv6.ofGroups? (head.groups ++ zeros ++ tail.groups)
    some (ip, tail.rest)

/-- Reads a colon and a port. -/
def readPort (text : List Char) : Option (UInt16 × List Char) := do
  let (_, text) ← readChar ':' text
  let (n, text) ← readNumber 10 none true 65535 text
  some (n.toUInt16, text)

/-- Reads the scope of an IPv6 address. -/
def readScope (text : List Char) : Option (UInt32 × List Char) := do
  let (_, text) ← readChar '%' text
  let (n, text) ← readNumber 10 none true 4294967295 text
  some (n.toUInt32, text)

/-- Reads an IPv4 address and a port. -/
def readV4 (text : List Char) : Option (SocketAddress × List Char) := do
  let (ip, text) ← readIPv4 text
  let (port, text) ← readPort text
  some (.v4 ip port, text)

/-- Reads an IPv6 address in brackets and a port. A scope that cannot be read is taken for none, and
then the bracket is missing. -/
def readV6 (text : List Char) : Option (SocketAddress × List Char) := do
  let (_, text) ← readChar '[' text
  let (ip, text) ← readIPv6 text
  let (scope, text) := (readScope text).getD (0, text)
  let (_, text) ← readChar ']' text
  let (port, text) ← readPort text
  some (.v6 ip port scope, text)

end Net

/-- The address that a text spells. -/
def SocketAddress.parse? (text : String) : Option SocketAddress :=
  match (Net.readV4 text.toList).or (Net.readV6 text.toList) with
  | some (address, []) => some address
  | _ => none

end Switchboard
