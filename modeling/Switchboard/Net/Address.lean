/-!
# Socket addresses

IPv4 and IPv6 addresses with a port, and their written form. An IPv6 address is written in
lower-case groups without leading zeros, its first longest run of at least two zero groups as `::`;
an IPv4 address mapped into IPv6 keeps its dotted form behind `::ffff:`. The scope of an IPv6
address is written behind `%` unless it is zero.
-/

namespace Switchboard

/-- An IPv4 address. -/
structure IPv4 where
  a : UInt8
  b : UInt8
  c : UInt8
  d : UInt8
deriving DecidableEq, Repr

/-- An IPv6 address as eight groups of sixteen bits. -/
structure IPv6 where
  s0 : UInt16
  s1 : UInt16
  s2 : UInt16
  s3 : UInt16
  s4 : UInt16
  s5 : UInt16
  s6 : UInt16
  s7 : UInt16
deriving DecidableEq, Repr

/-- An address to listen on or to connect to. -/
inductive SocketAddress where
  | v4 (ip : IPv4) (port : UInt16)
  | v6 (ip : IPv6) (port : UInt16) (scope : UInt32)
deriving DecidableEq, Repr

namespace IPv4

/-- The address of the host itself. -/
def loopback : IPv4 := ⟨127, 0, 0, 1⟩

/-- The characters of a decimal number. -/
def decimal (n : Nat) : List Char := Nat.toDigits 10 n

/-- The dotted form. -/
def chars (ip : IPv4) : List Char :=
  decimal ip.a.toNat ++ '.' :: decimal ip.b.toNat ++ '.' :: decimal ip.c.toNat ++
    '.' :: decimal ip.d.toNat

/-- The two groups that the address fills in an IPv6 address. -/
def groups (ip : IPv4) : List UInt16 :=
  [ip.a.toUInt16 <<< 8 ||| ip.b.toUInt16, ip.c.toUInt16 <<< 8 ||| ip.d.toUInt16]

/-- The address in two groups of an IPv6 address. -/
def ofGroups (high low : UInt16) : IPv4 :=
  ⟨(high >>> 8).toUInt8, high.toUInt8, (low >>> 8).toUInt8, low.toUInt8⟩

end IPv4

namespace IPv6

/-- The groups in order. -/
def groups (ip : IPv6) : List UInt16 :=
  [ip.s0, ip.s1, ip.s2, ip.s3, ip.s4, ip.s5, ip.s6, ip.s7]

/-- The address of eight groups. -/
def ofGroups? : List UInt16 → Option IPv6
  | [s0, s1, s2, s3, s4, s5, s6, s7] => some ⟨s0, s1, s2, s3, s4, s5, s6, s7⟩
  | _ => none

/-- The IPv4 address that is mapped into this one, if there is one. -/
def mapped? (ip : IPv6) : Option IPv4 :=
  if ip.groups.take 6 = [0, 0, 0, 0, 0, 0xFFFF] then some (.ofGroups ip.s6 ip.s7) else none

/-- A run of neighbouring zero groups. -/
structure ZeroRun where
  start : Nat
  length : Nat
deriving DecidableEq, Repr

/-- The first longest run of zero groups, `longest` being the longest before position `i` and
`current` the one that ends there. -/
def longestRunFrom (i : Nat) (longest current : ZeroRun) : List UInt16 → ZeroRun
  | [] => longest
  | g :: rest =>
      if g = 0 then
        let current : ZeroRun :=
          ⟨if current.length = 0 then i else current.start, current.length + 1⟩
        longestRunFrom (i + 1) (if longest.length < current.length then current else longest)
          current rest
      else longestRunFrom (i + 1) longest ⟨0, 0⟩ rest

/-- The first longest run of zero groups. -/
def longestRun (groups : List UInt16) : ZeroRun := longestRunFrom 0 ⟨0, 0⟩ ⟨0, 0⟩ groups

/-- A group in hexadecimal. -/
def groupChars (g : UInt16) : List Char := Nat.toDigits 16 g.toNat

/-- Groups with colons between them. -/
def joinGroups : List UInt16 → List Char
  | [] => []
  | [g] => groupChars g
  | g :: h :: rest => groupChars g ++ ':' :: joinGroups (h :: rest)

/-- The written form of the address alone. -/
def chars (ip : IPv6) : List Char :=
  match ip.mapped? with
  | some v4 => [':', ':', 'f', 'f', 'f', 'f', ':'] ++ v4.chars
  | none =>
      let run := longestRun ip.groups
      if 1 < run.length then
        joinGroups (ip.groups.take run.start) ++ [':', ':'] ++
          joinGroups (ip.groups.drop (run.start + run.length))
      else joinGroups ip.groups

end IPv6

namespace SocketAddress

/-- The characters of the written form. -/
def chars : SocketAddress → List Char
  | v4 ip port => ip.chars ++ ':' :: IPv4.decimal port.toNat
  | v6 ip port scope =>
      '[' :: ip.chars ++ (if scope = 0 then [] else '%' :: IPv4.decimal scope.toNat) ++
        [']', ':'] ++ IPv4.decimal port.toNat

/-- The written form. -/
def render (address : SocketAddress) : String := String.ofList address.chars

end SocketAddress

end Switchboard
