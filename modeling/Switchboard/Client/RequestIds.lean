import Switchboard.Envelope

/-!
# Request numbers

A connection numbers its requests from one upwards. The counter is a 64-bit word that moves on with
every attempt and begins again at zero behind the largest number, which itself is never given.
-/

namespace Switchboard

/-- The source of request numbers. -/
structure RequestIds where
  next : UInt64
deriving DecidableEq, Repr

namespace RequestIds

/-- A source that has given no number. -/
def new : RequestIds := ⟨1⟩

/-- The number that is never given. -/
def exhausted : UInt64 := 0xFFFFFFFFFFFFFFFF

/-- The next number, or none where the counter stands on the one that is never given, and the source
afterwards. -/
def take (ids : RequestIds) : Option RequestId × RequestIds :=
  (if ids.next = exhausted then none else some ⟨ids.next⟩, ⟨ids.next + 1⟩)

/-- The results of `n` attempts. -/
def takeMany : Nat → RequestIds → List (Option RequestId)
  | 0, _ => []
  | n + 1, ids => ids.take.1 :: takeMany n ids.take.2

end RequestIds

end Switchboard
