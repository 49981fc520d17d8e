/-!
# Byte strings

Byte strings are compared as a whole. Every type of this library that holds one decides its equality
by the comparison named here.
-/

namespace Switchboard

/-- Two byte strings are equal when they hold the same bytes in the same order. -/
instance decidableEqBytes : DecidableEq ByteArray := ByteArray.decEq

end Switchboard
