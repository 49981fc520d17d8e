/-!
# Durations and instants

A length of time in nanoseconds, and a point of time on a clock that starts at zero. The wire
carries timeouts in whole milliseconds.
-/

namespace Switchboard

/-- A length of time. -/
structure Duration where
  nanos : Nat
deriving DecidableEq, Repr, Inhabited

namespace Duration

/-- No time. -/
def zero : Duration := ⟨0⟩

/-- The given number of milliseconds. -/
def ofMillis (ms : Nat) : Duration := ⟨ms * 1000000⟩

/-- The given number of seconds. -/
def ofSecs (s : Nat) : Duration := ⟨s * 1000000000⟩

/-- The whole milliseconds of a duration. -/
def millis (d : Duration) : Nat := d.nanos / 1000000

/-- The whole milliseconds as the wire carries them: the largest 64-bit number if there are more. -/
def wireMillis (d : Duration) : UInt64 := (min d.millis (UInt64.size - 1)).toUInt64

/-- The duration, cut to `limit` if it is longer. -/
def atMost (d limit : Duration) : Duration := if d.nanos ≤ limit.nanos then d else limit

end Duration

/-- A point of time, in nanoseconds from the start of the clock. -/
abbrev Instant := Nat

/-- The instant that lies the given duration behind another. -/
def Instant.after (instant : Instant) (d : Duration) : Instant := instant + d.nanos

end Switchboard
