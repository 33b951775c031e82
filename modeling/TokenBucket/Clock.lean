import TokenBucket.Duration

/-!
# Clocks

Instants are counted in milliseconds from a common origin, in 64 bits. A clock that is moved by hand can
be set to any instant, or advanced by the whole milliseconds of a duration, at most as many as the
largest instant; a sum beyond the range comes round at the other end.

## Main definitions

* `Instant`, `Instant.advance`, `Instant.after`.
-/

namespace TokenBucket

/-- A reading of a clock, in milliseconds. -/
abbrev Instant := Int64

namespace Instant

/-- The latest instant. -/
def latest : Instant := Int64.maxValue

/-- The milliseconds from the common origin to the latest instant. -/
def latestMillis : Nat := 0x7FFFFFFFFFFFFFFF

/-- What a clock shows once it has been advanced by a duration. -/
def advance (now : Instant) (step : Duration) : Instant :=
  now + Int64.ofNat (min step.millis latestMillis)

/-- The instant a number of milliseconds later, or the latest one if that lies beyond it. -/
def after (now : Instant) (millis : Nat) : Instant :=
  if now.toInt + millis ≤ latestMillis then Int64.ofInt (now.toInt + millis) else latest

end Instant

end TokenBucket
