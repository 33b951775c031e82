import TokenBucket.Decimal.Basic

/-!
# Durations

A length of time, counted in nanoseconds. A duration is written in the largest of the units second,
millisecond, microsecond and nanosecond that does not exceed it, with as many places behind the point as
it needs.

## Main definitions

* `Duration`, `Duration.ofSeconds`, `Duration.ofMillis`.
* `Duration.seconds`, `Duration.millis`: whole units, the rest left out.
* `Duration.text`.
-/

namespace TokenBucket

/-- A length of time. -/
structure Duration where
  /-- Its nanoseconds. -/
  nanoseconds : Nat
deriving DecidableEq, Inhabited

namespace Duration

/-- A number of seconds. -/
def ofSeconds (n : Nat) : Duration := ⟨n * 1000000000⟩

/-- A number of milliseconds. -/
def ofMillis (n : Nat) : Duration := ⟨n * 1000000⟩

/-- The whole seconds of a duration. -/
def seconds (d : Duration) : Nat := d.nanoseconds / 1000000000

/-- The whole milliseconds of a duration. -/
def millis (d : Duration) : Nat := d.nanoseconds / 1000000

/-- The nanoseconds beyond the whole seconds. -/
def subsecond (d : Duration) : Nat := d.nanoseconds % 1000000000

instance : LE Duration := ⟨fun a b => a.nanoseconds ≤ b.nanoseconds⟩

instance (a b : Duration) : Decidable (a ≤ b) :=
  inferInstanceAs (Decidable (a.nanoseconds ≤ b.nanoseconds))

/-- The duration in units of `10 ^ places` nanoseconds. -/
private def inUnits (d : Duration) (places : Nat) (unit : String) : String :=
  String.ofList (Decimal.mk d.nanoseconds (-places)).withoutTrailingZeros.positional ++ unit

/-- The text of a duration in the largest unit that does not exceed it. -/
def text (d : Duration) : String :=
  if 1000000000 ≤ d.nanoseconds then d.inUnits 9 "s"
  else if 1000000 ≤ d.nanoseconds then d.inUnits 6 "ms"
  else if 1000 ≤ d.nanoseconds then d.inUnits 3 "µs"
  else d.inUnits 0 "ns"

end Duration

end TokenBucket
