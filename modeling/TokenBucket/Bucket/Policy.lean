import TokenBucket.Failure

/-!
# Policies

The parameters of a token bucket: how many tokens flow in each second, how many the bucket holds, and
after which time without use its record may be forgotten. A `Policy` is valid by construction; raw
parameters become one through `Policy.ofParameters`, which names the first parameter it refuses.

## Main definitions

* `Policy`, `Policy.ofParameters`, `Policy.standard`.
* `Policy.idleMillis`: the idle expiration as stores are told it.
-/

namespace TokenBucket

/-- The longest idle expiration, one year. -/
def longestIdle : Duration := .ofSeconds (365 * 24 * 3600)

/-- The parameters of a bucket. -/
structure Policy where
  /-- Tokens that flow in each second. -/
  rate : Binary64
  /-- The most tokens the bucket holds. -/
  capacity : Int64
  /-- After how long without use the record may be forgotten. -/
  idle : Duration
  /-- The rate is a finite number. -/
  rate_finite : rate.isFinite = true
  /-- The rate is positive. -/
  rate_pos : Binary64.zero < rate
  /-- The bucket holds at least one token. -/
  one_le_capacity : 1 ≤ capacity
  /-- The idle expiration is at least one millisecond. -/
  one_le_millis : 1 ≤ idle.millis
  /-- The idle expiration is at most one year. -/
  idle_le : idle ≤ longestIdle

namespace Policy

/-- The policy with the given parameters, unless one of them is refused. -/
def ofParameters (rate : Binary64) (capacity : Int64) (idle : Duration) : Except Failure Policy :=
  if rate_valid : rate.isFinite = true ∧ Binary64.zero < rate then
    if one_le_capacity : 1 ≤ capacity then
      if one_le_millis : 1 ≤ idle.millis then
        if idle_le : idle ≤ longestIdle then
          .ok ⟨rate, capacity, idle, rate_valid.1, rate_valid.2, one_le_capacity, one_le_millis,
            idle_le⟩
        else .error (.invalidArgument (.idleTooLong longestIdle idle))
      else .error (.invalidArgument .idleTooShort)
    else .error (.invalidArgument (.capacityTooSmall capacity))
  else .error (.invalidArgument (.rateNotPositive rate))

/-- The usual rate: ten tokens a second. -/
def standardRate : Binary64 := .ofInt 10

/-- The usual capacity. -/
def standardCapacity : Int64 := 20

/-- The usual idle expiration: one hour. -/
def standardIdle : Duration := .ofSeconds 3600

/-- The usual policy. -/
def standard : Policy where
  rate := standardRate
  capacity := standardCapacity
  idle := standardIdle
  rate_finite := by decide +kernel
  rate_pos := by decide +kernel
  one_le_capacity := by decide
  one_le_millis := by decide
  idle_le := by decide

/-- The idle expiration in whole milliseconds. A year has few enough of them for 64 bits. -/
def idleMillis (p : Policy) : UInt64 := UInt64.ofNat p.idle.millis

/-- No millisecond is lost when the idle expiration is told to a store. -/
theorem toNat_idleMillis (p : Policy) : p.idleMillis.toNat = p.idle.millis := by
  have h : p.idle.nanoseconds ≤ 365 * 24 * 3600 * 1000000000 := p.idle_le
  unfold idleMillis Duration.millis
  rw [UInt64.toNat_ofNat']
  omega

end Policy

end TokenBucket
