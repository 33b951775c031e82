import TokenBucket.Binary64.Arithmetic
import TokenBucket.Clock

/-!
# Records

What is remembered of a bucket: its balance, and the instant at which that balance was computed. Nothing
happens to a bucket between two calls; the tokens that flowed in meanwhile are worked out when the next
call arrives (`Record.refilled`), from the time that has passed, and never beyond the capacity. A clock
that went backwards adds nothing.

## Main definitions

* `Record`, `Record.fresh`, `Record.refilled`.
-/

namespace TokenBucket

/-- The remembered state of one bucket. -/
structure Record where
  /-- The balance, possibly fractional. -/
  tokens : Binary64
  /-- The instant at which the balance was computed. -/
  refilledAt : Instant
deriving DecidableEq

namespace Record

/-- The full bucket met at the first use of a key. -/
def fresh (capacity : Int64) (now : Instant) : Record := ⟨.ofInt capacity.toInt, now⟩

/-- The milliseconds from the record's instant to `now`; none if the clock went backwards. The difference
is that of integers; instants whose difference 64 bits do not hold are outside of what is described here. -/
def elapsedMillis (r : Record) (now : Instant) : Int := max (now.toInt - r.refilledAt.toInt) 0

/-- The balance at `now`: what the record holds and what flowed in since, up to the capacity. -/
def refilled (r : Record) (rate : Binary64) (capacity : Int64) (now : Instant) : Binary64 :=
  let seconds := Binary64.ofInt (r.elapsedMillis now) / Binary64.ofInt 1000
  (r.tokens + seconds * rate).capped (.ofInt capacity.toInt)

end Record

end TokenBucket
