import TokenBucket.Bucket.Record

/-!
# Draws

A draw asks a bucket for a number of tokens at an instant. It is settled in one step: the bucket is
refilled up to that instant, and if the balance covers the tokens asked for they are taken, otherwise
nothing is. A draw of no tokens only looks at the balance. A bucket without a record is full.

A granted and a denied draw both leave a record, with the balance after the step and the instant of the
draw, so the time before the draw is accounted for in either case; a look leaves everything as it was.

## Main definitions

* `Draw`, `Settlement`, `Draw.settle`.
* `Settlement.record?`: the record that a draw leaves.
-/

namespace TokenBucket

/-- A demand on a bucket. -/
structure Draw where
  /-- Tokens that flow in each second. -/
  rate : Binary64
  /-- The most tokens the bucket holds. -/
  capacity : Int64
  /-- The instant of the whole step. -/
  now : Instant
  /-- Tokens asked for; none to look at the balance only. -/
  requested : Int64
deriving DecidableEq

/-- How a draw was settled, with the balance after it. -/
inductive Settlement where
  /-- No tokens were asked for. -/
  | looked (tokens : Binary64)
  /-- The tokens asked for were taken. -/
  | granted (tokens : Binary64)
  /-- The balance did not cover the tokens asked for. -/
  | denied (tokens : Binary64)
deriving DecidableEq

namespace Settlement

/-- The balance after the step. -/
def tokens : Settlement → Binary64
  | .looked tokens => tokens
  | .granted tokens => tokens
  | .denied tokens => tokens

/-- Whether the demand was met. A look always is. -/
def isGranted : Settlement → Bool
  | .looked _ => true
  | .granted _ => true
  | .denied _ => false

/-- Whether the step has to be written back. -/
def persists : Settlement → Bool
  | .looked _ => false
  | .granted _ => true
  | .denied _ => true

/-- The record left by a step that ended at `now`, if it leaves one. -/
def record? (now : Instant) : Settlement → Option Record
  | .looked _ => none
  | .granted tokens => some ⟨tokens, now⟩
  | .denied tokens => some ⟨tokens, now⟩

end Settlement

namespace Draw

/-- The balance a draw finds: that of the record it meets, or of a fresh one, refilled to its
instant. -/
def available (d : Draw) (held : Option Record) : Binary64 :=
  (held.getD (.fresh d.capacity d.now)).refilled d.rate d.capacity d.now

/-- Settles a draw against the record it meets. -/
def settle (d : Draw) (held : Option Record) : Settlement :=
  let balance := d.available held
  let demand := Binary64.ofInt d.requested.toInt
  if d.requested = 0 then .looked balance
  else if demand ≤ balance then .granted (balance - demand)
  else .denied balance

end Draw

end TokenBucket
