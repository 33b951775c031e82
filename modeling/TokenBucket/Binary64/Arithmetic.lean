import TokenBucket.Binary64.Basic

/-!
# Arithmetic on doubles

Each operation takes its operands at their exact worth, forms the exact result as a quotient of
natural numbers of units, and rounds it once to the nearest double. Infinities and not-a-number follow
the usual tables: an undetermined result (`∞ - ∞`, `0 * ∞`, `0 / 0`, `∞ / ∞`) is not a number.

## Main definitions

* Addition, negation, subtraction, multiplication and division of `Binary64`.
* `Binary64.capped`: the lesser of a number and a bound, where not-a-number counts as unbounded.
-/

namespace TokenBucket

namespace Binary64

/-- The sum. An exact sum of zero is positive unless both operands are negative. -/
def add : Binary64 → Binary64 → Binary64
  | .nan, _ => .nan
  | .number _ _, .nan => .nan
  | .number s r, .number t q =>
    if r.isInfinite then
      if q.isInfinite && s != t then .nan else .number s r
    else if q.isInfinite then .number t q
    else
      let total := (Binary64.number s r).units + (Binary64.number t q).units
      if total = 0 then .number (s && t) .zero
      else ofQuotient (total < 0) total.natAbs 1

/-- The number of the other sign. -/
def neg : Binary64 → Binary64
  | .nan => .nan
  | .number s r => .number (!s) r

/-- The difference. -/
def sub (x y : Binary64) : Binary64 := add x (neg y)

/-- The product. -/
def mul : Binary64 → Binary64 → Binary64
  | .nan, _ => .nan
  | .number _ _, .nan => .nan
  | .number s r, .number t q =>
    if r.isInfinite || q.isInfinite then
      if r.isZero || q.isZero then .nan else infinity (s != t)
    else ofQuotient (s != t) (r.units * q.units) Rung.unitsPerOne

/-- The quotient. -/
def div : Binary64 → Binary64 → Binary64
  | .nan, _ => .nan
  | .number _ _, .nan => .nan
  | .number s r, .number t q =>
    if r.isInfinite then
      if q.isInfinite then .nan else infinity (s != t)
    else if q.isInfinite then .number (s != t) .zero
    else if q.isZero then
      if r.isZero then .nan else infinity (s != t)
    else ofQuotient (s != t) (r.units * Rung.unitsPerOne) q.units

instance : Add Binary64 := ⟨add⟩

instance : Neg Binary64 := ⟨neg⟩

instance : Sub Binary64 := ⟨sub⟩

instance : Mul Binary64 := ⟨mul⟩

instance : Div Binary64 := ⟨div⟩

/-- The lesser of `x` and `bound`. Where one of them is not a number the other is the answer, and of
two equal ones `x` is. -/
def capped (x bound : Binary64) : Binary64 :=
  if x.isNaN then bound else if bound < x then bound else x

end Binary64

end TokenBucket
