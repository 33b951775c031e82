import TokenBucket.Binary64.Rung

/-!
# Binary64 numbers

A double is either *not a number* or a sign and a rung of the ladder of nonnegative doubles. Zero has
two signs and all patterns of not-a-number are one value. A number is compared by its worth in least
positive doubles (`Binary64.units`), an integer; the order so defined puts the two zeros together and
leaves not-a-number unrelated to everything, itself included.

## Main definitions

* `Binary64`, `Binary64.ofBits`, `Binary64.toBits`.
* `Binary64.units`: the worth of a number, so that `x ≤ y` is `x.units ≤ y.units`.
* `Binary64.ofQuotient`, `Binary64.ofInt`: exact values rounded once.
* `Binary64.truncate`, `Binary64.roundAway`: whole numbers near a double.
-/

namespace TokenBucket

/-- A double precision number. -/
inductive Binary64 where
  /-- Not a number. -/
  | nan
  /-- A signed rung, infinities and both zeros included. -/
  | number (negative : Bool) (rung : Rung)
deriving DecidableEq

namespace Binary64

/-- Positive zero. -/
def zero : Binary64 := .number false .zero

/-- An infinity of the given sign. -/
def infinity (negative : Bool) : Binary64 := .number negative .infinity

/-- Whether `x` is not a number. -/
def isNaN : Binary64 → Bool
  | .nan => true
  | .number .. => false

/-- Whether `x` is neither an infinity nor not-a-number. -/
def isFinite : Binary64 → Bool
  | .nan => false
  | .number _ rung => !rung.isInfinite

/-- The worth of a number in least positive doubles. -/
def units : Binary64 → Int
  | .nan => 0
  | .number false rung => rung.units
  | .number true rung => -rung.units

/-- The worth of the sign bit, the first of the 64. -/
def signBit : Nat := 0x8000000000000000

/-- The number with the given 64 bits: the sign first, then the index of the rung. Patterns above
that of infinity are not numbers. -/
def ofBits (bits : UInt64) : Binary64 :=
  let index := bits.toNat % signBit
  if h : index ≤ 0x7FF0000000000000 then .number (signBit ≤ bits.toNat) ⟨index, h⟩ else .nan

/-- The 64 bits of a number. Not-a-number is given the usual quiet pattern. -/
def toBits : Binary64 → UInt64
  | .nan => 0x7FF8000000000000
  | .number negative rung => UInt64.ofNat ((if negative then signBit else 0) + rung.index)

/-- The numeric order: both sides are numbers and the left one is worth no more. -/
instance : LE Binary64 where
  le x y := x.isNaN = false ∧ y.isNaN = false ∧ x.units ≤ y.units

/-- The strict numeric order. -/
instance : LT Binary64 where
  lt x y := x.isNaN = false ∧ y.isNaN = false ∧ x.units < y.units

instance (x y : Binary64) : Decidable (x ≤ y) :=
  inferInstanceAs (Decidable (_ ∧ _ ∧ _))

instance (x y : Binary64) : Decidable (x < y) :=
  inferInstanceAs (Decidable (_ ∧ _ ∧ _))

/-- A magnitude of `numerator / denominator` units under the given sign, rounded to the nearest
number. -/
def ofQuotient (negative : Bool) (numerator denominator : Nat) : Binary64 :=
  .number negative (.nearest numerator denominator)

/-- The number nearest to an integer. -/
def ofInt (n : Int) : Binary64 :=
  ofQuotient (n < 0) (n.natAbs * Rung.unitsPerOne) 1

/-- The whole number next to `x` on the side of zero. An infinity gives `± 2 ^ 1024`, and
not-a-number gives zero. -/
def truncate : Binary64 → Int
  | .nan => 0
  | .number false rung => (rung.units / Rung.unitsPerOne : Nat)
  | .number true rung => -(rung.units / Rung.unitsPerOne : Nat)

/-- The whole number nearest to `x`, a half going away from zero. An infinity gives `± 2 ^ 1024`, and
not-a-number gives zero. -/
def roundAway : Binary64 → Int
  | .nan => 0
  | .number negative rung =>
    let nearest : Nat := (2 * rung.units + Rung.unitsPerOne) / (2 * Rung.unitsPerOne)
    if negative then -nearest else nearest

end Binary64

/-- The 64-bit integer nearest to `n`: `n` itself inside the range, the near end of the range
outside. -/
def saturateInt64 (n : Int) : Int64 :=
  Int64.ofInt (max Int64.minValue.toInt (min n Int64.maxValue.toInt))

/-- The unsigned 64-bit integer nearest to `n`. -/
def saturateUInt64 (n : Int) : UInt64 :=
  UInt64.ofNat (min n.toNat (UInt64.size - 1))

end TokenBucket
