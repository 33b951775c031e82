import TokenBucket.Binary64.Basic

/-!
# Decimals

A decimal `coefficient * 10 ^ exponent` is exact; it becomes a double by rounding once
(`Rung.ofDecimal`, `Binary64.ofDecimal`). The other way, every finite double has an exact decimal
(`Rung.exactDecimal`), since a power of one half is a power of one tenth times a power of five.

## Main definitions

* `Decimal`, `Decimal.positional`: its digits with a point and no exponent.
* `Rung.ofDecimal`, `Binary64.ofDecimal`: the nearest double.
* `Rung.decimalExponent`: the place of the first digit of a double.
-/

namespace TokenBucket

/-- The nonnegative decimal `coefficient * 10 ^ exponent`. -/
structure Decimal where
  /-- The digits, read as one natural number. -/
  coefficient : Nat
  /-- The place of the last digit. -/
  exponent : Int
deriving DecidableEq

/-- The digits of a natural number, the first one first. -/
def digitsOf (n : Nat) : List Char := Nat.toDigits 10 n

namespace Decimal

/-- The same decimal without the zeros at the end of its coefficient. -/
def withoutTrailingZeros (d : Decimal) : Decimal :=
  if h : d.coefficient ≠ 0 ∧ d.coefficient % 10 = 0 then
    withoutTrailingZeros ⟨d.coefficient / 10, d.exponent + 1⟩
  else d
termination_by d.coefficient
decreasing_by omega

/-- Positional notation: all digits, filled up with zeros to the units, and a point before those that
stand behind the units. -/
def positional (d : Decimal) : List Char :=
  let digits := digitsOf d.coefficient
  if 0 ≤ d.exponent then
    if d.coefficient = 0 then digits else digits ++ List.replicate d.exponent.toNat '0'
  else
    let places := (-d.exponent).toNat
    let padded := List.replicate (places + 1 - digits.length) '0' ++ digits
    padded.take (padded.length - places) ++ '.' :: padded.drop (padded.length - places)

end Decimal

namespace Rung

/-- The rung nearest to a decimal. Above `10 ^ 400` everything is infinite and below `10 ^ (-400)`
everything is zero, so an exponent farther out is first brought back to where the digits of the
coefficient still reach those bounds: the nearest rung is the same and the powers stay small. -/
def ofDecimal (d : Decimal) : Rung :=
  let digits : Int := d.coefficient.log2 / 3 + 1
  let exponent := max (-digits - 400) (min d.exponent 400)
  nearest (d.coefficient * Nat.pow 10 exponent.toNat * unitsPerOne) (Nat.pow 10 (-exponent).toNat)

/-- The decimal that is worth exactly as much as a finite rung. -/
def exactDecimal (r : Rung) : Decimal := ⟨r.units * Nat.pow 5 1074, -1074⟩

/-- The place of the first decimal digit of a positive finite rung: the `e` with
`10 ^ e ≤ r < 10 ^ (e + 1)`. It is found as the number of digits that stand before the point once the
point is moved 400 places, which is enough for the least positive double. -/
def decimalExponent (r : Rung) : Int :=
  (digitsOf (r.units * Nat.pow 10 400 / unitsPerOne)).length - 401

/-- A positive finite rung over `10 ^ place`, as a numerator and a denominator. -/
def scaled (r : Rung) (place : Int) : Nat × Nat :=
  (r.units * Nat.pow 10 (-place).toNat, unitsPerOne * Nat.pow 10 place.toNat)

end Rung

/-- The double nearest to a decimal, under the given sign. -/
def Binary64.ofDecimal (negative : Bool) (d : Decimal) : Binary64 :=
  .number negative (.ofDecimal d)

end TokenBucket
