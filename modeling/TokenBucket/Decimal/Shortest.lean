import TokenBucket.Decimal.Basic

/-!
# The fewest digits that read back

A finite double is written with the fewest significant digits that round back to it, and of the
decimals with that many digits the one nearest to it; of two equally near ones the larger is taken.
The digits are set in positional notation, whatever their number: no exponent, and no point without
digits behind it.

Only two decimals of a given length can be meant, the one next below the double and the one next above
it: if any decimal of that length rounds to the double, so does one of these two, because the decimals
that round to it form an interval around it. `Rung.readBack` finds which of the two do, and
`Rung.shortest` takes the first length at which there is one.

## Main definitions

* `Rung.shortest`: the decimal written for a finite rung.
* `Binary64.shortestText`: the text of a double.

## Main results

* `Rung.ofDecimal_of_readBack`: whatever `Rung.readBack` returns rounds back to the rung.
-/

namespace TokenBucket

namespace Rung

/-- The decimal with last digit at `place` that rounds back to `r`, if there is one. Where the
neighbours below and above both do, the nearer one is taken, and the upper one if they are equally
near. -/
def readBack (r : Rung) (place : Int) : Option Decimal :=
  let (numerator, denominator) := r.scaled place
  let below : Decimal := ⟨numerator / denominator, place⟩
  let above : Decimal := ⟨numerator / denominator + 1, place⟩
  if ofDecimal below = r then
    if ofDecimal above = r ∧ denominator ≤ 2 * (numerator % denominator) then some above
    else some below
  else if ofDecimal above = r then some above
  else none

/-- The shortest decimal that rounds back to a finite rung. Seventeen digits are always enough; the
exact decimal stands behind the search so that the result reads back on the face of it. -/
def shortest (r : Rung) : Decimal :=
  if r.isZero then ⟨0, 0⟩
  else
    let first := r.decimalExponent
    ((List.range 17).findSome? fun (more : Nat) => r.readBack (first - more)).getD r.exactDecimal
      |>.withoutTrailingZeros

/-- What `readBack` returns rounds back to the rung. -/
theorem ofDecimal_of_readBack {r : Rung} {place : Int} {d : Decimal}
    (h : r.readBack place = some d) : ofDecimal d = r := by
  simp only [readBack] at h
  split at h
  · split at h
    · next hAbove => cases h; exact hAbove.1
    · next hBelow _ => cases h; exact hBelow
  · split at h
    · next hAbove => cases h; exact hAbove
    · cases h

end Rung

/-- The text of a double: the fewest digits that read back, in positional notation. Zero keeps its
sign, infinities are `inf` and `-inf`, and not-a-number is `NaN`. -/
def Binary64.shortestText : Binary64 → String
  | .nan => "NaN"
  | .number negative rung =>
    let magnitude := if rung.isInfinite then "inf".toList else rung.shortest.positional
    String.ofList (if negative then '-' :: magnitude else magnitude)

end TokenBucket
