import TokenBucket.Decimal.Basic

/-!
# A fixed number of significant digits

The general notation with `precision` digits: a double is rounded to that many significant digits, a
half going to the even neighbour, and written positionally as long as its first digit stands no more
than four places behind the point and no farther before it than the precision reaches; otherwise as one
digit, a point, the other digits and an exponent of at least two digits. Zeros at the end of the
fraction, and a point with nothing behind it, are left out in both forms.

## Main definitions

* `Rung.significant`: a finite rung to a number of significant digits.
* `Binary64.generalText`: the text of a double.
-/

namespace TokenBucket

namespace Rung

/-- A positive finite rung rounded to `precision` significant digits. Rounding up may carry into one
more digit, whose last one is then a zero, and dropping it loses nothing. -/
def significant (r : Rung) (precision : Nat) : Decimal :=
  let place := r.decimalExponent - (precision - 1)
  let (numerator, denominator) := r.scaled place
  ⟨quotientHalfEven numerator denominator, place⟩

end Rung

/-- One digit, a point, the other digits, and the exponent of the first digit with its sign and at
least two digits. -/
def Decimal.scientific (d : Decimal) : List Char :=
  let digits := digitsOf d.coefficient
  let first := d.exponent + (digits.length - 1 : Nat)
  let mantissa := match digits with
    | lead :: rest@(_ :: _) => lead :: '.' :: rest
    | _ => digits
  let exponent := digitsOf first.natAbs
  let exponent := if exponent.length < 2 then '0' :: exponent else exponent
  mantissa ++ 'e' :: (if first < 0 then '-' else '+') :: exponent

/-- The text of a double in general notation with `precision` significant digits. Not-a-number has the
minus sign that an undetermined operation gives it. -/
def Binary64.generalText (precision : Nat) : Binary64 → String
  | .nan => "-nan"
  | .number negative rung =>
    let magnitude :=
      if rung.isInfinite then "inf".toList
      else if rung.isZero then ['0']
      else
        let digits := (rung.significant precision).withoutTrailingZeros
        let first := digits.exponent + ((digitsOf digits.coefficient).length - 1 : Nat)
        if -4 ≤ first ∧ first < precision then digits.positional else digits.scientific
    String.ofList (if negative then '-' :: magnitude else magnitude)

end TokenBucket
