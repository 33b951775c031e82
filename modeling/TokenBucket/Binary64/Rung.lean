/-!
# The ladder of nonnegative doubles

The nonnegative binary64 numbers, infinity included, form one increasing ladder: rung `0` is zero,
rung `1` the least positive double `2 ^ (-1074)`, and the last rung is infinity. The index of a rung
is the bit pattern of the number without its sign, so moving one rung up is adding one to the bits.

Every finite double is a whole multiple of the least positive one. Magnitudes are therefore measured
in that unit, as natural numbers (`Rung.units`), and no fraction occurs before a result is rounded.
The formula of a finite rung, read at the last rung, gives `2 ^ 1024`: the place from which, by the
same rule of halves, everything above rounds to infinity. So one definition of rounding,
`Rung.nearest`, serves subnormal, normal and overflowing results alike.

## Main definitions

* `Rung`: a place on the ladder; `Rung.units`: what it is worth.
* `quotientHalfEven`: a quotient of natural numbers rounded to nearest, a half going to the even
  neighbour.
* `Rung.nearest`: the rung nearest to a quotient of natural numbers of units.
-/

namespace TokenBucket

/-- The quotient `numerator / denominator` rounded to the nearest natural number; of two equally near
ones the even one is taken. -/
def quotientHalfEven (numerator denominator : Nat) : Nat :=
  let floor := numerator / denominator
  let rest := numerator % denominator
  if 2 * rest < denominator then floor
  else if denominator < 2 * rest then floor + 1
  else floor + floor % 2

/-- A nonnegative binary64 number by its place on the ladder. -/
structure Rung where
  /-- How many rungs lie below, which is also the bit pattern without its sign. -/
  index : Nat
  /-- No rung lies above infinity. -/
  index_le : index ≤ 0x7FF0000000000000
deriving DecidableEq

namespace Rung

/-- How many least positive doubles make up one: `1 = 2 ^ 1074` units. -/
def unitsPerOne : Nat := Nat.pow 2 1074

/-- The number of rungs between two powers of two: `2 ^ 52`. -/
def block : Nat := 0x10000000000000

/-- The rung of zero. -/
def zero : Rung := ⟨0, by decide⟩

/-- The rung of infinity. -/
def infinity : Rung := ⟨0x7FF0000000000000, by decide⟩

/-- Whether this is the last rung. -/
def isInfinite (r : Rung) : Bool := r.index == 0x7FF0000000000000

/-- Whether this is the first rung. -/
def isZero (r : Rung) : Bool := r.index == 0

/-- The worth of a rung in least positive doubles. The first `2 ^ 52` rungs are one unit apart; from
there on each block of `2 ^ 52` rungs starts at a power of two and has twice the spacing of the block
before it. -/
def units (r : Rung) : Nat :=
  if r.index < block then r.index
  else (block + r.index % block) * Nat.pow 2 (r.index / block - 1)

/-- The rung nearest to `numerator / denominator` units. With `2 ^ (52 + shift)` the greatest power of
two not above the quotient, rungs there are `2 ^ shift` apart, and the quotient rounded to a multiple of
that spacing counts the rungs inside its block. What comes out past the last rung is infinity. -/
def nearest (numerator denominator : Nat) : Rung :=
  let shift := (numerator / denominator).log2 - 52
  let index := shift * block + quotientHalfEven numerator (denominator * Nat.pow 2 shift)
  ⟨min index 0x7FF0000000000000, Nat.min_le_right _ _⟩

end Rung

end TokenBucket
