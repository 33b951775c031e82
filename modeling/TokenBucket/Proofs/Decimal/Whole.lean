import TokenBucket.Decimal.Significant
import TokenBucket.Proofs.Binary64.Nonnegative
import TokenBucket.Proofs.Decimal.Notation

/-!
# Natural numbers in general notation

The general notation rounds a double to a fixed number of significant digits. A natural number that has no
more digits than that, and at most 53 bits, is not rounded at all: it is filled up with zeros, which are
left out again, and since its first digit stands neither behind the point nor too far before it, what is
written are its own digits (`Binary64.generalText_natCast`).

## Main results

* `digitsOf_mul_ten_pow`.
* `Decimal.withoutTrailingZeros_mul_ten_pow`, `Decimal.positional_withoutTrailingZeros`.
* `Rung.decimalExponent_whole`, `Rung.significant_whole`.
* `Binary64.generalText_natCast`.
-/

namespace TokenBucket

/-! ### Final zeros -/

theorem digitsOf_mul_ten {n : ℕ} (h : 0 < n) : digitsOf (n * 10) = digitsOf n ++ ['0'] := by
  rw [digitsOf, Nat.mul_comm, ← Nat.add_zero (10 * n),
    ← Nat.toDigits_append_toDigits (by norm_num) h (by norm_num)]
  rfl

theorem digitsOf_mul_ten_pow {n : ℕ} (h : 0 < n) (k : ℕ) :
    digitsOf (n * 10 ^ k) = digitsOf n ++ List.replicate k '0' := by
  induction k with
  | zero => simp
  | succ k ih =>
    have hpos : 0 < n * 10 ^ k := Nat.mul_pos h (Nat.pow_pos (by norm_num))
    rw [pow_succ, ← Nat.mul_assoc, digitsOf_mul_ten hpos, ih, List.append_assoc,
      ← List.replicate_succ']

namespace Decimal

/-- Zeros at the end of a coefficient may as well be counted in the exponent. -/
theorem withoutTrailingZeros_mul_ten_pow {n : ℕ} (h : 0 < n) (k : ℕ) (e : ℤ) :
    withoutTrailingZeros ⟨n * 10 ^ k, e⟩ = withoutTrailingZeros ⟨n, e + k⟩ := by
  induction k generalizing e with
  | zero => simp
  | succ k ih =>
    have hpos : 0 < n * 10 ^ k := Nat.mul_pos h (Nat.pow_pos (by norm_num))
    have hten : n * 10 ^ (k + 1) = n * 10 ^ k * 10 := by rw [pow_succ, Nat.mul_assoc]
    rw [hten, withoutTrailingZeros, dif_pos ⟨(Nat.mul_pos hpos (by norm_num)).ne', Nat.mul_mod_left _ _⟩]
    rw [Nat.mul_div_cancel _ (by norm_num), ih]
    congr 2
    push_cast
    ring

variable {d : Decimal}

/-- A decimal without places behind the point is written with its digits and as many zeros as its
exponent says. -/
theorem positional_of_nonneg (hexponent : 0 ≤ d.exponent) (hne : d.coefficient ≠ 0) :
    d.positional = digitsOf d.coefficient ++ List.replicate d.exponent.toNat '0' := by
  simp only [positional, if_pos hexponent, if_neg hne]

/-- The digits of a coefficient that ends in a zero. -/
theorem digitsOf_coefficient (hne : d.coefficient ≠ 0) (hten : d.coefficient % 10 = 0) :
    d.coefficient / 10 ≠ 0 ∧ digitsOf d.coefficient = digitsOf (d.coefficient / 10) ++ ['0'] := by
  have hpos : 0 < d.coefficient / 10 := by omega
  refine ⟨hpos.ne', ?_⟩
  rw [← digitsOf_mul_ten hpos, Nat.div_mul_cancel (Nat.dvd_of_mod_eq_zero hten)]

/-- A decimal without places behind the point is written alike with its final zeros and without. -/
theorem positional_withoutTrailingZeros (hexponent : 0 ≤ d.exponent) (hne : d.coefficient ≠ 0) :
    d.withoutTrailingZeros.positional = d.positional := by
  induction d using withoutTrailingZeros.induct with
  | case1 d h ih =>
    obtain ⟨hne', hdigits⟩ := digitsOf_coefficient h.1 h.2
    have hexponent' : 0 ≤ d.exponent + 1 := by omega
    have hsucc : (d.exponent + 1).toNat = d.exponent.toNat + 1 := by omega
    rw [withoutTrailingZeros, dif_pos h, ih hexponent' hne', positional_of_nonneg hexponent' hne',
      positional_of_nonneg hexponent hne, hdigits, hsucc, List.replicate_succ, List.append_assoc]
    rfl
  | case2 d h => rw [withoutTrailingZeros, dif_neg h]

/-- Leaving out final zeros does not move the first digit. -/
theorem exponent_add_length_withoutTrailingZeros (hne : d.coefficient ≠ 0) :
    d.withoutTrailingZeros.exponent + (digitsOf d.withoutTrailingZeros.coefficient).length =
      d.exponent + (digitsOf d.coefficient).length := by
  induction d using withoutTrailingZeros.induct with
  | case1 d h ih =>
    obtain ⟨hne', hdigits⟩ := digitsOf_coefficient h.1 h.2
    rw [withoutTrailingZeros, dif_pos h, ih hne', hdigits, List.length_append, List.length_singleton]
    push_cast
    ring
  | case2 d h => rw [withoutTrailingZeros, dif_neg h]

end Decimal

/-! ### Rounding to significant digits -/

namespace Rung

variable {n : ℕ}

/-- The first digit of a natural number of at most 53 bits is found where it stands. -/
theorem decimalExponent_whole (hpos : 0 < n) (h : n ≤ 2 * block) :
    (whole n).decimalExponent = (digitsOf n).length - 1 := by
  have hquotient (c : ℕ) : n * unitsPerOne * c / unitsPerOne = n * c := by
    rw [Nat.mul_right_comm, Nat.mul_div_cancel _ unitsPerOne_pos]
  -- the power is named, so that nothing evaluates it
  obtain ⟨k, hk⟩ : ∃ k, k = 400 := ⟨_, rfl⟩
  rw [decimalExponent, units_whole h, hquotient, ← hk, Nat.pow_eq, digitsOf_mul_ten_pow hpos,
    List.length_append, List.length_replicate, hk]
  push_cast
  ring

/-- To at least as many significant digits as it has, a natural number of at most 53 bits is filled up
with zeros behind the point. -/
theorem significant_whole (hpos : 0 < n) (h : n ≤ 2 * block) {more : ℕ} :
    (whole n).significant ((digitsOf n).length + more) = ⟨n * 10 ^ more, -more⟩ := by
  have hplace : (whole n).decimalExponent - (((digitsOf n).length + more : ℕ) - 1) = -(more : ℤ) := by
    rw [decimalExponent_whole hpos h]
    push_cast
    ring
  obtain ⟨unit, hunit⟩ : ∃ unit, unit = unitsPerOne := ⟨_, rfl⟩
  have hunitPos : 0 < unit := hunit ▸ unitsPerOne_pos
  have hround : quotientHalfEven (n * unit * 10 ^ more) unit = n * 10 ^ more := by
    rw [quotientHalfEven, Nat.mul_right_comm, Nat.mul_mod_left, Nat.mul_div_cancel _ hunitPos]
    exact if_pos (by omega)
  have hscaled : (whole n).scaled (-(more : ℤ)) = (n * unit * 10 ^ more, unit) := by
    rw [scaled, units_whole h, neg_neg, Int.toNat_natCast, Int.toNat_neg_natCast, ← hunit]
    simp only [Nat.pow_eq, pow_zero, Nat.mul_one]
  rw [significant]
  simp only [hplace, hscaled, hround]

end Rung

/-- A natural number is written with its own digits, if they are no more than the precision and make up
no more than 53 bits. -/
theorem Binary64.generalText_natCast {n precision : ℕ} (hpos : 0 < n) (h : n ≤ 2 * Rung.block)
    (hprecision : n < 10 ^ precision) : (ofInt n).generalText precision = toString n := by
  have hinfinite : (Rung.whole n).isInfinite = false :=
    Rung.isInfinite_eq_false_iff.mpr (Rung.whole_lt_infinity (h.trans (by decide)))
  have hzero : (Rung.whole n).isZero = false := by
    rw [← Bool.not_eq_true, Rung.isZero_iff]
    exact (Rung.zero_lt_whole hpos).ne'
  have hlength : 0 < (digitsOf n).length := List.length_pos_of_ne_nil (digitsOf_ne_nil n)
  have hprecisionPos : 0 < precision := by
    by_contra hnot
    obtain rfl := Nat.eq_zero_of_not_pos hnot
    omega
  have hle : (digitsOf n).length ≤ precision :=
    (Nat.length_toDigits_le_iff (by norm_num) hprecisionPos).mpr hprecision
  obtain ⟨more, rfl⟩ := Nat.exists_eq_add_of_le hle
  -- the zeros that fill up the digits are left out again
  set d := Decimal.withoutTrailingZeros ⟨n, 0⟩ with hd
  have hdigits : ((Rung.whole n).significant ((digitsOf n).length + more)).withoutTrailingZeros = d := by
    rw [Rung.significant_whole hpos h, Decimal.withoutTrailingZeros_mul_ten_pow hpos, neg_add_cancel]
  have hfirst : d.exponent + (digitsOf d.coefficient).length = (digitsOf n).length := by
    rw [hd, Decimal.exponent_add_length_withoutTrailingZeros hpos.ne', zero_add]
  have hpositional : d.positional = digitsOf n := by
    rw [hd, Decimal.positional_withoutTrailingZeros le_rfl hpos.ne',
      Decimal.positional_of_nonneg le_rfl hpos.ne']
    simp
  have hlengthOf := List.length_pos_of_ne_nil (digitsOf_ne_nil d.coefficient)
  rw [ofInt_natCast, generalText]
  simp only [hinfinite, hzero, Bool.false_eq_true, if_false, hdigits]
  rw [if_pos (by omega), hpositional]
  exact Nat.repr_eq_ofList_toDigits.symm

end TokenBucket
