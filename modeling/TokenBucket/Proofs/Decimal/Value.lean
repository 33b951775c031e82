import TokenBucket.Decimal.Shortest
import TokenBucket.Decimal.Significant
import TokenBucket.Proofs.Binary64.Ladder
import Mathlib.Data.Rat.Cast.Order
import Mathlib.Tactic.FieldSimp
import Mathlib.Tactic.Positivity

/-!
# The worth of a decimal

The double read from a decimal depends on nothing but the rational number that the decimal denotes
(`Rung.ofDecimal_congr`): bringing a far exponent back before rounding changes nothing, since what it
cuts off is infinite or zero either way. So a decimal may be shifted, stripped of its final zeros or
written out in another notation.

Both ways of writing a double keep enough digits. The shortest decimal was chosen among those that read
back, and the exact decimal stands behind the choice. Seventeen significant digits are at most half a
unit of the seventeenth digit away from the double, and that is less than half the distance to its
neighbours, because `10 ^ 16` exceeds `2 ^ 53 + 1`.

## Main definitions

* `Decimal.value`: the rational number that a decimal denotes.

## Main results

* `Rung.ofDecimal_eq`, `Rung.ofDecimal_congr`.
* `Rung.ofDecimal_shortest`: the shortest decimal of a finite rung reads back.
* `Rung.ofDecimal_significant`: so do seventeen significant digits.
-/

namespace TokenBucket

namespace Decimal

/-- The rational number that a decimal denotes. -/
def value (d : Decimal) : ℚ := d.coefficient * 10 ^ d.exponent

theorem ten_zpow (e : ℤ) : (10 : ℚ) ^ e = 10 ^ e.toNat / 10 ^ (-e).toNat := by
  obtain ⟨n, rfl | rfl⟩ := e.eq_nat_or_neg
  · simp
  · simp

theorem value_eq (d : Decimal) :
    d.value = (d.coefficient * 10 ^ d.exponent.toNat : ℕ) / (10 ^ (-d.exponent).toNat : ℕ) := by
  rw [value, ten_zpow]
  push_cast
  ring

/-- Final zeros say nothing. -/
theorem value_withoutTrailingZeros (d : Decimal) : d.withoutTrailingZeros.value = d.value := by
  induction d using withoutTrailingZeros.induct with
  | case1 d h ih =>
    have hten : d.coefficient = 10 * (d.coefficient / 10) := by
      have := h.2
      omega
    rw [withoutTrailingZeros, dif_pos h, ih, value, value, zpow_add₀ (by norm_num), zpow_one]
    conv_rhs => rw [hten]
    push_cast
    ring
  | case2 d h => rw [withoutTrailingZeros, dif_neg h]

end Decimal

namespace Rung

/-! ### Reading depends on the value alone -/

/-- What is less than half a unit rounds to zero. -/
theorem nearest_eq_zero {n d : ℕ} (h : 2 * n < d) : nearest n d = zero := by
  refine nearest_eq_of_between (by omega) (fun j hj => absurd hj (Nat.not_lt_zero j)) ?_
  have hone : unitsAt zero.index + unitsAt (zero.index + 1) = 1 := by decide
  rw [hone, Nat.mul_one]
  exact h

/-- What reaches infinity rounds to it. -/
theorem nearest_eq_infinity {n d : ℕ} (hd : 0 < d) (h : infinity.units * d ≤ n) :
    nearest n d = infinity :=
  le_antisymm (le_infinity _) (le_nearest hd h)

/-- Infinity is worth less than `10 ^ 400`. -/
theorem units_infinity_le {k : ℕ} (h : 400 ≤ k) : infinity.units ≤ 10 ^ k * unitsPerOne := by
  obtain ⟨j, hj, hlast⟩ : ∃ j, j = 400 ∧ infinity.units ≤ 10 ^ j * unitsPerOne :=
    ⟨400, rfl, by decide +kernel⟩
  exact hlast.trans (Nat.mul_le_mul_right _ (Nat.pow_le_pow_right (by norm_num) (hj ▸ h)))

/-- The least positive double is worth more than twice `10 ^ (-400)`. -/
theorem two_mul_unitsPerOne_lt {k : ℕ} (h : 400 ≤ k) : 2 * unitsPerOne < 10 ^ k := by
  obtain ⟨j, hj, hlast⟩ : ∃ j, j = 400 ∧ 2 * unitsPerOne < 10 ^ j :=
    ⟨400, rfl, by decide +kernel⟩
  exact hlast.trans_le (Nat.pow_le_pow_right (by norm_num) (hj ▸ h))

/-- A coefficient has no more digits than the bound taken for it. -/
theorem lt_ten_pow_log2 (c : ℕ) : c < 10 ^ (c.log2 / 3 + 1) := by
  calc c < 2 ^ (c.log2 + 1) := Nat.lt_log2_self
    _ ≤ 2 ^ (3 * (c.log2 / 3 + 1)) := Nat.pow_le_pow_right Nat.zero_lt_two (by omega)
    _ = 8 ^ (c.log2 / 3 + 1) := by rw [pow_mul]; norm_num
    _ ≤ 10 ^ (c.log2 / 3 + 1) := Nat.pow_le_pow_left (by norm_num) _

/-- Reading a decimal rounds its exact worth, however far out its exponent is. -/
theorem ofDecimal_eq (d : Decimal) :
    ofDecimal d =
      nearest (d.coefficient * 10 ^ d.exponent.toNat * unitsPerOne) (10 ^ (-d.exponent).toNat) := by
  obtain ⟨c, e⟩ := d
  have hten (k : ℕ) : 0 < 10 ^ k := Nat.pow_pos (by norm_num)
  simp only [ofDecimal, Nat.pow_eq]
  rcases Nat.eq_zero_or_pos c with rfl | hc
  · simp only [Nat.zero_mul]
    exact nearest_congr (hten _) (hten _) (by simp)
  set digits : ℤ := ((c.log2 / 3 : ℕ) : ℤ) + 1 with hdigits
  have hdigits' : (↑c.log2 / 3 : ℤ) + 1 = digits := by push_cast [hdigits]; rfl
  rw [hdigits']
  rcases lt_or_ge 400 e with hhigh | hhigh
  · -- both exponents are beyond infinity
    have hcut : max (-digits - 400) (min e 400) = 400 := by omega
    have hinf : ∀ k : ℕ, 400 ≤ k → nearest (c * 10 ^ k * unitsPerOne) 1 = infinity := by
      intro k hk
      apply nearest_eq_infinity one_pos
      rw [Nat.mul_one, Nat.mul_assoc]
      exact le_trans (units_infinity_le hk) (Nat.le_mul_of_pos_left (10 ^ k * unitsPerOne) hc)
    have hneg : (-e).toNat = 0 := by omega
    have hneg' : (-400 : ℤ).toNat = 0 := rfl
    rw [hcut, hneg, hneg', pow_zero, hinf _ (by omega), hinf _ (by omega)]
  rcases lt_or_ge e (-digits - 400) with hlow | hlow
  · -- both exponents are below half of the least positive double
    have hcut : max (-digits - 400) (min e 400) = -digits - 400 := by omega
    have hzero : ∀ k : ℕ, c.log2 / 3 + 1 + 400 ≤ k → 2 * (c * 10 ^ 0 * unitsPerOne) < 10 ^ k := by
      intro k hk
      obtain ⟨j, rfl⟩ := Nat.exists_eq_add_of_le (Nat.le_of_add_right_le hk)
      calc 2 * (c * 10 ^ 0 * unitsPerOne) = c * (2 * unitsPerOne) := by ring
        _ < 10 ^ (c.log2 / 3 + 1) * 10 ^ j :=
          Nat.mul_lt_mul'' (lt_ten_pow_log2 c) (two_mul_unitsPerOne_lt (by omega))
        _ = 10 ^ (c.log2 / 3 + 1 + j) := (pow_add 10 _ _).symm
    have hcut0 : (-digits - 400).toNat = 0 := by omega
    have he0 : e.toNat = 0 := by omega
    rw [hcut, hcut0, he0]
    exact (nearest_eq_zero (hzero _ (by omega))).trans (nearest_eq_zero (hzero _ (by omega))).symm
  · have hcut : max (-digits - 400) (min e 400) = e := by omega
    rw [hcut]

/-- Decimals of the same worth are read as the same double. -/
theorem ofDecimal_congr {d d' : Decimal} (h : d.value = d'.value) : ofDecimal d = ofDecimal d' := by
  have hten (k : ℕ) : 0 < 10 ^ k := Nat.pow_pos (by norm_num)
  rw [ofDecimal_eq, ofDecimal_eq]
  refine nearest_congr (hten _) (hten _) ?_
  rw [Decimal.value_eq, Decimal.value_eq,
    div_eq_div_iff (by exact_mod_cast (hten _).ne') (by exact_mod_cast (hten _).ne')] at h
  have h' : d.coefficient * 10 ^ d.exponent.toNat * 10 ^ (-d'.exponent).toNat =
      d'.coefficient * 10 ^ d'.exponent.toNat * 10 ^ (-d.exponent).toNat := by exact_mod_cast h
  rw [Nat.mul_right_comm, h', Nat.mul_right_comm]

theorem ofDecimal_withoutTrailingZeros (d : Decimal) :
    ofDecimal d.withoutTrailingZeros = ofDecimal d :=
  ofDecimal_congr d.value_withoutTrailingZeros

/-- A natural number written with its digits is read as the rung nearest to it. -/
theorem ofDecimal_natCast (n : ℕ) : ofDecimal ⟨n, 0⟩ = nearest (n * unitsPerOne) 1 := by
  simp [ofDecimal_eq]

/-! ### Both ways of writing a double read back -/

/-- The exact decimal reads back. -/
theorem ofDecimal_exactDecimal (r : Rung) : ofDecimal r.exactDecimal = r := by
  obtain ⟨c, k, hc, hk, hten⟩ : ∃ c k : ℕ, c = Nat.pow 5 1074 ∧ k = 1074 ∧
      c * unitsPerOne = 10 ^ k := ⟨_, _, rfl, rfl, by decide +kernel⟩
  have hexact : r.exactDecimal = ⟨r.units * c, -k⟩ := by
    rw [hc, hk]
    rfl
  rw [hexact, ofDecimal_eq]
  conv_rhs => rw [← nearest_units r]
  refine nearest_congr (Nat.pow_pos (by norm_num)) one_pos ?_
  rw [neg_neg, Int.toNat_natCast, Int.toNat_neg_natCast, ← hten, pow_zero]
  ring

/-- The shortest decimal reads back. -/
theorem ofDecimal_shortest (r : Rung) : ofDecimal r.shortest = r := by
  rw [shortest]
  split
  · next h =>
    rw [isZero_iff.mp h, ofDecimal_natCast, Nat.zero_mul]
    exact nearest_eq_zero (by norm_num)
  · rw [ofDecimal_withoutTrailingZeros]
    cases hfind : (List.range 17).findSome? fun more : ℕ => r.readBack (r.decimalExponent - more) with
    | none => exact ofDecimal_exactDecimal r
    | some d =>
      obtain ⟨more, -, hmore⟩ := List.exists_of_findSome?_eq_some hfind
      exact ofDecimal_of_readBack hmore

/-- The distance to the next place exceeds the worth of a place over `2 ^ 53`. -/
theorem unitsAt_lt_spacing (i : ℕ) : unitsAt i < 2 * block * (unitsAt (i + 1) - unitsAt i) := by
  have hpos := block_pos
  rcases Nat.lt_or_ge i block with h | h
  · rw [unitsAt_of_lt (by omega), unitsAt_of_lt (by omega), Nat.add_sub_cancel_left]
    omega
  · obtain ⟨k, m, hm, hm', rfl⟩ := exists_block h
    rw [Nat.add_assoc, unitsAt_block k hm (by omega), unitsAt_block k (by omega) (by omega),
      ← Nat.sub_mul, Nat.add_sub_cancel_left, Nat.one_mul]
    exact Nat.mul_lt_mul_of_pos_right hm' (Nat.two_pow_pos k)

/-- The next place down is farther away than the worth of a place over `2 ^ 53 + 1`. -/
theorem unitsAt_succ_lt_spacing (i : ℕ) :
    unitsAt (i + 1) < (2 * block + 1) * (unitsAt (i + 1) - unitsAt i) := by
  have h := unitsAt_lt_spacing i
  have hlt := unitsAt_lt_succ i
  rw [Nat.add_mul, Nat.one_mul]
  omega

/-- The place of the first digit is not set too high. -/
theorem ten_zpow_decimalExponent_le {r : Rung} (h : r ≠ zero) :
    (10 : ℚ) ^ r.decimalExponent * unitsPerOne ≤ r.units := by
  obtain ⟨c, k, hc, hk, hcut, hone⟩ : ∃ c k : ℕ, c = Nat.pow 10 400 ∧ k = 400 ∧ c = 10 ^ k ∧
      unitsPerOne ≤ c := ⟨_, _, rfl, rfl, by decide +kernel, by decide +kernel⟩
  have hunits : 1 ≤ r.units := by
    rw [Nat.one_le_iff_ne_zero, ← units_zero]
    exact fun h0 => h (units_injective h0)
  set n := r.units * c / unitsPerOne with hn
  set length := (digitsOf n).length with hlength
  have hexponent : r.decimalExponent = (length - 1 : ℕ) - (k : ℤ) := by
    have hpos : 0 < length := Nat.length_toDigits_pos
    have hdef : r.decimalExponent = (length : ℤ) - 401 := by rw [hlength, hn, hc]; rfl
    rw [hdef, hk]
    omega
  have hdigits : 10 ^ (length - 1) ≤ n := by
    rcases Nat.eq_zero_or_pos (length - 1) with h0 | hpos
    · rw [h0, pow_zero, hn, Nat.le_div_iff_mul_le unitsPerOne_pos, Nat.one_mul]
      exact hone.trans (Nat.le_mul_of_pos_left _ hunits)
    · have hnot := (Nat.length_toDigits_le_iff (n := n) (b := 10) (by norm_num) hpos).not
      rw [not_le, not_lt] at hnot
      exact hnot.mp (by rw [hlength] at hpos ⊢; unfold digitsOf at *; omega)
  have hscaled : 10 ^ (length - 1) * unitsPerOne ≤ r.units * 10 ^ k := by
    rw [← hcut]
    exact (Nat.mul_le_mul_right _ hdigits).trans (Nat.div_mul_le_self _ _)
  have hten : (0 : ℚ) < 10 ^ k := by positivity
  rw [hexponent, zpow_sub₀ (by norm_num), zpow_natCast, zpow_natCast, div_mul_eq_mul_div,
    div_le_iff₀ hten]
  exact_mod_cast hscaled

/-- What is off from a rung by at most half of a `10 ^ 16`-th of its worth rounds to it. -/
theorem nearest_eq_of_close {n d e : ℕ} {r : Rung} (hd : 0 < d) (hup : 2 * (r.units * d) ≤ 2 * n + e)
    (hdown : 2 * n ≤ 2 * (r.units * d) + e) (he : 10 ^ 16 * e ≤ r.units * d) : nearest n d = r := by
  have hspacing : ∀ i, r.units < (2 * block + 1) * (unitsAt (i + 1) - unitsAt i) →
      e + d * unitsAt i < d * unitsAt (i + 1) := by
    intro i hi
    have hgap : e < d * (unitsAt (i + 1) - unitsAt i) := by
      refine Nat.lt_of_mul_lt_mul_left (a := 10 ^ 16) ?_
      calc 10 ^ 16 * e ≤ r.units * d := he
        _ < (2 * block + 1) * (unitsAt (i + 1) - unitsAt i) * d :=
          Nat.mul_lt_mul_of_pos_right hi hd
        _ = (2 * block + 1) * (d * (unitsAt (i + 1) - unitsAt i)) := by ring
        _ ≤ 10 ^ 16 * (d * (unitsAt (i + 1) - unitsAt i)) := Nat.mul_le_mul_right _ (by decide)
    rw [Nat.mul_sub] at hgap
    omega
  have hcomm : d * r.units = r.units * d := Nat.mul_comm _ _
  refine nearest_eq_of_between hd (fun j hj => ?_) ?_
  · obtain ⟨i, hi⟩ : ∃ i, r.index = i + 1 := ⟨r.index - 1, by omega⟩
    have hat : unitsAt (i + 1) = r.units := by rw [units_eq_unitsAt, hi]
    have hgap := hspacing i (hat ▸ unitsAt_succ_lt_spacing i)
    rw [hat] at hgap
    calc d * (unitsAt j + unitsAt (j + 1)) ≤ d * (unitsAt i + unitsAt (i + 1)) := by
          gcongr <;> exact unitsAt_strictMono.monotone (by omega)
      _ = d * unitsAt i + d * r.units := by rw [hat, Nat.mul_add]
      _ < 2 * n := by omega
  · have hnext := unitsAt_lt_spacing r.index
    have hgap := hspacing r.index (by
      rw [units_eq_unitsAt, Nat.add_mul]
      omega)
    rw [← units_eq_unitsAt] at hgap ⊢
    rw [Nat.mul_add]
    omega

/-- Seventeen significant digits read back. -/
theorem ofDecimal_significant {r : Rung} (h : r ≠ zero) : ofDecimal (r.significant 17) = r := by
  have hfirst := ten_zpow_decimalExponent_le h
  set place := r.decimalExponent - 16 with hplace
  obtain ⟨unit, hunit⟩ : ∃ unit, unit = unitsPerOne := ⟨_, rfl⟩
  set a := 10 ^ place.toNat with ha
  set b := 10 ^ (-place).toNat with hb
  set m := quotientHalfEven (r.units * b) (unit * a) with hm
  have hbpos : 0 < b := Nat.pow_pos (by norm_num)
  have hden : 0 < unit * a := Nat.mul_pos (hunit ▸ unitsPerOne_pos) (Nat.pow_pos (by norm_num))
  have hdecimal : r.significant 17 = ⟨m, place⟩ := by rw [hm, hunit]; rfl
  obtain ⟨hup, hdown⟩ := quotientHalfEven_bounds (n := r.units * b) hden
  rw [← hm] at hup hdown
  rw [hdecimal, ofDecimal_eq, ← hunit]
  change nearest (m * a * unit) b = r
  have hexact : m * a * unit = unit * a * m := by ring
  refine nearest_eq_of_close (e := unit * a) hbpos ?_ ?_ ?_
  · rw [hexact]
    linarith
  · rw [hexact]
    linarith
  · -- a unit of the last digit is at most a `10 ^ 16`-th of the whole
    have hsplit : r.decimalExponent = place + 16 := by omega
    have hbq : (0 : ℚ) < b := by exact_mod_cast hbpos
    have hab : (10 : ℚ) ^ place = a / b := by
      rw [Decimal.ten_zpow, ha, hb]
      push_cast
      rfl
    rw [hsplit, zpow_add₀ (by norm_num), hab, div_mul_eq_mul_div, div_mul_eq_mul_div,
      div_le_iff₀ hbq, ← hunit] at hfirst
    have hsixteen : (10 : ℚ) ^ (16 : ℤ) = 10 ^ 16 := zpow_natCast 10 16
    rw [hsixteen] at hfirst
    have hnat : a * 10 ^ 16 * unit ≤ r.units * b := by exact_mod_cast hfirst
    calc 10 ^ 16 * (unit * a) = a * 10 ^ 16 * unit := by ring
      _ ≤ r.units * b := hnat

end Rung

end TokenBucket
