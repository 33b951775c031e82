import TokenBucket.Binary64.Arithmetic
import TokenBucket.Proofs.Binary64.Ladder

/-!
# Arithmetic on nonnegative doubles

A balance never carries a sign, so that most of what a bucket computes stays among the numbers
`Binary64.number false r`. On them every operation is a rounding of the exact result, and order,
capping and truncation are those of the rungs. This file states these equations once; the rest of the
development computes with rungs.

## Main definitions

* `Rung.whole`: the rung nearest to a natural number.

## Main results

* `Rung.exists_units_eq`: a natural number of at most 53 bits is on the ladder at every scale.
* `Binary64.add_number`, `Binary64.sub_number`, `Binary64.mul_number`, `Binary64.div_number`,
  `Binary64.capped_number`.
* `Binary64.ofInt_sub`: differences of integers of at most 53 bits are rounded once.
* `Rung.whole_div_le`: leaving out the part behind the point never rounds up.
-/

namespace TokenBucket

namespace Rung

/-! ### Natural numbers on the ladder -/

/-- A natural number of at most 53 bits is on the ladder at every scale that stays finite. -/
theorem exists_units_eq {m k : ℕ} (hm : m ≤ 2 * block) (hk : k ≤ 2044) :
    ∃ r : Rung, r < infinity ∧ r.units = m * 2 ^ k := by
  have hinf : infinity.index = 2047 * block := rfl
  have hpos := block_pos
  induction k generalizing m with
  | zero =>
    refine ⟨⟨m, by unfold block at hm; omega⟩, ?_, ?_⟩
    · rw [lt_iff, hinf]
      show m < _
      omega
    · rw [units_eq_unitsAt, unitsAt_of_le hm, pow_zero, mul_one]
  | succ k ih =>
    rcases Nat.lt_or_ge m block with hlt | hge
    · obtain ⟨r, hr, hunits⟩ := ih (m := m * 2) (by omega) (by omega)
      exact ⟨r, hr, by rw [hunits]; ring⟩
    · have hidx : (k + 1) * block + m < 2047 * block := by
        calc (k + 1) * block + m ≤ (k + 1) * block + 2 * block := by omega
          _ = (k + 3) * block := by ring
          _ < 2047 * block := Nat.mul_lt_mul_of_pos_right (by omega) hpos
      refine ⟨⟨(k + 1) * block + m, hidx.le.trans (by decide)⟩, ?_, ?_⟩
      · rw [lt_iff, hinf]
        exact hidx
      · rw [units_eq_unitsAt, unitsAt_block (k + 1) hge hm]

/-- The rung nearest to a natural number. -/
def whole (n : ℕ) : Rung := nearest (n * unitsPerOne) 1

theorem whole_le_whole {m n : ℕ} (h : m ≤ n) : whole m ≤ whole n :=
  nearest_le_nearest one_pos one_pos (by gcongr)

@[simp] theorem whole_zero : whole 0 = zero := by
  rw [whole, Nat.zero_mul, ← units_zero, nearest_units]

theorem unitsPerOne_eq : unitsPerOne = 2 ^ 1074 := by decide +kernel

/-- A natural number of at most 53 bits is a rung. -/
theorem units_whole {n : ℕ} (h : n ≤ 2 * block) : (whole n).units = n * unitsPerOne := by
  obtain ⟨r, -, hr⟩ := exists_units_eq (k := 1074) h (by omega)
  rw [← unitsPerOne_eq] at hr
  rw [whole, ← hr, nearest_units]

/-- Natural numbers of 64 bits are far below infinity. -/
theorem whole_lt_infinity {n : ℕ} (h : n ≤ 2 ^ 64) : whole n < infinity := by
  obtain ⟨r, hlt, hr⟩ := exists_units_eq (m := 1) (k := 1138) (by decide) (by omega)
  refine (nearest_le one_pos ?_).trans_lt hlt
  rw [hr, unitsPerOne_eq, Nat.mul_one, Nat.one_mul, show 1138 = 64 + 1074 from rfl, pow_add]
  gcongr

/-- A positive natural number is not rounded down to zero. -/
theorem one_le_whole {n : ℕ} (h : 1 ≤ n) : whole 1 ≤ whole n := whole_le_whole h

theorem zero_lt_whole {n : ℕ} (h : 1 ≤ n) : zero < whole n := by
  refine lt_of_lt_of_le ?_ (one_le_whole h)
  rw [← units_lt_units, units_zero, units_whole (by decide), Nat.one_mul]
  exact unitsPerOne_pos

/-- The whole part of a rung rounds no higher than the rung. -/
theorem whole_div_le (r : Rung) : whole (r.units / unitsPerOne) ≤ r :=
  nearest_le one_pos (by simpa using Nat.div_mul_le_self r.units unitsPerOne)

end Rung

namespace Binary64

open Rung

/-! ### Order -/

@[simp] theorem units_number (r : Rung) : (number false r).units = r.units := rfl

@[simp] theorem isNaN_number (s : Bool) (r : Rung) : (number s r).isNaN = false := rfl

theorem isFinite_number {s : Bool} {r : Rung} : (number s r).isFinite = true ↔ r < .infinity := by
  rw [isFinite, Bool.not_eq_true', isInfinite_eq_false_iff]

theorem isNaN_of_isFinite {x : Binary64} (h : x.isFinite = true) : x.isNaN = false := by
  cases x with
  | nan => cases h
  | number => rfl

/-- Numbers are ordered in a line. -/
theorem not_lt_iff {x y : Binary64} (hx : x.isNaN = false) (hy : y.isNaN = false) : ¬ x < y ↔ y ≤ x := by
  show ¬ (_ ∧ _ ∧ _) ↔ _ ∧ _ ∧ _
  simp [hx, hy]

theorem number_le_number {r q : Rung} : number false r ≤ number false q ↔ r ≤ q := by
  show _ ∧ _ ∧ _ ↔ _
  simp [units_le_units]

theorem number_lt_number {r q : Rung} : number false r < number false q ↔ r < q := by
  show _ ∧ _ ∧ _ ↔ _
  simp [units_lt_units]

theorem zero_le_number (r : Rung) : Binary64.zero ≤ number false r :=
  number_le_number.mpr (Rung.zero_le r)

/-! ### Integers -/

theorem ofInt_natCast (n : ℕ) : ofInt n = number false (whole n) := by
  simp [ofInt, ofQuotient, whole]

theorem ofInt_of_nonneg {n : ℤ} (h : 0 ≤ n) : ofInt n = number false (whole n.toNat) := by
  rw [← ofInt_natCast, Int.toNat_of_nonneg h]

/-- An integer of at most 53 bits is a double. -/
theorem units_ofInt {n : ℤ} (h : n.natAbs ≤ 2 * block) : (ofInt n).units = n * unitsPerOne := by
  have hw : (nearest (n.natAbs * unitsPerOne) 1).units = n.natAbs * unitsPerOne := units_whole h
  rcases lt_or_ge n 0 with hn | hn
  · simp only [ofInt, ofQuotient, hn, decide_true, units, hw]
    push_cast
    rw [abs_of_neg hn]
    ring
  · rw [ofInt_of_nonneg hn, units_number, units_whole (by omega)]
    push_cast
    rw [Int.toNat_of_nonneg hn]

/-! ### Operations -/

theorem add_number (r q : Rung) :
    number false r + number false q = number false (nearest (r.units + q.units) 1) := by
  have hr := le_nearest (n := r.units + q.units) (r := r) one_pos (by omega)
  have hq := le_nearest (n := r.units + q.units) (r := q) one_pos (by omega)
  show add _ _ = _
  rw [add]
  by_cases hri : r.isInfinite
  · rw [isInfinite_iff.mp hri] at hr ⊢
    simp only [isInfinite_iff.mpr rfl, if_true, bne_self_eq_false, Bool.and_false]
    rw [le_antisymm (le_infinity _) hr]
    rfl
  · by_cases hqi : q.isInfinite
    · rw [isInfinite_iff.mp hqi] at hq ⊢
      simp only [hri, isInfinite_iff.mpr rfl, if_true]
      rw [le_antisymm (le_infinity _) hq]
      rfl
    · simp only [hri, hqi, units_number]
      by_cases h0 : r.units + q.units = 0
      · rw [h0, ← units_zero, nearest_units]
        have h0' : (r.units : ℤ) + q.units = 0 := by exact_mod_cast h0
        simp [h0']
      · have h0' : (r.units : ℤ) + q.units ≠ 0 := by exact_mod_cast h0
        have hnonneg : ¬ (r.units : ℤ) + q.units < 0 := by omega
        have habs : ((r.units : ℤ) + q.units).natAbs = r.units + q.units := by omega
        simp [h0', hnonneg, habs, ofQuotient]

theorem sub_number {r q : Rung} (hr : r < .infinity) (h : q ≤ r) :
    number false r - number false q = number false (nearest (r.units - q.units) 1) := by
  have hri : r.isInfinite = false := isInfinite_eq_false_iff.mpr hr
  have hqi : q.isInfinite = false := isInfinite_eq_false_iff.mpr (h.trans_lt hr)
  have hle : q.units ≤ r.units := units_le_units.mpr h
  have htotal : (number false r).units + (number true q).units = ((r.units - q.units : ℕ) : ℤ) := by
    rw [units_number]
    simp only [units]
    omega
  show add (number false r) (number true q) = _
  rw [add]
  simp only [hri, hqi, htotal]
  by_cases h0 : r.units - q.units = 0
  · rw [h0, ← units_zero, nearest_units]
    simp
  · simp [h0, ofQuotient]

theorem mul_number {r q : Rung} (hr : r < .infinity) (hq : q < .infinity) :
    number false r * number false q =
      number false (nearest (r.units * q.units) unitsPerOne) := by
  have hri : r.isInfinite = false := isInfinite_eq_false_iff.mpr hr
  have hqi : q.isInfinite = false := isInfinite_eq_false_iff.mpr hq
  show mul _ _ = _
  simp [mul, hri, hqi, ofQuotient]

theorem div_number {r q : Rung} (hr : r < .infinity) (hq : q < .infinity) (h : .zero < q) :
    number false r / number false q =
      number false (nearest (r.units * unitsPerOne) q.units) := by
  have hri : r.isInfinite = false := isInfinite_eq_false_iff.mpr hr
  have hqi : q.isInfinite = false := isInfinite_eq_false_iff.mpr hq
  have hqz : q.isZero = false := by
    rw [← Bool.not_eq_true, isZero_iff]
    exact h.ne'
  show div _ _ = _
  simp [div, hri, hqi, hqz, ofQuotient]

theorem capped_number (r q : Rung) :
    (number false r).capped (number false q) = number false (min r q) := by
  simp only [capped, isNaN_number, Bool.false_eq_true, if_false, number_lt_number]
  split
  · next h => rw [min_eq_right h.le]
  · next h => rw [min_eq_left (not_lt.mp h)]

/-- Differences of integers of at most 53 bits are exact before they are rounded. -/
theorem ofInt_sub {m n : ℤ} (hm : m.natAbs ≤ 2 * block) (hn : n.natAbs ≤ 2 * block) :
    ofInt m - ofInt n = ofInt (m - n) := by
  have hfin : ∀ {k : ℤ}, k.natAbs ≤ 2 * block →
      (nearest (k.natAbs * unitsPerOne) 1).isInfinite = false := fun {k} hk =>
    isInfinite_eq_false_iff.mpr (whole_lt_infinity (hk.trans (by decide)))
  have hneg : (number (!decide (n < 0)) (nearest (n.natAbs * unitsPerOne) 1)).units
      = -(ofInt n).units := by
    by_cases h : n < 0 <;> simp [ofInt, ofQuotient, h, units]
  have hpos : (number (decide (m < 0)) (nearest (m.natAbs * unitsPerOne) 1)).units
      = (ofInt m).units := rfl
  have htotal : m * (unitsPerOne : ℤ) + -(n * unitsPerOne) = (m - n) * unitsPerOne := by ring
  show add (number _ _) (number _ _) = _
  rw [add]
  simp only [hfin hm, hfin hn, hneg, hpos, units_ofInt hm, units_ofInt hn, htotal]
  have hone : (0 : ℤ) < unitsPerOne := by exact_mod_cast unitsPerOne_pos
  by_cases h : m = n
  · subst h
    have hzero : nearest 0 1 = .zero := by rw [← units_zero, nearest_units]
    simp only [Bool.false_eq_true, if_false, sub_self, zero_mul, if_true, Bool.and_not_self, ofInt,
      ofQuotient, lt_self_iff_false, decide_false, Int.natAbs_zero, hzero]
  · have hne : m - n ≠ 0 := sub_ne_zero.mpr h
    have hneg' : ((m - n) * (unitsPerOne : ℤ) < 0) ↔ m - n < 0 := by
      constructor
      · intro hlt
        by_contra! hge
        exact absurd (Int.mul_nonneg hge hone.le) hlt.not_ge
      · exact fun hlt => Int.mul_neg_of_neg_of_pos hlt hone
    have hunit : unitsPerOne ≠ 0 := unitsPerOne_pos.ne'
    simp only [Bool.false_eq_true, if_false, mul_eq_zero, hne, Int.natCast_eq_zero, hunit, or_self,
      ofQuotient, hneg', Int.natAbs_mul, Int.natAbs_natCast, ofInt]

/-! ### Whole parts -/

theorem truncate_number (r : Rung) : (number false r).truncate = (r.units / unitsPerOne : ℕ) := rfl

theorem truncate_number_le {r q : Rung} (h : r ≤ q) :
    (number false r).truncate ≤ (number false q).truncate := by
  rw [truncate_number, truncate_number]
  exact_mod_cast Nat.div_le_div_right (units_le_units.mpr h)

theorem truncate_number_nonneg (r : Rung) : 0 ≤ (number false r).truncate := by
  rw [truncate_number]
  exact Int.natCast_nonneg _

end Binary64

end TokenBucket
