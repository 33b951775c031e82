import TokenBucket.Proofs.Wire.Replies

/-!
# Draws in whole tokens

Callers ask for whole tokens and are told whole tokens, while the balance has a part behind the point.
Under a capacity of at most 53 bits that part never matters. A balance below `2 ^ 53` tokens is a number of
at most 53 bits at some scale below one token (`Rung.exists_scale`). Whole tokens taken from it leave a
number of the same scale, so that the difference is not rounded (`Rung.units_nearest_sub`) and the part
behind the point is left alone. Hence draws and replies do to the whole part what one does to a count of
tokens: a demand is met if the count covers it, and is then taken from the count (`Draw.exists_settle`).

## Main definitions

* `Rung.floor`: the whole tokens of a balance.
* `countDown`: what is left of a count.

## Main results

* `Rung.units_nearest_sub`: whole tokens are taken without rounding.
* `Rung.whole_le_iff`, `Rung.floor_nearest_sub`.
* `Draw.exists_settle`: how a draw is settled, in whole tokens.
* `Encoding.saturateInt64_truncate_carried`, `Encoding.saturateInt64_carried`: every encoding carries the
  whole tokens.
-/

namespace TokenBucket

open Binary64

/-! ### Whole tokens of a balance -/

namespace Rung

variable {r : Rung} {n : ℕ}

/-- The whole tokens of a balance. -/
def floor (r : Rung) : ℕ := r.units / unitsPerOne

/-- Whole tokens, if they have at most 53 bits, are their own whole part. -/
theorem floor_whole (h : n ≤ 2 * block) : (whole n).floor = n := by
  rw [floor, units_whole h, Nat.mul_div_cancel _ unitsPerOne_pos]

theorem units_lt (hr : r < whole (2 * block)) : r.units < 2 * block * unitsPerOne := by
  rw [← units_whole le_rfl]
  exact units_lt_units.mpr hr

theorem floor_lt (hr : r < whole (2 * block)) : r.floor < 2 * block :=
  (Nat.div_lt_iff_lt_mul unitsPerOne_pos).mpr (units_lt hr)

/-- A balance below `2 ^ 53` tokens has at most 53 bits at some scale below one token. -/
theorem exists_scale (hr : r < whole (2 * block)) :
    ∃ m k, m ≤ 2 * block ∧ k ≤ 1074 ∧ r.units = m * 2 ^ k := by
  rcases Nat.lt_or_ge r.index block with hlt | hge
  · exact ⟨r.index, 0, by omega, by omega, by rw [units_eq_unitsAt, unitsAt_of_lt (by omega)]; simp⟩
  · obtain ⟨k, m, hm, hm', hindex⟩ := exists_block hge
    have hunits : r.units = m * 2 ^ k := by
      rw [units_eq_unitsAt, hindex, unitsAt_block k hm hm'.le]
    refine ⟨m, k, hm'.le, ?_, hunits⟩
    -- a scale above one token would take the balance beyond the bound
    by_contra! hk
    obtain ⟨j, rfl⟩ := Nat.exists_eq_add_of_lt hk
    have hpow : 2 ^ (1074 + j + 1) = unitsPerOne * 2 ^ j * 2 := by
      rw [pow_succ, pow_add, unitsPerOne_eq]
    have hbound := units_lt hr
    rw [hunits, hpow] at hbound
    have hle : block * (unitsPerOne * 1 * 2) ≤ m * (unitsPerOne * 2 ^ j * 2) := by
      gcongr
      exact Nat.one_le_two_pow
    linarith

/-- Whole tokens are taken from such a balance without rounding. -/
theorem units_nearest_sub (hr : r < whole (2 * block)) (n : ℕ) :
    (nearest (r.units - n * unitsPerOne) 1).units = r.units - n * unitsPerOne := by
  obtain ⟨m, k, hm, hk, hunits⟩ := exists_scale hr
  have hone : unitsPerOne = 2 ^ (1074 - k) * 2 ^ k := by
    rw [unitsPerOne_eq, ← Nat.pow_add, Nat.sub_add_cancel hk]
  have hdifference : r.units - n * unitsPerOne = (m - n * 2 ^ (1074 - k)) * 2 ^ k := by
    rw [hunits, hone, ← Nat.mul_assoc, ← Nat.sub_mul]
  obtain ⟨q, -, hq⟩ := exists_units_eq (m := m - n * 2 ^ (1074 - k)) (k := k)
    ((Nat.sub_le _ _).trans hm) (by omega)
  rw [hdifference, ← hq, nearest_units]

/-- Such a balance covers a demand if its whole part does. -/
theorem whole_le_iff (hr : r < whole (2 * block)) : whole n ≤ r ↔ n ≤ r.floor := by
  rcases Nat.lt_or_ge (2 * block) n with hlarge | hsmall
  · have hfloor := floor_lt hr
    have hwhole : r < whole n := hr.trans_le (whole_le_whole hlarge.le)
    simp only [hwhole.not_ge, false_iff]
    omega
  · rw [← units_le_units, units_whole hsmall, floor, Nat.le_div_iff_mul_le unitsPerOne_pos]

/-- What is left of it has as many whole tokens less. -/
theorem floor_nearest_sub (hr : r < whole (2 * block)) (hn : n ≤ r.floor) :
    (nearest (r.units - (whole n).units) 1).floor = r.floor - n := by
  have hbits : n ≤ 2 * block := hn.trans (floor_lt hr).le
  rw [units_whole hbits, floor, units_nearest_sub hr, floor, Nat.mul_comm, Nat.sub_mul_div]

/-- A balance of `2 ^ 53` tokens or more has no part behind the point. -/
theorem whole_floor (hr : whole (2 * block) ≤ r) : whole r.floor = r := by
  have hbound : 2 * block * unitsPerOne ≤ r.units := by
    rw [← units_whole le_rfl]
    exact units_le_units.mpr hr
  have hlarge : block ≤ r.index := by
    by_contra! hlt
    have hunits : r.units = r.index := by rw [units_eq_unitsAt, unitsAt_of_lt (by omega)]
    have hle : 2 * block * 1 ≤ 2 * block * unitsPerOne := Nat.mul_le_mul_left _ unitsPerOne_pos
    omega
  obtain ⟨k, m, hm, hm', hindex⟩ := exists_block hlarge
  have hunits : r.units = m * 2 ^ k := by
    rw [units_eq_unitsAt, hindex, unitsAt_block k hm hm'.le]
  -- a scale below one token would not reach the bound
  have hk : 1074 ≤ k := by
    by_contra! hk
    have hpow : 2 ^ k < unitsPerOne := by
      rwa [unitsPerOne_eq, Nat.pow_lt_pow_iff_right Nat.one_lt_two]
    have hlt : m * 2 ^ k < 2 * block * unitsPerOne := Nat.mul_lt_mul_of_le_of_lt hm'.le hpow (by omega)
    omega
  have htokens : r.units = m * 2 ^ (k - 1074) * unitsPerOne := by
    rw [hunits, unitsPerOne_eq, Nat.mul_assoc, ← Nat.pow_add, Nat.sub_add_cancel hk]
  rw [floor, whole, htokens, Nat.mul_div_cancel _ unitsPerOne_pos, ← htokens, nearest_units]

/-- The whole part of a balance is its own whole part. -/
theorem floor_whole_floor (r : Rung) : (whole r.floor).floor = r.floor := by
  rcases lt_or_ge r (whole (2 * block)) with hlt | hge
  · exact floor_whole (floor_lt hlt).le
  · rw [whole_floor hge]

theorem ofCapacity_lt {capacity : Int64} (h : capacity.toInt < 2 ^ 53) :
    ofCapacity capacity < whole (2 * block) := by
  have hbits : (2 : ℤ) ^ 53 = (2 * block : ℕ) := by decide
  rw [← units_lt_units, ofCapacity, units_whole (by omega), units_whole le_rfl]
  exact Nat.mul_lt_mul_of_pos_right (by omega) unitsPerOne_pos

end Rung

/-! ### Draws -/

/-- What is left of a count of tokens after a demand: if the count covers it the demand is taken from
it. -/
def countDown (count demand : ℕ) : ℕ := if demand ≤ count then count - demand else count

theorem countDown_one (count : ℕ) : countDown count 1 = count - 1 := by
  rw [countDown]
  split <;> omega

namespace Draw

variable {d : Draw} {held : Option Record}

/-- How a draw is settled, in whole tokens: as a demand on the whole part of the balance. -/
theorem exists_settle (hd : d.IsValid) (hheld : ∀ r ∈ held, r.IsUnsigned)
    (hcapacity : d.capacity.toInt < 2 ^ 53) :
    (d.settle held).isGranted = decide (d.requested.toInt.toNat ≤ (d.availableRung held).floor) ∧
      ∃ q : Rung, (d.settle held).tokens = .number false q ∧ q ≤ .ofCapacity d.capacity ∧
        q.floor = countDown (d.availableRung held).floor d.requested.toInt.toNat := by
  have hle := d.availableRung_le held
  have hr := hle.trans_lt (Rung.ofCapacity_lt hcapacity)
  rw [settle_eq hd hheld, countDown]
  by_cases hlook : d.requested = 0
  · rw [if_pos hlook, hlook]
    exact ⟨rfl, _, rfl, hle, rfl⟩
  · rw [if_neg hlook, demandRung]
    by_cases hcovers : d.requested.toInt.toNat ≤ (d.availableRung held).floor
    · rw [if_pos ((Rung.whole_le_iff hr).mpr hcovers), if_pos hcovers]
      refine ⟨(decide_eq_true hcovers).symm, _, rfl, ?_, Rung.floor_nearest_sub hr hcovers⟩
      refine le_trans (Rung.nearest_le one_pos ?_) hle
      rw [Nat.mul_one]
      exact Nat.sub_le _ _
    · rw [if_neg (mt (Rung.whole_le_iff hr).mp hcovers), if_neg hcovers]
      exact ⟨(decide_eq_false hcovers).symm, _, rfl, hle, rfl⟩

end Draw

/-! ### Replies -/

theorem Binary64.truncate_eq_floor (r : Rung) : (number false r).truncate = r.floor := rfl

/-- Every encoding carries the whole tokens of a balance, as far as an integer of 64 bits can tell them. A
count of `2 ^ 63 - 1` is rounded up to the next double, and cut off there again. -/
theorem Encoding.saturateInt64_truncate_carried (e : Encoding) (r : Rung) :
    saturateInt64 (e.carried (.number false r)).truncate = saturateInt64 (r.floor : ℤ) := by
  have hmin : Int64.minValue.toInt = -2 ^ 63 := Int64.toInt_minValue
  have hmax : Int64.maxValue.toInt = 2 ^ 63 - 1 := Int64.toInt_maxValue
  cases e with
  | flag => rfl
  | boolean => rfl
  | count =>
    change saturateInt64 (Binary64.ofInt (saturateInt64 (r.floor : ℤ)).toInt).truncate = _
    rcases Nat.lt_or_ge r.floor (2 ^ 63) with hlt | hge
    · have hcount : (saturateInt64 (r.floor : ℤ)).toInt = r.floor := by
        rw [toInt_saturateInt64]
        omega
      rw [hcount, ofInt_natCast, truncate_eq_floor, r.floor_whole_floor]
    · have hcount : (saturateInt64 (r.floor : ℤ)).toInt = (2 ^ 63 - 1 : ℕ) := by
        rw [toInt_saturateInt64]
        omega
      have hlarge : (Rung.whole (2 ^ 63 - 1)).floor = 2 ^ 63 := by decide +kernel
      rw [hcount, ofInt_natCast, truncate_eq_floor, hlarge, saturateInt64, saturateInt64,
        min_eq_right (by omega), min_eq_right (by omega)]

/-- Every encoding carries the whole tokens of a balance below `2 ^ 53` tokens. -/
theorem Encoding.saturateInt64_carried (e : Encoding) {r : Rung} (hr : r < .whole (2 * Rung.block)) :
    saturateInt64 (e.carried (.number false r)).truncate = Int64.ofNat r.floor := by
  have hfloor := Rung.floor_lt hr
  have hbits : 2 * Rung.block = 2 ^ 53 := by decide
  have hmin : Int64.minValue.toInt = -2 ^ 63 := Int64.toInt_minValue
  have hmax : Int64.maxValue.toInt = 2 ^ 63 - 1 := Int64.toInt_maxValue
  rw [e.saturateInt64_truncate_carried, saturateInt64, min_eq_left (by omega), max_eq_right (by omega),
    Int64.ofInt_eq_ofNat]

end TokenBucket
