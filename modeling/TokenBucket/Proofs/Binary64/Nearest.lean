import TokenBucket.Proofs.Binary64.Ladder
import Mathlib.Algebra.Group.Nat.Even
import Mathlib.Algebra.Order.Field.Basic
import Mathlib.Algebra.Order.Ring.Abs
import Mathlib.Algebra.Order.Ring.Rat

/-!
# Correct rounding

A rung is the correct rounding of a rational number of units if no other rung is nearer, and if its index
is even where another rung is as near (`Rung.IsNearest`). Infinity takes part in this with the `2 ^ 1024`
that its place on the ladder is worth. The definition does not say how the rung is found. There is at most
one such rung for a number (`Rung.IsNearest.unique`), and `Rung.nearest` finds it
(`Rung.isNearest_nearest`), so that the two describe the same rounding.

What is nearest follows from the midpoints between which a quotient lies. What remains is the tie: a
quotient that is a midpoint has arrived at an even place, because inside a block the place counts multiples
of the spacing and a half goes to the even one, and because blocks begin and end at even places.

## Main definitions

* `Rung.IsNearest`.

## Main results

* `Rung.isNearest_nearest`, `Rung.IsNearest.unique`.
* `Rung.isNearest_units`: a rung is its own correct rounding.
-/

namespace TokenBucket

/-- A half is rounded to an even number. -/
theorem even_quotientHalfEven {n d j : ℕ} (hd : 0 < d) (h : 2 * n = d * (2 * j + 1)) :
    Even (quotientHalfEven n d) := by
  have hquotient : d * (n / d) + n % d = n := Nat.div_add_mod n d
  have hrest : n % d < d := Nat.mod_lt n hd
  -- the whole part is `j`, since `n` lies strictly between `d * j` and `d * (j + 1)`
  have hfloor : n / d = j := by
    rw [Nat.mul_add, Nat.mul_left_comm] at h
    exact Nat.div_eq_of_lt_le (by rw [Nat.mul_comm]; omega) (by rw [Nat.mul_comm, Nat.mul_succ]; omega)
  rw [hfloor] at hquotient
  rw [Nat.mul_add, Nat.mul_left_comm] at h
  rw [quotientHalfEven, if_neg (by omega), if_neg (by omega), hfloor, Nat.even_iff]
  omega

namespace Rung

/-- A rung is the correct rounding of `q` units: no rung is nearer, and where another one is as near this
is the even one. -/
structure IsNearest (r : Rung) (q : ℚ) : Prop where
  le_abs : ∀ p : Rung, |q - r.units| ≤ |q - p.units|
  even : ∀ p : Rung, p ≠ r → |q - p.units| = |q - r.units| → Even r.index

/-! ### Ties -/

theorem even_block : Even block := by decide

theorem even_index_infinity : Even infinity.index := by decide

/-- Inside a block a place is worth its number times the spacing. -/
theorem unitsAt_in_block {k m : ℕ} (h : k = 0 ∨ block ≤ m) (h' : m ≤ 2 * block) :
    unitsAt (k * block + m) = m * 2 ^ k := by
  rcases h with rfl | h
  · simpa using unitsAt_of_le h'
  · exact unitsAt_block k h h'

/-- A quotient that is the midpoint above or below its place has arrived at an even place. -/
theorem even_place {n d i : ℕ} (hd : 0 < d) (hi : i = place n d ∨ i + 1 = place n d)
    (h : 2 * n = d * (unitsAt i + unitsAt (i + 1))) : Even (place n d) := by
  obtain ⟨k, m, hplace, hm, hlow, -, -, hround⟩ := exists_place n hd
  have hblock : k = 0 ∨ block ≤ m := hlow.imp_right And.left
  have hpos := block_pos
  suffices Even m by
    rw [hplace]
    exact (even_block.mul_left k).add this
  -- a midpoint inside the block is a half of the spacing
  have hinside : ∀ j, i = k * block + j → k = 0 ∨ block ≤ j → j + 1 ≤ 2 * block → Even m := by
    intro j hij hj hj'
    rw [hij, Nat.add_assoc, unitsAt_in_block hj (by omega), unitsAt_in_block (by omega) hj'] at h
    rw [hround]
    refine even_quotientHalfEven (j := j) (Nat.mul_pos hd (Nat.two_pow_pos k)) ?_
    rw [h]
    ring
  rcases hi with rfl | hi
  · rcases Nat.lt_or_ge m (2 * block) with hlt | hge
    · exact hinside m hplace hblock hlt
    · obtain rfl : m = 2 * block := Nat.le_antisymm hm hge
      exact even_two_mul block
  · by_cases hstart : m = block
    · rw [hstart]
      exact even_block
    · have hone : 1 ≤ m := by
        rcases hblock with rfl | hge
        · omega
        · omega
      exact hinside (m - 1) (by omega) (by omega) (by omega)

/-! ### What is found is nearest -/

variable {n d : ℕ} {r p : Rung} {q : ℚ}

theorem index_nearest_le (n d : ℕ) : (nearest n d).index ≤ place n d := by
  rw [index_nearest]
  exact min_le_left _ _

/-- Below infinity the rung found is the place found. -/
theorem index_nearest_of_lt (h : nearest n d < p) : (nearest n d).index = place n d := by
  have hp := p.index_le
  have hindex := index_nearest n d
  rw [lt_iff] at h
  have hinf : infinity.index = 0x7FF0000000000000 := rfl
  omega

/-- The quotient is not beyond the midpoint between its rung and the next one up. -/
theorem two_mul_le_of_nearest_lt (hd : 0 < d) (h : nearest n d < p) :
    2 * n ≤ d * (unitsAt (nearest n d).index + unitsAt ((nearest n d).index + 1)) ∧
      unitsAt ((nearest n d).index + 1) ≤ p.units := by
  rw [units_eq_unitsAt]
  refine ⟨?_, unitsAt_strictMono.monotone (lt_iff.mp h)⟩
  rw [index_nearest_of_lt h]
  exact two_mul_le n hd

/-- The quotient is not below the midpoint between its rung and the next one down. -/
theorem exists_le_two_mul_of_lt_nearest (hd : 0 < d) (h : p < nearest n d) :
    ∃ i, i + 1 = (nearest n d).index ∧ p.units ≤ unitsAt i ∧
      d * (unitsAt i + (nearest n d).units) ≤ 2 * n := by
  rw [lt_iff] at h
  obtain ⟨i, hi⟩ : ∃ i, i + 1 = (nearest n d).index := ⟨(nearest n d).index - 1, by omega⟩
  have hplace := index_nearest_le n d
  refine ⟨i, hi, ?_, ?_⟩
  · rw [units_eq_unitsAt]
    exact unitsAt_strictMono.monotone (by omega)
  · rw [units_eq_unitsAt, ← hi]
    exact le_two_mul n hd (by omega)

/-- Which of two numbers is nearer is read off their midpoint. -/
theorem abs_sub_le_abs_sub {a b : ℚ} (h : a < b) : |q - a| ≤ |q - b| ↔ 2 * q ≤ a + b := by
  rw [← sq_le_sq]
  constructor <;> intro hle <;> nlinarith

theorem abs_sub_lt_abs_sub {a b : ℚ} (h : a < b) : |q - a| < |q - b| ↔ 2 * q < a + b := by
  rw [← sq_lt_sq]
  constructor <;> intro hlt <;> nlinarith

/-- A quotient in units, compared with a sum of units. -/
theorem two_mul_div_le {a b : ℕ} (hd : 0 < d) :
    2 * (n / d : ℚ) ≤ a + b ↔ 2 * n ≤ d * (a + b) := by
  have hd' : (0 : ℚ) < d := by exact_mod_cast hd
  rw [← mul_div_assoc, div_le_iff₀ hd', mul_comm _ (d : ℚ)]
  exact_mod_cast Iff.rfl

theorem le_two_mul_div {a b : ℕ} (hd : 0 < d) :
    (a + b : ℚ) ≤ 2 * (n / d) ↔ d * (a + b) ≤ 2 * n := by
  have hd' : (0 : ℚ) < d := by exact_mod_cast hd
  rw [← mul_div_assoc, le_div_iff₀ hd', mul_comm _ (d : ℚ)]
  exact_mod_cast Iff.rfl

/-- No rung is nearer than the one that is found. -/
theorem abs_sub_nearest_le (n : ℕ) (hd : 0 < d) (p : Rung) :
    |(n / d : ℚ) - (nearest n d).units| ≤ |(n / d : ℚ) - p.units| := by
  rcases lt_trichotomy (nearest n d) p with h | rfl | h
  · rw [abs_sub_le_abs_sub (by exact_mod_cast units_lt_units.mpr h), two_mul_div_le hd]
    obtain ⟨hmid, hnext⟩ := two_mul_le_of_nearest_lt hd h
    calc 2 * n ≤ _ := hmid
      _ ≤ d * ((nearest n d).units + p.units) := by
        rw [units_eq_unitsAt (nearest n d)]
        gcongr
  · exact le_rfl
  · rw [← not_lt, abs_sub_lt_abs_sub (by exact_mod_cast units_lt_units.mpr h), not_lt,
      le_two_mul_div hd]
    obtain ⟨i, -, hi, hmid⟩ := exists_le_two_mul_of_lt_nearest hd h
    calc d * (p.units + (nearest n d).units) ≤ d * (unitsAt i + (nearest n d).units) := by gcongr
      _ ≤ 2 * n := hmid

/-- Numbers at the same distance have their midpoint there. -/
theorem two_mul_eq_of_abs_sub_eq {a b : ℚ} (h : |q - a| = |q - b|) (hne : a ≠ b) : 2 * q = a + b := by
  rcases abs_eq_abs.mp h with h | h
  · exact absurd (by linarith) hne
  · linarith

/-- Where another rung is as near as the one that is found, the one that is found is even. -/
theorem even_nearest (hd : 0 < d) (hne : p ≠ nearest n d)
    (h : 2 * n = d * ((nearest n d).units + p.units)) : Even (nearest n d).index := by
  rcases lt_or_gt_of_ne hne with hlt | hgt
  · obtain ⟨i, hi, hp, hmid⟩ := exists_le_two_mul_of_lt_nearest hd hlt
    have hat : (nearest n d).units = unitsAt (i + 1) := by rw [units_eq_unitsAt, hi]
    rcases (index_nearest_le n d).eq_or_lt with hplace | hcut
    · rw [hplace] at hi ⊢
      refine even_place hd (Or.inr hi) (le_antisymm ?_ (hat ▸ hmid))
      rw [h, ← hat, Nat.add_comm]
      gcongr
    · -- cut off at infinity
      have hinfinity : (nearest n d).index = infinity.index := by
        rw [index_nearest] at hcut ⊢
        exact min_eq_right (le_of_not_ge fun hle => hcut.ne (min_eq_left hle))
      rw [hinfinity]
      exact even_index_infinity
  · obtain ⟨hmid, hnext⟩ := two_mul_le_of_nearest_lt hd hgt
    rw [index_nearest_of_lt hgt] at hmid hnext ⊢
    refine even_place hd (Or.inl rfl) (le_antisymm hmid ?_)
    rw [h, units_eq_unitsAt (nearest n d), index_nearest_of_lt hgt]
    gcongr

/-- What is found is the correct rounding. -/
theorem isNearest_nearest (n : ℕ) (hd : 0 < d) : (nearest n d).IsNearest (n / d) where
  le_abs := abs_sub_nearest_le n hd
  even p hne heq := by
    have hunits : ((nearest n d).units : ℚ) ≠ p.units := fun h =>
      hne (units_injective (by exact_mod_cast h)).symm
    have hmid := two_mul_eq_of_abs_sub_eq heq.symm hunits
    exact even_nearest hd hne
      (le_antisymm ((two_mul_div_le hd).mp hmid.le) ((le_two_mul_div hd).mp hmid.ge))

/-! ### No other rung is -/

/-- A rung between two others that are equally near is nearer than both. -/
theorem abs_sub_lt_of_between {a b c : ℚ} (hac : a < c) (hcb : c < b) (h : |q - a| = |q - b|) :
    |q - c| < |q - a| := by
  have hmid := two_mul_eq_of_abs_sub_eq h (hac.trans hcb).ne
  rw [abs_of_nonneg (by linarith : 0 ≤ q - a), abs_lt]
  constructor <;> linarith

/-- Two even rungs are not next to each other. -/
theorem exists_between_of_even (h : r < p) (hr : Even r.index) (hp : Even p.index) :
    ∃ c, r < c ∧ c < p := by
  rw [lt_iff] at h
  have hle := p.index_le
  rw [Nat.even_iff] at hr hp
  refine ⟨⟨r.index + 1, by omega⟩, ?_, ?_⟩
  · rw [lt_iff]
    exact Nat.lt_succ_self _
  · rw [lt_iff]
    show r.index + 1 < p.index
    omega

/-- There is only one correct rounding. -/
theorem IsNearest.unique (hr : r.IsNearest q) (hp : p.IsNearest q) : r = p := by
  wlog hlt : r < p generalizing r p
  · rcases eq_or_lt_of_le (not_lt.mp hlt) with heq | hgt
    · exact heq.symm
    · exact (this hp hr hgt).symm
  have heq : |q - r.units| = |q - p.units| := le_antisymm (hr.le_abs p) (hp.le_abs r)
  obtain ⟨c, hrc, hcp⟩ := exists_between_of_even hlt (hr.even p hlt.ne' heq.symm)
    (hp.even r hlt.ne heq)
  have hrc' : (r.units : ℚ) < c.units := by exact_mod_cast units_lt_units.mpr hrc
  have hcp' : (c.units : ℚ) < p.units := by exact_mod_cast units_lt_units.mpr hcp
  exact absurd (hr.le_abs c) (abs_sub_lt_of_between hrc' hcp' heq).not_ge

/-- A rung is its own correct rounding. -/
theorem isNearest_units (r : Rung) : r.IsNearest r.units := by
  simpa using isNearest_nearest r.units one_pos

end Rung

end TokenBucket
