import TokenBucket.Binary64.Rung
import Mathlib.Order.Monotone.Basic
import Mathlib.Tactic.Linarith
import Mathlib.Tactic.Ring

/-!
# Rounding to the ladder

`Rung.nearest` finds a rung by a shift and one rounding of a quotient. This file shows that the rung so
found is indeed nearest, in the form from which everything else follows: the quotient lies between the
two midpoints that separate the rung from its neighbours (`Rung.two_mul_le`, `Rung.le_two_mul`). Hence
rounding depends on the quotient alone, is monotone, leaves every rung where it is, and sends whatever
lies strictly between two midpoints to the rung between them.

To have a neighbour above every rung, the ladder is continued past infinity by the same formula
(`Rung.unitsAt`); `Rung.place` is the place found on this longer ladder, and `Rung.nearest` cuts it off.

## Main definitions

* `Rung.unitsAt`, `Rung.place`.
* The order of the ladder, as a `LinearOrder` on `Rung`.

## Main results

* `Rung.unitsAt_strictMono`, `Rung.units_le_units`: higher rungs are worth more.
* `Rung.nearest_le_nearest`: rounding is monotone.
* `Rung.nearest_units`: a rung is its own rounding.
* `Rung.nearest_eq_of_between`: what lies between the two midpoints around a rung rounds to it.
-/

namespace TokenBucket

/-! ### Quotients rounded half to even -/

/-- The rounded quotient is at most one half away from the exact one. -/
theorem quotientHalfEven_bounds {n d : ℕ} (hd : 0 < d) :
    2 * n ≤ d * (2 * quotientHalfEven n d + 1) ∧ d * (2 * quotientHalfEven n d) ≤ 2 * n + d := by
  have hn : d * (n / d) + n % d = n := Nat.div_add_mod n d
  have hr : n % d < d := Nat.mod_lt n hd
  have hround : quotientHalfEven n d = n / d ∧ 2 * (n % d) ≤ d ∨
      quotientHalfEven n d = n / d + 1 ∧ d ≤ 2 * (n % d) := by
    rw [quotientHalfEven]
    grind
  have htwice : d * (2 * (n / d)) = 2 * (d * (n / d)) := Nat.mul_left_comm d 2 _
  rcases hround with ⟨h, hrest⟩ | ⟨h, hrest⟩ <;> rw [h] <;> simp only [Nat.mul_add] <;> omega

/-- Rounding a quotient depends on its value alone. -/
theorem quotientHalfEven_mul_right (n d : ℕ) {k : ℕ} (hk : 0 < k) :
    quotientHalfEven (n * k) (d * k) = quotientHalfEven n d := by
  simp only [quotientHalfEven, Nat.mul_div_mul_right _ _ hk, Nat.mul_mod_mul_right, ← Nat.mul_assoc,
    Nat.mul_lt_mul_right hk]

namespace Rung

/-! ### The ladder continued past infinity -/

/-- The worth of the `i`-th place of the ladder, continued past infinity by the same formula. -/
def unitsAt (i : ℕ) : ℕ :=
  if i < block then i else (block + i % block) * 2 ^ (i / block - 1)

theorem units_eq_unitsAt (r : Rung) : r.units = unitsAt r.index := rfl

theorem block_pos : 0 < block := by decide

theorem block_eq : block = 2 ^ 52 := by decide

theorem unitsPerOne_pos : 0 < unitsPerOne := by decide +kernel

/-- Below the second block places are worth their number. -/
theorem unitsAt_of_lt {i : ℕ} (h : i < 2 * block) : unitsAt i = i := by
  rw [unitsAt]
  split
  · rfl
  · have hdiv : i / block = 1 := by rw [Nat.div_eq_iff block_pos]; omega
    have hmod : block + i % block = i := by
      have := Nat.div_add_mod i block
      rw [hdiv] at this
      omega
    rw [hdiv, hmod]
    simp

/-- A block starts where the block below it would end, at twice the spacing. -/
theorem unitsAt_block (k : ℕ) {m : ℕ} (h : block ≤ m) (h' : m ≤ 2 * block) :
    unitsAt (k * block + m) = m * 2 ^ k := by
  have hpos := block_pos
  have hge : ¬ k * block + m < block := by
    have : 0 ≤ k * block := Nat.zero_le _
    omega
  rw [unitsAt, if_neg hge]
  rcases Nat.lt_or_ge m (2 * block) with hlt | hge'
  · have hdiv : (k * block + m) / block = k + 1 := by
      rw [Nat.div_eq_iff hpos, Nat.add_mul]
      omega
    have hmod : (k * block + m) % block = m - block := by
      rw [Nat.mul_add_mod', Nat.mod_eq_sub_mod h, Nat.mod_eq_of_lt (by omega)]
    rw [hdiv, hmod, Nat.add_sub_cancel, Nat.add_sub_cancel' h]
  · obtain rfl : m = 2 * block := Nat.le_antisymm h' hge'
    have hdiv : (k * block + 2 * block) / block = k + 2 := by
      rw [← Nat.add_mul, Nat.mul_div_cancel _ hpos]
    have hmod : (k * block + 2 * block) % block = 0 := by
      rw [← Nat.add_mul, Nat.mul_mod_left]
    rw [hdiv, hmod, Nat.add_zero, show k + 2 - 1 = k + 1 from rfl]
    ring

/-- Every place past the first block is a block and a position in it. -/
theorem exists_block {i : ℕ} (h : block ≤ i) :
    ∃ k m, block ≤ m ∧ m < 2 * block ∧ i = k * block + m := by
  have hpos := block_pos
  have hone : 1 ≤ i / block := (Nat.one_le_div_iff hpos).mpr h
  refine ⟨i / block - 1, block + i % block, by omega, ?_, ?_⟩
  · have := Nat.mod_lt i hpos
    omega
  · have hmul : (i / block - 1) * block + block = i / block * block := by
      rw [← Nat.succ_mul, Nat.succ_eq_add_one, Nat.sub_add_cancel hone]
    have := Nat.div_add_mod' i block
    omega

/-- The first block starts where the places below it end. -/
theorem unitsAt_of_le {i : ℕ} (h : i ≤ 2 * block) : unitsAt i = i := by
  rcases Nat.lt_or_ge i block with hlt | hge
  · exact unitsAt_of_lt (by omega)
  · simpa using unitsAt_block 0 hge h

theorem unitsAt_lt_succ (i : ℕ) : unitsAt i < unitsAt (i + 1) := by
  rcases Nat.lt_or_ge i block with h | h
  · rw [unitsAt_of_lt (by omega), unitsAt_of_lt (by omega)]
    exact Nat.lt_succ_self i
  · obtain ⟨k, m, hm, hm', rfl⟩ := exists_block h
    rw [unitsAt_block k hm (by omega), Nat.add_assoc, unitsAt_block k (by omega) (by omega)]
    exact Nat.mul_lt_mul_of_pos_right (Nat.lt_succ_self m) (Nat.two_pow_pos k)

/-- Higher places are worth more. -/
theorem unitsAt_strictMono : StrictMono unitsAt := strictMono_nat_of_lt_succ unitsAt_lt_succ

/-! ### Where rounding arrives -/

/-- The place on the longer ladder at which `Rung.nearest` arrives before it is cut off. -/
def place (n d : ℕ) : ℕ :=
  let shift := (n / d).log2 - 52
  shift * block + quotientHalfEven n (d * 2 ^ shift)

theorem index_nearest (n d : ℕ) : (nearest n d).index = min (place n d) infinity.index := rfl

/-- The place of a quotient: a block, and the quotient rounded to a multiple of its spacing. Only in
the lowest block may the position lie below the start of the block. -/
theorem exists_place (n : ℕ) {d : ℕ} (hd : 0 < d) :
    ∃ k m, place n d = k * block + m ∧ m ≤ 2 * block ∧
      (k = 0 ∨ block ≤ m ∧ d * 2 ^ k * block ≤ n) ∧
      2 * n ≤ d * 2 ^ k * (2 * m + 1) ∧ d * 2 ^ k * (2 * m) ≤ 2 * n + d * 2 ^ k ∧
      m = quotientHalfEven n (d * 2 ^ k) := by
  set k := (n / d).log2 - 52 with hk
  set m := quotientHalfEven n (d * 2 ^ k) with hm
  have hD : 0 < d * 2 ^ k := Nat.mul_pos hd (Nat.two_pow_pos k)
  obtain ⟨hup, hdown⟩ := quotientHalfEven_bounds (n := n) hD
  rw [← hm] at hup hdown
  have hlt : n < d * 2 ^ k * (2 * block) := by
    have hlog : n / d < 2 ^ ((n / d).log2 + 1) := Nat.lt_log2_self
    have hexp : 2 ^ ((n / d).log2 + 1) ≤ 2 ^ (k + 53) :=
      Nat.pow_le_pow_right Nat.zero_lt_two (by omega)
    have := (Nat.div_lt_iff_lt_mul hd).mp (hlog.trans_le hexp)
    rw [block_eq]
    calc n < 2 ^ (k + 53) * d := this
      _ = d * 2 ^ k * (2 * 2 ^ 52) := by ring
  refine ⟨k, m, rfl, ?_, ?_, hup, hdown, hm⟩
  · have : d * 2 ^ k * (2 * m) < d * 2 ^ k * (2 * (2 * block) + 1) := by linarith
    have := Nat.lt_of_mul_lt_mul_left this
    omega
  · rcases Nat.eq_zero_or_pos k with h0 | hpos
    · exact Or.inl h0
    · have hne : n / d ≠ 0 := by
        intro h0
        rw [h0] at hk
        simp at hk
        omega
      have hge : d * 2 ^ k * block ≤ n := by
        have hlog : 2 ^ (n / d).log2 ≤ n / d := Nat.log2_self_le hne
        have hsum : (n / d).log2 = k + 52 := by omega
        rw [hsum, Nat.le_div_iff_mul_le hd] at hlog
        rw [block_eq]
        calc d * 2 ^ k * 2 ^ 52 = 2 ^ (k + 52) * d := by ring
          _ ≤ n := hlog
      refine Or.inr ⟨?_, hge⟩
      have : d * 2 ^ k * (2 * block) ≤ d * 2 ^ k * (2 * m + 1) := by linarith
      have := Nat.le_of_mul_le_mul_left this hD
      omega

/-- The quotient is not beyond the midpoint above its place. -/
theorem two_mul_le (n : ℕ) {d : ℕ} (hd : 0 < d) :
    2 * n ≤ d * (unitsAt (place n d) + unitsAt (place n d + 1)) := by
  obtain ⟨k, m, hplace, hm, hlow, hup, -⟩ := exists_place n hd
  have hat : unitsAt (k * block + m) = m * 2 ^ k := by
    rcases hlow with rfl | ⟨hge, -⟩
    · simpa using unitsAt_of_le hm
    · exact unitsAt_block k hge hm
  have hsucc : (m + 1) * 2 ^ k ≤ unitsAt (k * block + m + 1) := by
    rcases Nat.lt_or_ge m (2 * block) with hlt | hge
    · rcases hlow with rfl | ⟨hge, -⟩
      · simpa using (unitsAt_of_le (i := m + 1) (by omega)).ge
      · rw [Nat.add_assoc, unitsAt_block k (by omega) (by omega)]
    · obtain rfl : m = 2 * block := Nat.le_antisymm hm hge
      have hshift : k * block + 2 * block + 1 = (k + 1) * block + (block + 1) := by ring
      have hblock : 1 ≤ block := block_pos
      rw [hshift, unitsAt_block (k + 1) (by omega) (by omega), Nat.pow_succ,
        ← Nat.mul_assoc, Nat.mul_right_comm]
      exact Nat.mul_le_mul_right _ (by omega)
  rw [hplace, hat]
  calc 2 * n ≤ d * 2 ^ k * (2 * m + 1) := hup
    _ = d * (m * 2 ^ k + (m + 1) * 2 ^ k) := by ring
    _ ≤ d * (m * 2 ^ k + unitsAt (k * block + m + 1)) := by gcongr

/-- The quotient is not below the midpoint under its place, nor below one farther down. -/
theorem le_two_mul (n : ℕ) {d : ℕ} (hd : 0 < d) {i : ℕ} (hi : i < place n d) :
    d * (unitsAt i + unitsAt (i + 1)) ≤ 2 * n := by
  obtain ⟨k, m, hplace, hm, hlow, -, hdown, -⟩ := exists_place n hd
  rw [hplace] at hi
  rcases Nat.lt_or_ge block m with hgt | hle
  · obtain ⟨p, rfl⟩ : ∃ p, m = p + 1 := ⟨m - 1, by omega⟩
    calc d * (unitsAt i + unitsAt (i + 1))
        ≤ d * (unitsAt (k * block + p) + unitsAt (k * block + (p + 1))) := by
          gcongr <;> exact unitsAt_strictMono.monotone (by omega)
      _ = d * (p * 2 ^ k + (p + 1) * 2 ^ k) := by
          rw [unitsAt_block k (by omega) (by omega), unitsAt_block k (by omega) hm]
      _ = d * 2 ^ k * (2 * p + 1) := by ring
      _ ≤ 2 * n := by linarith
  · rcases hlow with rfl | ⟨hge, hstart⟩
    · -- in the lowest block a place is worth its number
      have hd' : d * (2 * m) ≤ 2 * n + d := by simpa using hdown
      rw [unitsAt_of_le (by omega), unitsAt_of_le (by omega)]
      have : d * (i + (i + 1)) + d ≤ d * (2 * m) := by
        rw [← Nat.mul_succ]
        exact Nat.mul_le_mul_left d (by omega)
      omega
    · -- a block starts at a multiple of its own spacing that the quotient has reached
      obtain rfl : m = block := Nat.le_antisymm hle hge
      have hstart' : unitsAt (k * block + block) = block * 2 ^ k := unitsAt_block k le_rfl (by omega)
      calc d * (unitsAt i + unitsAt (i + 1))
          ≤ d * (block * 2 ^ k + block * 2 ^ k) := by
            rw [← hstart']
            gcongr <;> exact unitsAt_strictMono.monotone (by omega)
        _ = 2 * (d * 2 ^ k * block) := by ring
        _ ≤ 2 * n := by gcongr

/-- The place of a quotient depends on its value alone. -/
theorem place_mul_right (n d : ℕ) {k : ℕ} (hk : 0 < k) :
    place (n * k) (d * k) = place n d := by
  simp only [place, Nat.mul_div_mul_right _ _ hk, Nat.mul_right_comm d k,
    quotientHalfEven_mul_right n _ hk]

theorem place_congr {n n' d d' : ℕ} (hd : 0 < d) (hd' : 0 < d') (h : n * d' = n' * d) :
    place n d = place n' d' := by
  rw [← place_mul_right n d hd', h, Nat.mul_comm d d', place_mul_right n' d' hd]

/-- Rounding is monotone. -/
theorem place_le_place {n n' d d' : ℕ} (hd : 0 < d) (hd' : 0 < d') (h : n * d' ≤ n' * d) :
    place n d ≤ place n' d' := by
  by_contra! hlt
  -- both quotients would have to be the midpoint between the two places, hence equal
  have hlow := le_two_mul n hd hlt
  have hhigh := two_mul_le n' hd'
  have heq : n * d' = n' * d := by
    refine le_antisymm h ?_
    have h1 := Nat.mul_le_mul_right d' hlow
    have h2 := Nat.mul_le_mul_right d hhigh
    nlinarith
  exact hlt.ne (place_congr hd' hd heq.symm)

theorem place_unitsAt (i : ℕ) : place (unitsAt i) 1 = i := by
  have hhigh := two_mul_le (unitsAt i) one_pos
  rcases lt_trichotomy (place (unitsAt i) 1) i with h | h | h
  · have hnext := unitsAt_strictMono.monotone (Nat.succ_le_of_lt h)
    have hcur := unitsAt_strictMono h
    simp only [Nat.succ_eq_add_one] at hnext
    omega
  · exact h
  · have hlow := le_two_mul (unitsAt i) one_pos h
    have := unitsAt_lt_succ i
    omega

/-- What lies strictly between the midpoints below and above a place arrives there. -/
theorem place_eq_of_between {n d i : ℕ} (hd : 0 < d)
    (hlow : ∀ j < i, d * (unitsAt j + unitsAt (j + 1)) < 2 * n)
    (hhigh : 2 * n < d * (unitsAt i + unitsAt (i + 1))) : place n d = i := by
  rcases lt_trichotomy (place n d) i with h | h | h
  · exact absurd (two_mul_le n hd) (hlow _ h).not_ge
  · exact h
  · exact absurd (le_two_mul n hd h) hhigh.not_ge

/-! ### The order of the ladder -/

instance : LE Rung := ⟨fun r q => r.index ≤ q.index⟩

instance : LT Rung := ⟨fun r q => r.index < q.index⟩

theorem le_iff {r q : Rung} : r ≤ q ↔ r.index ≤ q.index := Iff.rfl

theorem lt_iff {r q : Rung} : r < q ↔ r.index < q.index := Iff.rfl

theorem eq_of_index {r q : Rung} (h : r.index = q.index) : r = q := by
  cases r
  cases q
  simpa using h

instance : LinearOrder Rung where
  le_refl r := Nat.le_refl r.index
  le_trans r q t := Nat.le_trans (n := r.index) (m := q.index) (k := t.index)
  le_antisymm r q h h' := eq_of_index (Nat.le_antisymm h h')
  le_total r q := Nat.le_total r.index q.index
  lt_iff_le_not_ge r q := by simp only [le_iff, lt_iff]; omega
  toDecidableLE r q := Nat.decLe r.index q.index
  toDecidableEq := inferInstance
  toDecidableLT r q := Nat.decLt r.index q.index

theorem zero_le (r : Rung) : zero ≤ r := Nat.zero_le r.index

theorem le_infinity (r : Rung) : r ≤ infinity := r.index_le

/-- Higher rungs are worth more. -/
theorem units_le_units {r q : Rung} : r.units ≤ q.units ↔ r ≤ q :=
  unitsAt_strictMono.le_iff_le

theorem units_lt_units {r q : Rung} : r.units < q.units ↔ r < q :=
  unitsAt_strictMono.lt_iff_lt

theorem units_injective : Function.Injective units := fun _ _ h =>
  eq_of_index (unitsAt_strictMono.injective h)

@[simp] theorem units_zero : zero.units = 0 := rfl

theorem isInfinite_iff {r : Rung} : r.isInfinite = true ↔ r = infinity := by
  simp only [isInfinite, beq_iff_eq]
  exact ⟨fun h => eq_of_index h, fun h => h ▸ rfl⟩

theorem isInfinite_eq_false_iff {r : Rung} : r.isInfinite = false ↔ r < infinity := by
  rw [← Bool.not_eq_true, isInfinite_iff, lt_iff_le_and_ne]
  simp [le_infinity]

theorem isZero_iff {r : Rung} : r.isZero = true ↔ r = zero := by
  simp only [isZero, beq_iff_eq]
  exact ⟨fun h => eq_of_index h, fun h => h ▸ rfl⟩

/-! ### Rounding to a rung -/

/-- Rounding is monotone. -/
theorem nearest_le_nearest {n n' d d' : ℕ} (hd : 0 < d) (hd' : 0 < d') (h : n * d' ≤ n' * d) :
    nearest n d ≤ nearest n' d' := by
  rw [le_iff, index_nearest, index_nearest]
  exact min_le_min_right _ (place_le_place hd hd' h)

/-- Rounding depends on the value of a quotient alone. -/
theorem nearest_congr {n n' d d' : ℕ} (hd : 0 < d) (hd' : 0 < d') (h : n * d' = n' * d) :
    nearest n d = nearest n' d' :=
  le_antisymm (nearest_le_nearest hd hd' h.le) (nearest_le_nearest hd' hd h.ge)

/-- A rung is its own rounding. -/
@[simp] theorem nearest_units (r : Rung) : nearest r.units 1 = r := by
  apply eq_of_index
  rw [index_nearest, units_eq_unitsAt, place_unitsAt]
  exact min_eq_left r.index_le

/-- What does not exceed a rung does not round beyond it. -/
theorem nearest_le {n d : ℕ} {r : Rung} (hd : 0 < d) (h : n ≤ r.units * d) : nearest n d ≤ r := by
  rw [← nearest_units r]
  exact nearest_le_nearest hd one_pos (by simpa using h)

/-- What reaches a rung does not round below it. -/
theorem le_nearest {n d : ℕ} {r : Rung} (hd : 0 < d) (h : r.units * d ≤ n) : r ≤ nearest n d := by
  rw [← nearest_units r]
  exact nearest_le_nearest one_pos hd (by simpa using h)

/-- What lies strictly between the midpoints around a finite rung rounds to it. -/
theorem nearest_eq_of_between {n d : ℕ} {r : Rung} (hd : 0 < d)
    (hlow : ∀ j < r.index, d * (unitsAt j + unitsAt (j + 1)) < 2 * n)
    (hhigh : 2 * n < d * (unitsAt r.index + unitsAt (r.index + 1))) : nearest n d = r := by
  apply eq_of_index
  rw [index_nearest, place_eq_of_between hd hlow hhigh]
  exact min_eq_left r.index_le

end Rung

end TokenBucket
