import TokenBucket.Proofs.Bucket.Balance
import Mathlib.Algebra.Order.Field.Rat
import Mathlib.Data.Rat.Cast.Order
import Mathlib.Tactic.FieldSimp
import Mathlib.Tactic.Linarith

/-!
# Draws without rounding

Where no operation of a draw rounds, the bucket is what one thinks of: a level that rises at the rate up
to the capacity and falls by what is taken. The level is a rational number and a function of the record
and the time alone (`Policy.level`). A draw finds the level of its instant, and what it leaves and what it
takes add up to that.

## Main definitions

* `Binary64.worth`: what a number is worth.
* `Draw.IsExact`: no operation of a draw rounds.
* `Policy.level`: the level of a bucket at an instant.

## Main results

* `Draw.IsExact.worth_available`: what an exact draw finds.
* `Draw.IsExact.worth_settle`: what it leaves and what it takes.
* `Policy.level_some_later`, `Policy.capacity_le_level_some_add`: how far the level rises in some time.
* `KeySpace.worth_available_request`: an exact draw under a policy finds the level of its instant.
-/

namespace TokenBucket

open Binary64

/-! ### What a number is worth -/

namespace Binary64

/-- What a number is worth, as a rational number. -/
def worth (x : Binary64) : ℚ := x.units / Rung.unitsPerOne

theorem unitsPerOne_cast_pos : (0 : ℚ) < Rung.unitsPerOne := by exact_mod_cast Rung.unitsPerOne_pos

theorem worth_number (r : Rung) : (number false r).worth = r.units / Rung.unitsPerOne := by
  rw [worth, units_number, Int.cast_natCast]

theorem worth_nonneg (r : Rung) : 0 ≤ (number false r).worth := by
  rw [worth_number]
  exact div_nonneg (Nat.cast_nonneg _) unitsPerOne_cast_pos.le

theorem worth_le_worth {r q : Rung} (h : r ≤ q) : (number false r).worth ≤ (number false q).worth := by
  rw [worth_number, worth_number]
  exact div_le_div_of_nonneg_right (by exact_mod_cast Rung.units_le_units.mpr h)
    unitsPerOne_cast_pos.le

theorem worth_pos {r : Rung} (h : .zero < r) : 0 < (number false r).worth := by
  have hunits : 0 < r.units := by
    rw [← Rung.units_zero]
    exact Rung.units_lt_units.mpr h
  rw [worth_number]
  exact div_pos (by exact_mod_cast hunits) unitsPerOne_cast_pos

/-- Numbers without a sign are told apart by their worth. -/
theorem number_eq_of_worth_eq {r q : Rung} (h : (number false r).worth = (number false q).worth) :
    number false r = number false q := by
  rw [worth_number, worth_number, div_left_inj' unitsPerOne_cast_pos.ne', Nat.cast_inj] at h
  rw [Rung.units_injective h]

/-- Capping takes the lesser worth. -/
theorem worth_capped (r q : Rung) :
    ((number false r).capped (number false q)).worth =
      min (number false r).worth (number false q).worth := by
  rw [capped_number]
  rcases le_total r q with h | h
  · rw [min_eq_left h, min_eq_left (worth_le_worth h)]
  · rw [min_eq_right h, min_eq_right (worth_le_worth h)]

/-- An integer of at most 53 bits is worth itself. -/
theorem worth_ofInt {n : ℤ} (h : n.natAbs ≤ 2 * Rung.block) : (ofInt n).worth = n := by
  rw [worth, units_ofInt h, Int.cast_mul, Int.cast_natCast,
    mul_div_cancel_right₀ _ unitsPerOne_cast_pos.ne']

end Binary64

/-! ### Exact draws -/

namespace Draw

/-- The record that a draw refills: the one it meets, or a fresh one. -/
def refills (d : Draw) (held : Option Record) : Record := held.getD (.fresh d.capacity d.now)

/-- The milliseconds for which a draw refills. -/
def millis (d : Draw) (held : Option Record) : ℤ := (d.refills held).elapsedMillis d.now

/-- No operation of a draw rounds: neither the conversions of its integers to doubles, nor the division,
the product and the sum of the refill, nor the difference if the tokens are taken. -/
structure IsExact (d : Draw) (held : Option Record) : Prop where
  capacity : (Binary64.ofInt d.capacity.toInt).worth = d.capacity.toInt
  demand : (Binary64.ofInt d.requested.toInt).worth = d.requested.toInt
  millis : (Binary64.ofInt (d.millis held)).worth = d.millis held
  seconds : (Binary64.ofInt (d.millis held) / Binary64.ofInt 1000).worth =
    (Binary64.ofInt (d.millis held)).worth / (Binary64.ofInt 1000).worth
  inflow : (Binary64.ofInt (d.millis held) / Binary64.ofInt 1000 * d.rate).worth =
    (Binary64.ofInt (d.millis held) / Binary64.ofInt 1000).worth * d.rate.worth
  total : ((d.refills held).tokens + Binary64.ofInt (d.millis held) / Binary64.ofInt 1000 * d.rate).worth =
    (d.refills held).tokens.worth +
      (Binary64.ofInt (d.millis held) / Binary64.ofInt 1000 * d.rate).worth
  rest : Binary64.ofInt d.requested.toInt ≤ d.available held →
    (d.available held - Binary64.ofInt d.requested.toInt).worth =
      (d.available held).worth - (Binary64.ofInt d.requested.toInt).worth

variable {d : Draw} {held : Option Record}

theorem refills_isUnsigned (hd : d.IsValid) (hheld : ∀ r ∈ held, r.IsUnsigned) :
    (d.refills held).IsUnsigned := by
  cases held with
  | none => exact ⟨_, ofInt_capacity hd.one_le_capacity⟩
  | some r => exact hheld r rfl

/-- An exact draw finds what was held and what flows in, up to the capacity. -/
theorem IsExact.worth_available (h : d.IsExact held) (hd : d.IsValid)
    (hheld : ∀ r ∈ held, r.IsUnsigned) :
    (d.available held).worth = min (d.capacity.toInt : ℚ)
      ((d.refills held).tokens.worth + d.rate.worth * d.millis held / 1000) := by
  obtain ⟨t, ht⟩ := refills_isUnsigned hd hheld
  have htotal : ((d.refills held).tokens +
      Binary64.ofInt (d.millis held) / Binary64.ofInt 1000 * d.rate).worth =
      (d.refills held).tokens.worth + d.rate.worth * d.millis held / 1000 := by
    rw [h.total, h.inflow, h.seconds, h.millis, worth_ofInt (n := 1000) (by decide)]
    push_cast
    ring
  have huncapped := Record.uncapped_eq ht hd.rate_lt d.now
  rw [← hd.rate_eq] at huncapped
  change (d.refills held).tokens + Binary64.ofInt (d.millis held) / Binary64.ofInt 1000 * d.rate = _
    at huncapped
  rw [min_comm, ← htotal, ← h.capacity]
  change (((d.refills held).tokens +
    Binary64.ofInt (d.millis held) / Binary64.ofInt 1000 * d.rate).capped _).worth = _
  rw [huncapped, ofInt_capacity hd.one_le_capacity, worth_capped]

/-- What an exact draw leaves and what it takes add up to what it has found. -/
theorem IsExact.worth_settle (h : d.IsExact held) :
    (d.settle held).tokens.worth +
        (if (d.settle held).isGranted then (d.requested.toInt : ℚ) else 0) =
      (d.available held).worth := by
  unfold settle
  simp only
  split
  · next hlook => simp [hlook, Settlement.tokens, Settlement.isGranted]
  · split
    · next hle =>
      simp only [Settlement.tokens, Settlement.isGranted, if_true]
      rw [h.rest hle, h.demand]
      ring
    · simp [Settlement.tokens, Settlement.isGranted]

end Draw

/-! ### Levels -/

namespace Policy

variable (p : Policy)

theorem worth_rate_pos : 0 < p.rate.worth := by
  rw [p.rate_eq]
  exact worth_pos p.zero_lt_rate

/-- The level of a bucket at an instant, by the record that is there for it. -/
def level (held : Option Record) (now : Instant) : ℚ :=
  match held with
  | none => p.capacity.toInt
  | some r => min (p.capacity.toInt : ℚ) (r.tokens.worth + p.rate.worth * r.elapsedMillis now / 1000)

theorem level_le (held : Option Record) (now : Instant) : p.level held now ≤ p.capacity.toInt := by
  cases held with
  | none => exact le_rfl
  | some r => exact min_le_left _ _

theorem level_nonneg {held : Option Record} (hheld : ∀ r ∈ held, r.IsUnsigned) (now : Instant) :
    0 ≤ p.level held now := by
  have hcapacity : (0 : ℚ) ≤ p.capacity.toInt := by
    have := Int64.le_iff_toInt_le.mp p.zero_le_capacity
    rw [Int64.toInt_zero] at this
    exact_mod_cast this
  cases held with
  | none => exact hcapacity
  | some r =>
    obtain ⟨t, ht⟩ := hheld r rfl
    refine le_min hcapacity (add_nonneg ?_ ?_)
    · rw [ht]
      exact worth_nonneg t
    · have helapsed : (0 : ℚ) ≤ r.elapsedMillis now := by exact_mod_cast r.elapsedMillis_nonneg now
      exact div_nonneg (mul_nonneg p.worth_rate_pos.le helapsed) (by norm_num)

/-- What flows in from one instant to a later one. -/
def inflowBetween (now later : Instant) : ℚ :=
  p.rate.worth * ((later.toInt : ℚ) - now.toInt) / 1000

theorem inflowBetween_nonneg {now later : Instant} (h : now ≤ later) :
    0 ≤ p.inflowBetween now later := by
  have hle : (now.toInt : ℚ) ≤ later.toInt := by exact_mod_cast Int64.le_iff_toInt_le.mp h
  exact div_nonneg (mul_nonneg p.worth_rate_pos.le (sub_nonneg.mpr hle)) (by norm_num)

theorem inflowBetween_add (now middle later : Instant) :
    p.inflowBetween now middle + p.inflowBetween middle later = p.inflowBetween now later := by
  unfold inflowBetween
  ring

variable {p} {r : Record} {now later : Instant}

/-- While a record is there the level rises by what flows in, up to the capacity. -/
theorem level_some_later (hat : r.refilledAt ≤ now) (h : now ≤ later) :
    p.level (some r) later =
      min (p.capacity.toInt : ℚ) (p.level (some r) now + p.inflowBetween now later) := by
  have hflow := p.inflowBetween_nonneg h
  have helapsed : (r.elapsedMillis later : ℚ) =
      r.elapsedMillis now + ((later.toInt : ℚ) - now.toInt) := by
    rw [Int64.le_iff_toInt_le] at hat h
    have : r.elapsedMillis later = r.elapsedMillis now + (later.toInt - now.toInt) := by
      unfold Record.elapsedMillis
      omega
    exact_mod_cast this
  have hsum : r.tokens.worth + p.rate.worth * r.elapsedMillis later / 1000 =
      r.tokens.worth + p.rate.worth * r.elapsedMillis now / 1000 + p.inflowBetween now later := by
    rw [helapsed, inflowBetween]
    ring
  simp only [level]
  rw [hsum, ← min_add_add_right, ← min_assoc, min_eq_left (le_add_of_nonneg_right hflow)]

/-- The level that a record of the very instant tells of. -/
theorem level_some_self (x : Binary64) :
    p.level (some ⟨x, now⟩) now = min (p.capacity.toInt : ℚ) x.worth := by
  simp [level, Record.elapsedMillis]

/-- A record that has been left alone for the idle time was on the way to a full bucket. -/
theorem capacity_le_level_some_add
    (hidle : 1000 * (p.capacity.toInt : ℚ) ≤ p.rate.worth * p.idle.millis) (hr : r.IsUnsigned)
    (h : now ≤ later) (hlater : r.refilledAt.toInt + p.idle.millis ≤ later.toInt) :
    (p.capacity.toInt : ℚ) ≤ p.level (some r) now + p.inflowBetween now later := by
  have hflow := p.inflowBetween_nonneg h
  have htokens : 0 ≤ r.tokens.worth := by
    obtain ⟨t, ht⟩ := hr
    rw [ht]
    exact worth_nonneg t
  have hsince : (p.idle.millis : ℚ) ≤ r.elapsedMillis now + ((later.toInt : ℚ) - now.toInt) := by
    have helapsed : (p.idle.millis : ℤ) ≤ r.elapsedMillis now + (later.toInt - now.toInt) := by
      rw [Record.elapsedMillis]
      omega
    exact_mod_cast helapsed
  have hrate := mul_le_mul_of_nonneg_left hsince p.worth_rate_pos.le
  simp only [level]
  rw [← min_add_add_right]
  refine le_min (by linarith) ?_
  rw [inflowBetween]
  linarith

end Policy

/-- An exact draw under a policy finds the level of its instant. -/
theorem KeySpace.worth_available_request (space : KeySpace) (p : Policy) (key : String)
    (now : Instant) {n : Int64} (hn : 0 ≤ n) {held : Option Record} (hheld : ∀ r ∈ held, r.IsUnsigned)
    (hexact : (space.request p key now n).IsExact held) :
    ((space.request p key now n).available held).worth = p.level held now := by
  rw [hexact.worth_available (space.request_isValid p key now hn) hheld]
  cases held with
  | none =>
    have hcapacity := hexact.capacity
    have hmillis : (space.request p key now n).millis none = 0 := by
      simp [Draw.millis, Draw.refills, Record.fresh, Record.elapsedMillis]
    rw [hmillis]
    change min _ ((Binary64.ofInt p.capacity.toInt).worth + _) = _
    rw [show (Binary64.ofInt p.capacity.toInt).worth = p.capacity.toInt from hcapacity]
    simp [Policy.level, KeySpace.request]
  | some r => rfl

end TokenBucket
