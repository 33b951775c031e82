import TokenBucket.Bucket.Draw
import TokenBucket.Bucket.Policy
import TokenBucket.Wire.Request
import TokenBucket.Proofs.Binary64.Nonnegative

/-!
# Balances

A balance is a nonnegative double without a sign that does not exceed the capacity. The bucket step
computes with such numbers only, whatever record it meets, as long as that record holds a nonnegative
double itself: the inflow may overflow to infinity, but the cap brings it back, and what a grant takes
off never exceeds what is there. So the step is described here by rungs (`Draw.available_eq`,
`Draw.settle_eq`), and what it leaves is a balance of the draw's own capacity
(`Draw.settle_isBalance`), also where the record was written under another one.

## Main definitions

* `Rung.inflow`, `Rung.refilled`: what flows in, and the balance after it.
* `Binary64.IsBalance`, `Record.IsUnsigned`, `Draw.IsValid`.
* `Draw.availableRung`: the balance that a draw finds, as a rung.

## Main results

* `Record.refilled_eq`, `Draw.available_eq`, `Draw.settle_eq`.
* `Rung.refilled_le_refilled`: more tokens and more time give no smaller balance.
* `Draw.settle_isBalance`.
-/

namespace TokenBucket

open Binary64

namespace Rung

/-! ### Refilling in rungs -/

/-- The double nearest to a thousandth of a number of milliseconds. -/
def seconds (millis : ℕ) : Rung := nearest ((whole millis).units * unitsPerOne) (whole 1000).units

/-- The tokens that flow in during a number of milliseconds. -/
def inflow (rate : Rung) (millis : ℕ) : Rung :=
  nearest ((seconds millis).units * rate.units) unitsPerOne

/-- A balance some milliseconds later, up to the capacity. -/
def refilled (tokens rate capacity : Rung) (millis : ℕ) : Rung :=
  min (nearest (tokens.units + (inflow rate millis).units) 1) capacity

/-- The rung of a capacity. -/
def ofCapacity (capacity : Int64) : Rung := whole capacity.toInt.toNat

theorem units_whole_thousand : (whole 1000).units = 1000 * unitsPerOne := units_whole (by decide)

theorem units_whole_thousand_pos : 0 < (whole 1000).units := by
  rw [units_whole_thousand]
  exact Nat.mul_pos (by decide) unitsPerOne_pos

theorem seconds_le_whole (millis : ℕ) : seconds millis ≤ whole millis := by
  refine nearest_le units_whole_thousand_pos (Nat.mul_le_mul_left _ ?_)
  rw [units_whole_thousand]
  exact Nat.le_mul_of_pos_left unitsPerOne (by decide)

theorem seconds_le_seconds {m n : ℕ} (h : m ≤ n) : seconds m ≤ seconds n := by
  refine nearest_le_nearest units_whole_thousand_pos units_whole_thousand_pos ?_
  gcongr
  exact units_le_units.mpr (whole_le_whole h)

theorem inflow_le_inflow (rate : Rung) {m n : ℕ} (h : m ≤ n) : inflow rate m ≤ inflow rate n := by
  refine nearest_le_nearest unitsPerOne_pos unitsPerOne_pos ?_
  gcongr
  exact units_le_units.mpr (seconds_le_seconds h)

@[simp] theorem inflow_zero (rate : Rung) : inflow rate 0 = zero := by
  have hzero {d : ℕ} (hd : 0 < d) : nearest 0 d = zero :=
    le_antisymm (nearest_le hd (Nat.zero_le _)) (zero_le _)
  have hseconds : seconds 0 = zero := by
    rw [seconds, whole_zero, units_zero, Nat.zero_mul, hzero units_whole_thousand_pos]
  rw [inflow, hseconds, units_zero, Nat.zero_mul, hzero unitsPerOne_pos]

/-- In a second the rate flows in. -/
theorem inflow_thousand (rate : Rung) : inflow rate 1000 = rate := by
  have hseconds : seconds 1000 = whole 1 := by
    refine nearest_congr units_whole_thousand_pos one_pos ?_
    ring
  rw [inflow, hseconds, units_whole (by decide), Nat.one_mul]
  conv_rhs => rw [← nearest_units rate]
  exact nearest_congr unitsPerOne_pos one_pos (by ring)

/-- More tokens and more time give no smaller balance. -/
theorem refilled_le_refilled {t t' : Rung} (rate capacity : Rung) {m n : ℕ} (ht : t ≤ t')
    (h : m ≤ n) : refilled t rate capacity m ≤ refilled t' rate capacity n := by
  refine min_le_min_right _ (nearest_le_nearest one_pos one_pos ?_)
  gcongr
  · exact units_le_units.mpr ht
  · exact units_le_units.mpr (inflow_le_inflow rate h)

theorem refilled_le (tokens rate capacity : Rung) (millis : ℕ) :
    refilled tokens rate capacity millis ≤ capacity := min_le_right _ _

/-- A pause in which a full bucket flows in fills the bucket. -/
theorem refilled_of_le_inflow {rate capacity : Rung} {m n : ℕ} (tokens : Rung)
    (hcapacity : capacity ≤ inflow rate m) (h : m ≤ n) : refilled tokens rate capacity n = capacity := by
  refine min_eq_right (le_nearest one_pos ?_)
  have hinflow := units_le_units.mpr (hcapacity.trans (inflow_le_inflow rate h))
  omega

@[simp] theorem refilled_zero (tokens rate capacity : Rung) :
    refilled tokens rate capacity 0 = min tokens capacity := by
  rw [refilled, inflow_zero, units_zero, Nat.add_zero, nearest_units]

theorem ofCapacity_lt_infinity (capacity : Int64) : ofCapacity capacity < infinity := by
  have := capacity.toInt_lt
  exact whole_lt_infinity (by omega)

theorem zero_lt_ofCapacity {capacity : Int64} (h : 1 ≤ capacity) : zero < ofCapacity capacity := by
  have := Int64.le_iff_toInt_le.mp h
  rw [Int64.toInt_one] at this
  exact zero_lt_whole (by omega)

end Rung

/-! ### Balances and records -/

namespace Binary64

/-- The rung of a number, its sign left out. -/
def rung : Binary64 → Rung
  | .nan => .zero
  | .number _ r => r

@[simp] theorem rung_number (s : Bool) (r : Rung) : (number s r).rung = r := rfl

/-- A balance under a capacity: a number without a sign that does not exceed it. -/
def IsBalance (x : Binary64) (capacity : Int64) : Prop :=
  ∃ r : Rung, x = .number false r ∧ r ≤ .ofCapacity capacity

theorem ofInt_capacity {capacity : Int64} (h : 1 ≤ capacity) :
    ofInt capacity.toInt = number false (.ofCapacity capacity) := by
  have := Int64.le_iff_toInt_le.mp h
  rw [Int64.toInt_one] at this
  exact ofInt_of_nonneg (by omega)

/-- What flows in during a number of milliseconds, in rungs. -/
theorem ofInt_div_mul_number {millis : ℕ} (hmillis : millis ≤ 2 ^ 64) {rate : Rung}
    (hrate : rate < .infinity) :
    ofInt millis / ofInt 1000 * number false rate = number false (.inflow rate millis) := by
  have hlarge : Rung.whole millis < .infinity := Rung.whole_lt_infinity hmillis
  have hseconds : ofInt millis / ofInt 1000 = number false (.seconds millis) := by
    rw [ofInt_natCast, show (1000 : ℤ) = ((1000 : ℕ) : ℤ) from rfl, ofInt_natCast,
      div_number hlarge (Rung.whole_lt_infinity (by decide)) (Rung.zero_lt_whole (by decide))]
    rfl
  rw [hseconds, mul_number ((Rung.seconds_le_whole millis).trans_lt hlarge) hrate]
  rfl

/-- A balance is finite and lies between zero and the capacity. -/
theorem IsBalance.bounds {x : Binary64} {capacity : Int64} (hx : x.IsBalance capacity)
    (hc : 1 ≤ capacity) :
    x.isFinite = true ∧ Binary64.zero ≤ x ∧ x ≤ .ofInt capacity.toInt := by
  obtain ⟨r, rfl, hr⟩ := hx
  rw [ofInt_capacity hc]
  exact ⟨isFinite_number.mpr (hr.trans_lt (Rung.ofCapacity_lt_infinity capacity)),
    zero_le_number r, number_le_number.mpr hr⟩

end Binary64

namespace Record

/-- The record holds a number without a sign. -/
def IsUnsigned (r : Record) : Prop := ∃ t : Rung, r.tokens = .number false t

theorem isUnsigned_of_isBalance {r : Record} {capacity : Int64} (h : r.tokens.IsBalance capacity) :
    r.IsUnsigned := by
  obtain ⟨t, ht, -⟩ := h
  exact ⟨t, ht⟩

theorem elapsedMillis_nonneg (r : Record) (now : Instant) : 0 ≤ r.elapsedMillis now :=
  le_max_right _ _

theorem elapsedMillis_toNat_le (r : Record) (now : Instant) :
    (r.elapsedMillis now).toNat ≤ 2 ^ 64 := by
  have := now.toInt_lt
  have := r.refilledAt.le_toInt
  rw [elapsedMillis]
  omega

/-- The balance before it is cut off at the capacity, in rungs. -/
theorem uncapped_eq {r : Record} {t rate : Rung} (ht : r.tokens = .number false t)
    (hrate : rate < .infinity) (now : Instant) :
    r.tokens + Binary64.ofInt (r.elapsedMillis now) / Binary64.ofInt 1000 * .number false rate =
      .number false
        (.nearest (t.units + (Rung.inflow rate (r.elapsedMillis now).toNat).units) 1) := by
  have helapsed : r.elapsedMillis now = ((r.elapsedMillis now).toNat : ℤ) :=
    (Int.toNat_of_nonneg (r.elapsedMillis_nonneg now)).symm
  rw [helapsed, ofInt_div_mul_number (r.elapsedMillis_toNat_le now) hrate, ht, add_number,
    Int.toNat_natCast]

/-- The refilled balance, in rungs. -/
theorem refilled_eq {r : Record} {t rate : Rung} (ht : r.tokens = .number false t)
    (hrate : rate < .infinity) {capacity : Int64} (hc : 1 ≤ capacity) (now : Instant) :
    r.refilled (.number false rate) capacity now =
      .number false (.refilled t rate (.ofCapacity capacity) (r.elapsedMillis now).toNat) := by
  simp only [refilled]
  rw [uncapped_eq ht hrate, ofInt_capacity hc, capped_number]
  rfl

end Record

/-! ### Draws -/

/-- The record that a settlement leaves holds the balance after it. -/
theorem Settlement.tokens_of_record? {now : Instant} {settlement : Settlement} {r : Record}
    (h : settlement.record? now = some r) : r.tokens = settlement.tokens := by
  cases settlement with
  | looked => cases h
  | granted => cases h; rfl
  | denied => cases h; rfl

namespace Draw

/-- A draw with the parameters of a policy and a number of tokens that is not negative. -/
structure IsValid (d : Draw) : Prop where
  rate_eq : d.rate = .number false d.rate.rung
  rate_pos : .zero < d.rate.rung
  rate_lt : d.rate.rung < .infinity
  one_le_capacity : 1 ≤ d.capacity
  zero_le_requested : 0 ≤ d.requested

/-- The balance that a draw finds, as a rung: a bucket without a record is full. -/
def availableRung (d : Draw) : Option Record → Rung
  | none => .ofCapacity d.capacity
  | some r =>
    .refilled r.tokens.rung d.rate.rung (.ofCapacity d.capacity) (r.elapsedMillis d.now).toNat

/-- The tokens asked for, as a rung. -/
def demandRung (d : Draw) : Rung := .whole d.requested.toInt.toNat

theorem availableRung_le (d : Draw) (held : Option Record) :
    d.availableRung held ≤ .ofCapacity d.capacity := by
  cases held with
  | none => exact le_rfl
  | some r => exact Rung.refilled_le _ _ _ _

variable {d : Draw} {held held' : Option Record}

/-- How a draw is settled depends on the balance that it finds. -/
theorem settle_congr (h : d.available held = d.available held') : d.settle held = d.settle held' := by
  simp only [settle, h]

theorem available_eq (hd : d.IsValid) (hheld : ∀ r ∈ held, r.IsUnsigned) :
    d.available held = .number false (d.availableRung held) := by
  rw [available, hd.rate_eq]
  cases held with
  | none =>
    have hfresh : (Record.fresh d.capacity d.now).tokens = .number false (.ofCapacity d.capacity) :=
      ofInt_capacity hd.one_le_capacity
    have helapsed : (Record.fresh d.capacity d.now).elapsedMillis d.now = 0 := by
      simp [Record.elapsedMillis, Record.fresh]
    rw [Option.getD_none, Record.refilled_eq hfresh hd.rate_lt hd.one_le_capacity, helapsed]
    simp [availableRung]
  | some r =>
    obtain ⟨t, ht⟩ := hheld r rfl
    rw [Option.getD_some, Record.refilled_eq ht hd.rate_lt hd.one_le_capacity, availableRung, ht,
      rung_number]

/-- How a draw is settled, in rungs. -/
theorem settle_eq (hd : d.IsValid) (hheld : ∀ r ∈ held, r.IsUnsigned) :
    d.settle held =
      if d.requested = 0 then .looked (.number false (d.availableRung held))
      else if d.demandRung ≤ d.availableRung held then
        .granted (.number false
          (.nearest ((d.availableRung held).units - d.demandRung.units) 1))
      else .denied (.number false (d.availableRung held)) := by
  have hdemand : Binary64.ofInt d.requested.toInt = .number false d.demandRung := by
    have := Int64.le_iff_toInt_le.mp hd.zero_le_requested
    rw [Int64.toInt_zero] at this
    exact ofInt_of_nonneg this
  have hfinite : d.availableRung held < .infinity :=
    (d.availableRung_le held).trans_lt (Rung.ofCapacity_lt_infinity _)
  rw [settle]
  simp only [available_eq hd hheld, hdemand, number_le_number]
  split
  · rfl
  · split
    · next h => rw [sub_number hfinite h]
    · rfl

/-- What a draw leaves is a balance under its own capacity. -/
theorem settle_isBalance (hd : d.IsValid) (hheld : ∀ r ∈ held, r.IsUnsigned) :
    (d.settle held).tokens.IsBalance d.capacity := by
  have hle := d.availableRung_le held
  rw [settle_eq hd hheld]
  split
  · exact ⟨_, rfl, hle⟩
  · split
    · refine ⟨_, rfl, le_trans (Rung.nearest_le one_pos ?_) hle⟩
      rw [Nat.mul_one]
      exact Nat.sub_le _ _
    · exact ⟨_, rfl, hle⟩

end Draw

/-! ### Requests under a policy -/

namespace Policy

variable (p : Policy)

theorem rate_eq : p.rate = .number false p.rate.rung := by
  have hpos := p.rate_pos
  cases hrate : p.rate with
  | nan =>
    rw [hrate] at hpos
    exact absurd hpos.2.1 (by decide)
  | number s r =>
    cases s with
    | false => rfl
    | true =>
      rw [hrate] at hpos
      have : (0 : ℤ) < -(r.units : ℤ) := hpos.2.2
      omega

theorem zero_lt_rate : .zero < p.rate.rung := by
  have hpos := p.rate_pos
  rw [p.rate_eq] at hpos
  exact number_lt_number.mp hpos

theorem rate_lt_infinity : p.rate.rung < .infinity := by
  have hfinite := p.rate_finite
  rw [p.rate_eq] at hfinite
  exact isFinite_number.mp hfinite

theorem zero_le_capacity : 0 ≤ p.capacity := by
  have hcapacity := Int64.le_iff_toInt_le.mp p.one_le_capacity
  rw [Int64.toInt_one] at hcapacity
  rw [Int64.le_iff_toInt_le, Int64.toInt_zero]
  omega

/-- No idle expiration has more milliseconds than a year. -/
theorem idle_millis_le : p.idle.millis ≤ 31536000000 := by
  have hle : p.idle.nanoseconds ≤ 365 * 24 * 3600 * 1000000000 := p.idle_le
  rw [Duration.millis]
  omega

end Policy

theorem KeySpace.request_isValid (s : KeySpace) (p : Policy) (key : String) (now : Instant)
    {n : Int64} (hn : 0 ≤ n) : (s.request p key now n).IsValid :=
  ⟨p.rate_eq, p.zero_lt_rate, p.rate_lt_infinity, p.one_le_capacity, hn⟩

end TokenBucket
