import TokenBucket.Limiter
import TokenBucket.Wire.Encoding
import TokenBucket.Proofs.Bucket.Balance
import TokenBucket.Proofs.Decimal.Notation

/-!
# Replies that mean what was settled

In each encoding the reply to a settled draw is understood, and as a grant exactly if the draw was met.
As a flag or a truth value it carries the very balance. As a count it carries the whole part, which is
no more than the balance; rounding it back to a double does not lift it above the balance, so that it
passes the check against the capacity even where the capacity has more than 53 bits.

## Main results

* `Outcome.boundedBalance_number`: a balance passes the check unchanged.
* `Outcome.ofReply_array`: the meaning of a pair with a readable grant and balance.
* `Encoding.ofReply_reply`: every encoding is understood.
* `Limiter.decide_reply`: the decision for the reply to a settled draw.
-/

namespace TokenBucket

open Binary64

/-! ### Saturated integers -/

theorem toInt_saturateInt64 (n : ℤ) :
    (saturateInt64 n).toInt = max Int64.minValue.toInt (min n Int64.maxValue.toInt) := by
  have hmin : Int64.minValue.toInt = -2 ^ 63 := Int64.toInt_minValue
  have hmax : Int64.maxValue.toInt = 2 ^ 63 - 1 := Int64.toInt_maxValue
  rw [saturateInt64, Int64.toInt_ofInt_of_le (by omega) (by omega)]

theorem saturateInt64_le_saturateInt64 {m n : ℤ} (h : m ≤ n) : saturateInt64 m ≤ saturateInt64 n := by
  rw [Int64.le_iff_toInt_le, toInt_saturateInt64, toInt_saturateInt64]
  omega

theorem saturateInt64_nonneg {n : ℤ} (h : 0 ≤ n) : 0 ≤ saturateInt64 n := by
  have hmax : Int64.maxValue.toInt = 2 ^ 63 - 1 := Int64.toInt_maxValue
  rw [Int64.le_iff_toInt_le, toInt_saturateInt64, Int64.toInt_zero]
  omega

/-- Saturating a number that is not negative takes nothing below zero and adds nothing. -/
theorem toInt_saturateInt64_le {n : ℤ} (h : 0 ≤ n) :
    0 ≤ (saturateInt64 n).toInt ∧ (saturateInt64 n).toInt ≤ n := by
  have hmin : Int64.minValue.toInt = -2 ^ 63 := Int64.toInt_minValue
  have hmax : Int64.maxValue.toInt = 2 ^ 63 - 1 := Int64.toInt_maxValue
  rw [toInt_saturateInt64]
  omega

/-! ### The check of the balance -/

namespace Outcome

variable {capacity : Int64}

/-- A balance passes the check unchanged. -/
theorem boundedBalance_number (hc : 1 ≤ capacity) {r : Rung} (hr : r ≤ .ofCapacity capacity) :
    boundedBalance capacity (.number false r) = .ok (.number false r) := by
  have hfinite : (Binary64.number false r).isFinite = true :=
    isFinite_number.mpr (hr.trans_lt (Rung.ofCapacity_lt_infinity capacity))
  have hnonneg : ¬ Binary64.number false r < .zero := by
    rw [Binary64.zero, number_lt_number, not_lt]
    exact Rung.zero_le r
  have hslack : slack = .number false slack.rung := rfl
  have hbound : ¬ Binary64.number false (.ofCapacity capacity) + slack < .number false r := by
    rw [hslack, add_number, number_lt_number, not_lt]
    refine hr.trans (Rung.le_nearest Nat.one_pos ?_)
    rw [Nat.mul_one]
    exact Nat.le_add_right _ _
  rw [boundedBalance]
  simp only [ofInt_capacity hc, capped_number, min_eq_left hr]
  rw [if_neg]
  simp only [hfinite, hnonneg, hbound]
  decide

/-- The meaning of a pair with a grant and a balance that can be read. -/
theorem ofReply_array (hc : 1 ≤ capacity) {grant balance : Reply} {granted : Bool} {r : Rung}
    (hgrant : grantOf grant = .ok granted) (hbalance : balanceOf balance = .ok (.number false r))
    (hr : r ≤ .ofCapacity capacity) :
    ofReply capacity (.array [grant, balance]) = .ok ⟨granted, .number false r⟩ := by
  simp only [ofReply, ofPair, hgrant, hbalance]
  change Except.mapError _ ((boundedBalance capacity (.number false r)).bind _) = _
  rw [boundedBalance_number hc hr]
  rfl

theorem grantOf_flag (granted : Bool) :
    grantOf (.integer (if granted then 1 else 0)) = .ok granted := by
  cases granted <;> rfl

/-- A count of granted tokens is positive exactly if tokens were granted. -/
theorem grantOf_count (granted : Bool) (requested : Int64) :
    grantOf (.integer (if granted then max requested 1 else 0)) = .ok granted := by
  cases granted with
  | false => rfl
  | true =>
    have hone : (1 : Int64) ≤ max requested 1 := by
      rw [show max requested 1 = if requested ≤ 1 then 1 else requested from rfl]
      split
      · exact Int64.le_refl 1
      · next h => exact Int64.le_of_lt (Int64.not_le.mp h)
    have hpos : (0 : Int64) < max requested 1 := by
      rw [Int64.le_iff_toInt_le, Int64.toInt_one] at hone
      rw [Int64.lt_iff_toInt_lt, Int64.toInt_zero]
      omega
    simp [grantOf, hpos, Int64.le_of_lt hpos]

theorem balanceOf_text {x : Binary64} {text : String} (h : x.IsText text) :
    balanceOf (.text text) = .ok x := by
  simp only [balanceOf]
  rw [trimBlanks_eq_self h.plain, h.read]

end Outcome

/-! ### Encodings -/

/-- The balance that a reply in an encoding carries. -/
def Encoding.carried : Encoding → Binary64 → Binary64
  | .flag, tokens => tokens
  | .boolean, tokens => tokens
  | .count, tokens => .ofInt (saturateInt64 tokens.truncate).toInt

/-- An encoding carries no more than the balance. -/
theorem Encoding.exists_carried (e : Encoding) (r : Rung) :
    ∃ q, e.carried (.number false r) = .number false q ∧ q ≤ r := by
  cases e with
  | flag => exact ⟨r, rfl, le_rfl⟩
  | boolean => exact ⟨r, rfl, le_rfl⟩
  | count =>
    have hnonneg := truncate_number_nonneg r
    obtain ⟨hlow, hhigh⟩ := toInt_saturateInt64_le hnonneg
    refine ⟨_, ofInt_of_nonneg hlow, ?_⟩
    refine (Rung.whole_le_whole (Int.toNat_le_toNat hhigh)).trans ?_
    exact Rung.whole_div_le r

/-- Every encoding is understood, and as the grant that it was. -/
theorem Encoding.ofReply_reply (e : Encoding) {capacity requested : Int64} (hc : 1 ≤ capacity)
    {settlement : Settlement} (htokens : settlement.tokens.IsBalance capacity) :
    Outcome.ofReply capacity (e.reply requested settlement) =
      .ok ⟨settlement.isGranted, e.carried settlement.tokens⟩ := by
  obtain ⟨r, hr, hle⟩ := htokens
  obtain ⟨q, hq, hqr⟩ := e.exists_carried r
  have hfinite : r < .infinity := hle.trans_lt (Rung.ofCapacity_lt_infinity capacity)
  rw [hr, hq]
  cases e with
  | flag =>
    obtain rfl : r = q := by simpa [carried] using hq
    rw [reply, hr]
    exact Outcome.ofReply_array hc (Outcome.grantOf_flag _)
      (Outcome.balanceOf_text (isText_shortestText hfinite)) hle
  | boolean =>
    obtain rfl : r = q := by simpa [carried] using hq
    rw [reply, hr]
    exact Outcome.ofReply_array hc rfl rfl hle
  | count =>
    rw [reply, hr]
    exact Outcome.ofReply_array hc (Outcome.grantOf_count _ _) (congrArg Except.ok hq)
      (hqr.trans hle)

/-- The decision for the reply to a settled draw. -/
theorem Limiter.decide_reply (l : Limiter) (e : Encoding) (n : Int64) {settlement : Settlement}
    (htokens : settlement.tokens.IsBalance l.policy.capacity) :
    l.decide n (e.reply n settlement) =
      .ok ⟨n == 0 || settlement.isGranted,
        saturateInt64 (e.carried settlement.tokens).truncate⟩ := by
  rw [decide, e.ofReply_reply l.policy.one_le_capacity htokens]
  rfl

end TokenBucket
