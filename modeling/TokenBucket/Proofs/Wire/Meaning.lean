import TokenBucket.Proofs.Bucket.Exact
import TokenBucket.Proofs.Decimal.Grammar
import TokenBucket.Wire.Outcome
import Mathlib.Algebra.Order.Field.Power

/-!
# What replies mean

A reply is any tree of values. This file says which replies mean something, and what, without the reading
that finds it out: the reply is a pair of an item that tells whether tokens were granted (`Reply.Tells`) and
an item that gives a balance (`Reply.Gives`), and the balance is within the bounds of the bucket
(`Binary64.IsWithin`). The meaning is what the first item tells, together with the balance cut off at the
capacity. Whatever else a store answers is refused as a breach of the protocol.

The shape of the items is lost on the way. An integer, a double and a text that denote one rational number
(`Reply.Denotes`) give balances that are numerically equal, because each of them is the correct rounding of
that number (`Binary64.Rounds`); the only thing that may differ is the sign of a zero, which no comparison
notices.

## Main definitions

* `Binary64.Rounds`: a double is the correct rounding of a rational number.
* `Binary64.IsWithin`: a double is a balance that a bucket can have, up to a billionth.
* `Reply.Tells`, `Reply.Gives`, `Reply.Denotes`, `Reply.Agrees`: what items say.
* `Reply.Means`: what a reply means.

## Main results

* `Outcome.rounds_slack`: the slack of the check is the double of a billionth.
* `Outcome.grantOf_iff`, `Outcome.balanceOf_iff`, `Outcome.boundedBalance_iff`: each check by itself.
* `Reply.Denotes.exists_gives`: the balance of an item is the rounding of the number that it denotes.
* `Outcome.ofReply_iff`: which replies mean something, and what.
* `Outcome.ofReply_meaning`: the same with what follows from it.
-/

namespace TokenBucket

theorem mapError_eq_ok {ε ε' α : Type} {f : ε → ε'} {x : Except ε α} {a : α} :
    x.mapError f = .ok a ↔ x = .ok a := by
  cases x <;> simp [Except.mapError]

theorem exists_of_mapError_eq_error {ε ε' α : Type} {f : ε → ε'} {x : Except ε α} {e : ε'}
    (h : x.mapError f = .error e) : ∃ fault, f fault = e := by
  cases x with
  | error fault => exact ⟨fault, Except.error.inj h⟩
  | ok a => cases h

/-! ### Rounding under a sign -/

namespace Binary64

/-- The double is the correct rounding of a rational number. A zero may have either sign. -/
def Rounds (x : Binary64) (q : ℚ) : Prop :=
  ∃ negative r m, x = .number negative r ∧ 0 ≤ m ∧ q = (if negative then -m else m) ∧
    r.IsNearest (m * Rung.unitsPerOne)

theorem le_trans {x y z : Binary64} (hxy : x ≤ y) (hyz : y ≤ z) : x ≤ z :=
  ⟨hxy.1, hyz.2.1, hxy.2.2.trans hyz.2.2⟩

/-- Zero is rounded to zero. -/
theorem eq_zero_of_isNearest {r : Rung} {m : ℚ} (hm : m = 0)
    (h : r.IsNearest (m * Rung.unitsPerOne)) : r = .zero := by
  refine h.unique ?_
  rw [hm, zero_mul]
  simpa using Rung.isNearest_units .zero

/-- Two roundings of one number are numerically equal. -/
theorem Rounds.le {x y : Binary64} {q : ℚ} (hx : x.Rounds q) (hy : y.Rounds q) : x ≤ y := by
  obtain ⟨s, r, m, rfl, hm, hq, hr⟩ := hx
  obtain ⟨t, p, k, rfl, hk, hq', hp⟩ := hy
  refine ⟨rfl, rfl, ?_⟩
  have heq : (if s then -m else m) = if t then -k else k := hq.symm.trans hq'
  -- under different signs the number is zero
  have hzero : s ≠ t → r = .zero ∧ p = .zero := by
    intro hne
    have hsum : m + k = 0 := by
      cases s <;> cases t <;> simp at hne heq <;> linarith
    exact ⟨eq_zero_of_isNearest (by linarith) hr, eq_zero_of_isNearest (by linarith) hp⟩
  by_cases hst : s = t
  · subst hst
    have hmk : m = k := by
      cases s <;> simpa using heq
    subst hmk
    rw [hr.unique hp]
  · obtain ⟨rfl, rfl⟩ := hzero hst
    cases s <;> cases t <;> simp [units]

/-- What is numerically equal to a finite double is finite. -/
theorem isFinite_of_le_of_le {x y : Binary64} (hx : x.isFinite = true) (hxy : x ≤ y) (hyx : y ≤ x) :
    y.isFinite = true := by
  have hunits : x.units = y.units := le_antisymm hxy.2.2 hyx.2.2
  cases x with
  | nan => cases hx
  | number s r =>
    cases y with
    | nan => cases hxy.2.1
    | number t p =>
      have hsize : ∀ (b : Bool) (c : Rung), (number b c).units.natAbs = c.units := by
        intro b c
        cases b <;> simp [units]
      have hrung : r = p := Rung.units_injective (by rw [← hsize s r, hunits, hsize t p])
      rw [isFinite_number] at hx ⊢
      rwa [← hrung]

/-- A double is the rounding of what it is worth. -/
theorem rounds_worth {x : Binary64} (h : x.isFinite = true) : x.Rounds x.worth := by
  cases x with
  | nan => cases h
  | number s r =>
    refine ⟨s, r, r.units / Rung.unitsPerOne, rfl, ?_, ?_, ?_⟩
    · exact div_nonneg (Nat.cast_nonneg _) unitsPerOne_cast_pos.le
    · cases s with
      | false => exact worth_number r
      | true =>
        rw [worth, units, Int.cast_neg, Int.cast_natCast, neg_div]
        rfl
    · rw [div_mul_cancel₀ _ unitsPerOne_cast_pos.ne']
      exact r.isNearest_units

/-- The double of an integer is its rounding. -/
theorem rounds_ofInt (n : ℤ) : (ofInt n).Rounds n := by
  refine ⟨decide (n < 0), _, n.natAbs, rfl, Nat.cast_nonneg _, ?_, ?_⟩
  · rcases lt_or_ge n 0 with hn | hn
    · simp [hn, Nat.cast_natAbs, abs_of_neg hn]
    · simp [hn.not_gt, Nat.cast_natAbs, abs_of_nonneg hn]
  · have hnearest := Rung.isNearest_nearest (n.natAbs * Rung.unitsPerOne) one_pos
    rwa [Nat.cast_mul, Nat.cast_one, div_one] at hnearest

/-- A number that is rounded to a double has only that one, unless it is zero. -/
theorem Rounds.unique {x y : Binary64} {q : ℚ} (hq : 0 < q) (hx : x.Rounds q) (hy : y.Rounds q) :
    x = y := by
  have hplain {z : Binary64} (hz : z.Rounds q) :
      ∃ r, z = .number false r ∧ r.IsNearest (q * Rung.unitsPerOne) := by
    obtain ⟨negative, r, m, rfl, hm, rfl, hr⟩ := hz
    cases negative with
    | false => exact ⟨r, rfl, hr⟩
    | true => exact absurd hq (by simpa using hm)
  obtain ⟨r, rfl, hr⟩ := hplain hx
  obtain ⟨p, rfl, hp⟩ := hplain hy
  rw [hr.unique hp]

/-- The balance is finite and lies between zero and the capacity, or above it by no more than a billionth,
which is rounded to a double as the capacity is. -/
def IsWithin (tokens : Binary64) (capacity : Int64) : Prop :=
  tokens.isFinite = true ∧ zero ≤ tokens ∧
    ∃ slack : Binary64, slack.Rounds (1 / 10 ^ 9) ∧ tokens ≤ ofInt capacity.toInt + slack

/-- What is numerically equal to a balance within the bounds is within them. -/
theorem IsWithin.of_le_of_le {x y : Binary64} {capacity : Int64} (hx : x.IsWithin capacity)
    (hxy : x ≤ y) (hyx : y ≤ x) : y.IsWithin capacity := by
  obtain ⟨hfinite, hnonneg, slack, hslack, hle⟩ := hx
  exact ⟨isFinite_of_le_of_le hfinite hxy hyx, le_trans hnonneg hxy, slack, hslack, le_trans hyx hle⟩

end Binary64

namespace Numeral

/-- The text is a decimal numeral with an optional sign, which spells a rational number. -/
inductive SpellsRational : ℚ → List Char → Prop
  | signed {negative : Bool} {front body : List Char} {q : ℚ} (hsign : IsSign negative front)
      (hbody : SpellsDecimal q body) : SpellsRational (if negative then -q else q) (front ++ body)

theorem SpellsDecimal.nonneg {q : ℚ} {text : List Char} (h : SpellsDecimal q text) : 0 ≤ q := by
  cases h <;> positivity

/-- What is read from a numeral is the rounding of the number that it spells. -/
theorem SpellsRational.exists_spells {q : ℚ} {text : List Char} (h : SpellsRational q text) :
    ∃ x, Spells x text ∧ x.Rounds q := by
  cases h with
  | @signed negative front body q hsign hbody =>
    obtain ⟨d, -, rfl⟩ := exists_decimal?_iff.mpr hbody
    have hr := isNearest_ofDecimal d
    exact ⟨_, .number hsign hbody hr, negative, _, d.value, rfl, hbody.nonneg, rfl, hr⟩

end Numeral

/-! ### Items -/

namespace Reply

open Numeral

/-- The item tells whether tokens were granted: as a truth value, as a flag or a count, or by being absent
that none were. -/
inductive Tells : Reply → Bool → Prop
  | boolean (granted : Bool) : Tells (.boolean granted) granted
  | positive (count : Int64) (h : 0 < count) : Tells (.integer count) true
  | zero : Tells (.integer 0) false
  | nil : Tells .nil false

/-- The item gives a balance: as an integer, as a double, or as a float numeral that may stand between
blanks. -/
inductive Gives : Reply → Binary64 → Prop
  | integer (tokens : Int64) : Gives (.integer tokens) (.ofInt tokens.toInt)
  | double (tokens : Binary64) : Gives (.double tokens) tokens
  | text (text : String) (tokens : Binary64) (h : BetweenBlanks (Spells tokens) text.toList) :
      Gives (.text text) tokens

/-- The item denotes a rational number, exactly. -/
inductive Denotes : Reply → ℚ → Prop
  | integer (n : Int64) : Denotes (.integer n) n.toInt
  | double (x : Binary64) (h : x.isFinite = true) : Denotes (.double x) x.worth
  | text (text : String) (q : ℚ) (h : BetweenBlanks (SpellsRational q) text.toList) :
      Denotes (.text text) q

/-- Two items stand for one number: they denote the same rational number, or the balances that they give
are numerically equal. -/
def Agrees (first second : Reply) : Prop :=
  (∃ q, first.Denotes q ∧ second.Denotes q) ∨
    ∃ x y, first.Gives x ∧ second.Gives y ∧ x ≤ y ∧ y ≤ x

theorem Tells.unique {item : Reply} {granted granted' : Bool} (h : item.Tells granted)
    (h' : item.Tells granted') : granted = granted' := by
  cases h with
  | boolean => cases h'; rfl
  | positive count hpos =>
    cases h' with
    | positive => rfl
    | zero => exact absurd hpos Int64.lt_irrefl
  | zero =>
    cases h' with
    | positive _ hpos => exact absurd hpos Int64.lt_irrefl
    | zero => rfl
  | nil => cases h'; rfl

theorem Gives.unique {item : Reply} {x y : Binary64} (h : item.Gives x) (h' : item.Gives y) : x = y := by
  cases h with
  | integer => cases h'; rfl
  | double => cases h'; rfl
  | text text tokens hx =>
    cases h' with
    | text _ _ hy =>
      exact Option.some.inj ((binary64?_trimBlanks_iff.mpr hx).symm.trans (binary64?_trimBlanks_iff.mpr hy))

/-- The balance of an item is the rounding of the number that it denotes. -/
theorem Denotes.exists_gives {item : Reply} {q : ℚ} (h : item.Denotes q) :
    ∃ x, item.Gives x ∧ x.Rounds q := by
  cases h with
  | integer n => exact ⟨_, .integer n, Binary64.rounds_ofInt _⟩
  | double x hx => exact ⟨x, .double x, Binary64.rounds_worth hx⟩
  | text text q htext =>
    obtain ⟨front, core, back, hsplit, hfront, hback, hcore⟩ := htext
    obtain ⟨x, hspells, hrounds⟩ := hcore.exists_spells
    exact ⟨x, .text text x ⟨front, core, back, hsplit, hfront, hback, hspells⟩, hrounds⟩

/-- Items that stand for one number give numerically equal balances. -/
theorem Agrees.exists_gives {first second : Reply} (h : first.Agrees second) :
    ∃ x y, first.Gives x ∧ second.Gives y ∧ x ≤ y ∧ y ≤ x := by
  rcases h with ⟨q, hfirst, hsecond⟩ | h
  · obtain ⟨x, hx, hxq⟩ := hfirst.exists_gives
    obtain ⟨y, hy, hyq⟩ := hsecond.exists_gives
    exact ⟨x, y, hx, hy, hxq.le hyq, hyq.le hxq⟩
  · exact h

/-- What a reply means: it is a pair, its first item tells whether tokens were granted, its second item
gives a balance within the bounds of the bucket, and the balance is cut off at the capacity. -/
def Means (capacity : Int64) (reply : Reply) (outcome : Outcome) : Prop :=
  ∃ grant balance tokens, reply = .array [grant, balance] ∧ grant.Tells outcome.granted ∧
    balance.Gives tokens ∧ tokens.IsWithin capacity ∧
    outcome.tokens = if tokens ≤ .ofInt capacity.toInt then tokens else .ofInt capacity.toInt

end Reply

/-! ### How they are read -/

namespace Outcome

open Reply

variable {item grant balance : Reply} {granted : Bool} {tokens bounded : Binary64} {capacity : Int64}

theorem grantOf_iff : grantOf item = .ok granted ↔ item.Tells granted := by
  constructor
  · intro h
    cases item with
    | nil =>
      obtain rfl := Except.ok.inj h
      exact .nil
    | boolean b =>
      obtain rfl := Except.ok.inj h
      exact .boolean b
    | integer n =>
      rw [grantOf] at h
      split at h
      · next hn =>
        obtain rfl := Except.ok.inj h
        by_cases hpos : 0 < n
        · rw [decide_eq_true hpos]
          exact .positive n hpos
        · obtain rfl : n = 0 := Int64.le_antisymm (Int64.not_lt.mp hpos) hn
          exact .zero
      · cases h
    | _ => cases h
  · intro h
    cases h with
    | boolean => rfl
    | positive count h => simp [grantOf, h, Int64.le_of_lt h]
    | zero => rfl
    | nil => rfl

theorem balanceOf_text_iff {text : String} :
    balanceOf (.text text) = .ok tokens ↔ Numeral.binary64? (trimBlanks text.toList) = some tokens := by
  rw [balanceOf]
  split
  · next x hx => rw [hx, Except.ok.injEq, Option.some.injEq]
  · next hnone => simp [hnone]

theorem balanceOf_iff : balanceOf item = .ok tokens ↔ item.Gives tokens := by
  constructor
  · intro h
    cases item with
    | integer n =>
      obtain rfl := Except.ok.inj h
      exact .integer n
    | double x =>
      obtain rfl := Except.ok.inj h
      exact .double x
    | text s => exact .text s tokens (Numeral.binary64?_trimBlanks_iff.mp (balanceOf_text_iff.mp h))
    | _ => cases h
  · intro h
    cases h with
    | integer => rfl
    | double => rfl
    | text s tokens hs => exact balanceOf_text_iff.mpr (Numeral.binary64?_trimBlanks_iff.mpr hs)

/-- The slack is the double of a billionth. -/
theorem rounds_slack : slack.Rounds (1 / 10 ^ 9) := by
  refine ⟨false, _, 1 / 10 ^ 9, rfl, by positivity, rfl, ?_⟩
  have hnearest := Numeral.isNearest_ofDecimal ⟨1, -9⟩
  rwa [show Decimal.value ⟨1, -9⟩ = 1 / 10 ^ 9 by norm_num [Decimal.value]] at hnearest

theorem isWithin_iff : tokens.IsWithin capacity ↔
    tokens.isFinite = true ∧ Binary64.zero ≤ tokens ∧
      tokens ≤ Binary64.ofInt capacity.toInt + slack := by
  refine and_congr_right' (and_congr_right' ⟨?_, fun hle => ⟨slack, rounds_slack, hle⟩⟩)
  rintro ⟨slack', hrounds, hle⟩
  rwa [← hrounds.unique (by positivity) rounds_slack]

/-- The check asks for what lies outside the bounds. -/
theorem not_isWithin_iff (hc : 1 ≤ capacity) :
    ¬ tokens.IsWithin capacity ↔
      tokens.isFinite = false ∨ tokens < .zero ∨ Binary64.ofInt capacity.toInt + slack < tokens := by
  have hbound : (Binary64.ofInt capacity.toInt + slack).isNaN = false := by
    have hslack : slack = .number false slack.rung := rfl
    rw [hslack, Binary64.ofInt_capacity hc, Binary64.add_number, Binary64.isNaN_number]
  cases hfinite : tokens.isFinite with
  | false => simp [isWithin_iff, hfinite]
  | true =>
    have hnumber := Binary64.isNaN_of_isFinite hfinite
    rw [isWithin_iff, ← Binary64.not_lt_iff hnumber rfl, ← Binary64.not_lt_iff hbound hnumber]
    simp only [hfinite, true_and, Bool.true_eq_false, false_or, not_and_or, not_not]

/-- What is left of a balance is cut off at the capacity. -/
theorem capped_of_isFinite (hfinite : tokens.isFinite = true) :
    tokens.capped (.ofInt capacity.toInt) =
      if tokens ≤ .ofInt capacity.toInt then tokens else .ofInt capacity.toInt := by
  have hnumber := Binary64.isNaN_of_isFinite hfinite
  have hcut : Binary64.ofInt capacity.toInt < tokens ↔ ¬ tokens ≤ .ofInt capacity.toInt := by
    rw [← Binary64.not_lt_iff rfl hnumber, not_not]
  simp only [Binary64.capped, hnumber, hcut, Bool.false_eq_true, if_false, ite_not]

/-- A balance within the bounds passes the check, cut off at the capacity. -/
theorem boundedBalance_iff (hc : 1 ≤ capacity) :
    boundedBalance capacity tokens = .ok bounded ↔ tokens.IsWithin capacity ∧
      bounded = if tokens ≤ .ofInt capacity.toInt then tokens else .ofInt capacity.toInt := by
  have hout : ¬ tokens.IsWithin capacity ↔ _ := not_isWithin_iff hc
  rw [boundedBalance]
  by_cases hwithin : tokens.IsWithin capacity
  · rw [if_neg (mt hout.mpr (not_not.mpr hwithin)), capped_of_isFinite hwithin.1, Except.ok.injEq,
      and_iff_right hwithin, eq_comm]
  · rw [if_pos (hout.mp hwithin)]
    exact iff_of_false (by simp) fun h => hwithin h.1

/-- The balance that is left of one within the bounds. -/
theorem cut_isFinite_and_le (hc : 1 ≤ capacity) (hwithin : tokens.IsWithin capacity)
    (h : bounded = if tokens ≤ .ofInt capacity.toInt then tokens else .ofInt capacity.toInt) :
    bounded.isFinite = true ∧ Binary64.zero ≤ bounded ∧ bounded ≤ .ofInt capacity.toInt := by
  subst h
  split
  · next hle => exact ⟨hwithin.1, hwithin.2.1, hle⟩
  · rw [Binary64.ofInt_capacity hc]
    exact ⟨Binary64.isFinite_number.mpr (Rung.ofCapacity_lt_infinity capacity),
      Binary64.zero_le_number _, Binary64.number_le_number.mpr le_rfl⟩

/-- Cutting off at the capacity keeps the order. -/
theorem cut_le_cut {x y : Binary64} (hxy : x ≤ y) :
    (if x ≤ Binary64.ofInt capacity.toInt then x else .ofInt capacity.toInt) ≤
      if y ≤ Binary64.ofInt capacity.toInt then y else .ofInt capacity.toInt := by
  by_cases hy : y ≤ Binary64.ofInt capacity.toInt
  · rw [if_pos hy, if_pos (Binary64.le_trans hxy hy)]
    exact hxy
  · rw [if_neg hy]
    split
    · next hle => exact hle
    · exact ⟨rfl, rfl, le_rfl⟩

/-- A pair means something if both items can be read and the balance is within the bounds. -/
theorem ofPair_iff (hc : 1 ≤ capacity) {outcome : Outcome} :
    ofPair capacity grant balance = .ok outcome ↔
      ∃ tokens, grant.Tells outcome.granted ∧ balance.Gives tokens ∧ tokens.IsWithin capacity ∧
        outcome.tokens =
          if tokens ≤ .ofInt capacity.toInt then tokens else .ofInt capacity.toInt := by
  simp only [← grantOf_iff, ← balanceOf_iff, ← boundedBalance_iff hc, ofPair]
  cases grantOf grant with
  | error fault => simp [bind, Except.bind]
  | ok told =>
    cases balanceOf balance with
    | error fault => simp [bind, Except.bind]
    | ok tokens =>
      cases hbounded : boundedBalance capacity tokens with
      | error fault => simp [bind, Except.bind, hbounded]
      | ok bounded =>
        obtain ⟨granted, left⟩ := outcome
        simp [bind, Except.bind, hbounded, pure, Except.pure]

/-- A pair of other shapes that tells the same and stands for the same number means the same. -/
theorem ofPair_of_agrees (hc : 1 ≤ capacity) {grant' balance' : Reply} {outcome : Outcome}
    (h : ofPair capacity grant balance = .ok outcome) (hgrant : grant.Tells granted)
    (hgrant' : grant'.Tells granted) (hbalance : balance.Agrees balance') :
    ∃ outcome', ofPair capacity grant' balance' = .ok outcome' ∧
      outcome'.granted = outcome.granted ∧ outcome'.tokens ≤ outcome.tokens ∧
      outcome.tokens ≤ outcome'.tokens := by
  obtain ⟨tokens, htells, hgives, hwithin, hcut⟩ := (ofPair_iff hc).mp h
  obtain rfl := hgrant.unique htells
  obtain ⟨x, y, hx, hy, hxy, hyx⟩ := hbalance.exists_gives
  obtain rfl := hgives.unique hx
  refine ⟨⟨outcome.granted, if y ≤ .ofInt capacity.toInt then y else .ofInt capacity.toInt⟩,
    (ofPair_iff hc).mpr ⟨y, hgrant', hy, hwithin.of_le_of_le hxy hyx, rfl⟩, rfl, ?_, ?_⟩
  · rw [hcut]
    exact cut_le_cut hyx
  · rw [hcut]
    exact cut_le_cut hxy

/-- Only pairs mean something. -/
theorem ofReply_eq_ok_iff {reply : Reply} {outcome : Outcome} :
    ofReply capacity reply = .ok outcome ↔
      ∃ grant balance, reply = .array [grant, balance] ∧ ofPair capacity grant balance = .ok outcome := by
  simp only [ofReply, mapError_eq_ok]
  constructor
  · intro h
    split at h
    · next grant balance => exact ⟨grant, balance, rfl, h⟩
    · cases h
    · cases h
  · rintro ⟨grant, balance, rfl, hpair⟩
    exact hpair

/-- What is not understood breaches the protocol. -/
theorem exists_of_ofReply_eq_error {reply : Reply} {failure : Failure}
    (h : ofReply capacity reply = .error failure) : ∃ fault, failure = .protocol fault := by
  unfold ofReply at h
  obtain ⟨fault, rfl⟩ := exists_of_mapError_eq_error h
  exact ⟨fault, rfl⟩

/-- The readings together give the meaning of a reply. -/
theorem ofReply_iff (hc : 1 ≤ capacity) {reply : Reply} {outcome : Outcome} :
    ofReply capacity reply = .ok outcome ↔ reply.Means capacity outcome := by
  simp only [ofReply_eq_ok_iff, ofPair_iff hc, Means, exists_and_left]

/-- **What a reply means.** A reply to a request on a bucket of any capacity means something exactly if it
is a pair, its first item tells whether tokens were granted, and its second item gives a finite balance
from zero up to the capacity, or above it by no more than a billionth. It then means what the first item
tells, with the balance cut off at the capacity, which leaves a finite balance within the bounds. Every
other reply is a breach of the protocol. Only truth and number count: a reply whose items tell the same and
stand for the same number means something too, and the same, whatever the shapes of the items are. -/
theorem ofReply_meaning {capacity : Int64} (hc : 1 ≤ capacity) :
    (∀ reply outcome, ofReply capacity reply = .ok outcome ↔ reply.Means capacity outcome) ∧
    (∀ reply outcome, ofReply capacity reply = .ok outcome →
      outcome.tokens.isFinite = true ∧ Binary64.zero ≤ outcome.tokens ∧
        outcome.tokens ≤ .ofInt capacity.toInt) ∧
    (∀ reply, (∀ outcome, ofReply capacity reply ≠ .ok outcome) →
      ∃ fault, ofReply capacity reply = .error (.protocol fault)) ∧
    ∀ grant balance grant' balance' granted outcome,
      ofReply capacity (.array [grant, balance]) = .ok outcome → grant.Tells granted →
      grant'.Tells granted → balance.Agrees balance' →
      ∃ outcome', ofReply capacity (.array [grant', balance']) = .ok outcome' ∧
        outcome'.granted = outcome.granted ∧ outcome'.tokens ≤ outcome.tokens ∧
        outcome.tokens ≤ outcome'.tokens := by
  refine ⟨fun reply outcome => ofReply_iff hc, ?_, ?_, ?_⟩
  · intro reply outcome h
    obtain ⟨_, _, tokens, -, -, -, hwithin, hcut⟩ := (ofReply_iff hc).mp h
    exact cut_isFinite_and_le hc hwithin hcut
  · intro reply hrefused
    cases h : ofReply capacity reply with
    | ok outcome => exact absurd h (hrefused outcome)
    | error failure =>
      obtain ⟨fault, rfl⟩ := exists_of_ofReply_eq_error h
      exact ⟨fault, rfl⟩
  · intro grant balance grant' balance' granted outcome h hgrant hgrant' hbalance
    obtain ⟨outcome', h', hsame⟩ :=
      ofPair_of_agrees hc (mapError_eq_ok.mp h) hgrant hgrant' hbalance
    exact ⟨outcome', mapError_eq_ok.mpr h', hsame⟩

/-- A count with a text between blanks means what a truth value with an integer means. -/
theorem ofReply_meaning_ten :
    (1 : Int64) ≤ 10 ∧ ∃ outcome,
      ofReply 10 (.array [.integer 3, .text " +1.0e1\n"]) = .ok outcome ∧
        outcome.granted = true ∧ outcome.tokens ≤ .ofInt 10 ∧ .ofInt 10 ≤ outcome.tokens := by
  have hc : (1 : Int64) ≤ 10 := by decide
  obtain ⟨hmeans, -, -, hsame⟩ := ofReply_meaning hc
  have hplain : ofReply 10 (.array [.boolean true, .integer 10]) = .ok ⟨true, .ofInt 10⟩ :=
    (hmeans _ _).mpr ⟨_, _, _, rfl, .boolean true, .integer 10,
      isWithin_iff.mpr ⟨by decide +kernel, by decide +kernel, by decide +kernel⟩, by decide +kernel⟩
  have htext : (Reply.text " +1.0e1\n").Gives (.ofInt 10) :=
    .text _ _ (Numeral.binary64?_trimBlanks_iff.mp (by decide +kernel))
  have hagrees : (Reply.integer 10).Agrees (.text " +1.0e1\n") :=
    Or.inr ⟨_, _, .integer 10, htext, by decide +kernel, by decide +kernel⟩
  exact ⟨hc, hsame _ _ _ _ true _ hplain (.boolean true) (.positive 3 (by decide)) hagrees⟩

end Outcome

end TokenBucket
