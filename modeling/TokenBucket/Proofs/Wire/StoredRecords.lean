import TokenBucket.Wire.RecordFields
import TokenBucket.Proofs.Bucket.Exact
import TokenBucket.Proofs.Decimal.Grammar
import TokenBucket.Proofs.Wire.Meaning
import TokenBucket.Proofs.Wire.Replies
import Mathlib.Data.Rat.Floor

/-!
# What stored fields say

A record is stored as two fields of text. This file says which fields hold a record, and which record,
without the reading that finds it out. The balance field is a float numeral between blanks, and the balance
is the double that it spells. For the instant two grammars overlap, since every integer numeral is a float
numeral too: an integer numeral of 64 bits spells that very integer (`Numeral.SpellsInstant.integer`), and
only what is none spells the whole part of a finite double, as far as 64 bits reach
(`Numeral.SpellsInstant.whole`). So an instant is not rounded where its text is an integer of 64 bits.

Fields without either text hold no record, which is no failure. Everything else that does not hold a record
is refused as a breach of the protocol, half a record among it. What is written into fields by its digits is
read back from them, whatever the instant and the finite balance are.

## Main definitions

* `Binary64.wholePart`: a rational number without what is behind the point.
* `Numeral.SpellsInstant`: texts with the instant that they spell.
* `Fields.IsAbsent`, `Fields.IsReadable`, `Fields.Tells`: what fields say.

## Main results

* `Binary64.truncate_eq_wholePart`.
* `Fields.tokensOf_iff`, `Fields.instantOf_iff`: each field by itself.
* `Fields.record?_eq_ok_iff`: which fields are read without a failure, and as what.
* `Fields.tells_of_isText`: fields with the texts of a record tell that record.
* `Fields.record_exact`: the same together with what is refused.
-/

namespace TokenBucket

/-! ### Whole parts and digits -/

namespace Binary64

/-- A rational number without what is behind the point: the next integer on the side of zero. -/
def wholePart (q : ℚ) : ℤ := if 0 ≤ q then ⌊q⌋ else ⌈q⌉

/-- Below zero the whole part is that of the magnitude under the sign. -/
theorem wholePart_neg {q : ℚ} (h : 0 ≤ q) : wholePart (-q) = -⌊q⌋ := by
  rw [wholePart]
  split
  · next hneg =>
    obtain rfl : q = 0 := le_antisymm (neg_nonneg.mp hneg) h
    simp
  · exact Int.ceil_neg

theorem floor_worth_number (r : Rung) :
    ⌊(number false r).worth⌋ = (r.units / Rung.unitsPerOne : ℕ) := by
  rw [worth_number, Rat.floor_natCast_div_natCast, Int.natCast_ediv]

theorem worth_number_true (r : Rung) : (number true r).worth = -(number false r).worth := by
  rw [worth_number, worth, units, Int.cast_neg, Int.cast_natCast, neg_div]

/-- Truncating a double leaves the whole part of what it is worth. -/
theorem truncate_eq_wholePart (x : Binary64) : x.truncate = wholePart x.worth := by
  cases x with
  | nan =>
    have hworth : worth nan = 0 := by rw [worth, units, Int.cast_zero, zero_div]
    rw [hworth, wholePart, if_pos le_rfl, Int.floor_zero, truncate]
  | number negative r =>
    cases negative with
    | false => rw [wholePart, if_pos (worth_nonneg r), floor_worth_number, truncate]
    | true => rw [worth_number_true, wholePart_neg (worth_nonneg r), floor_worth_number, truncate]

/-- Both ways of writing a finite double keep enough digits. -/
theorem isText_of_isFinite {x : Binary64} {text : String} (h : x.isFinite = true)
    (htext : text = x.shortestText ∨ text = x.generalText 17) : x.IsText text := by
  cases x with
  | nan => cases h
  | number negative r =>
    have hr := isFinite_number.mp h
    rcases htext with rfl | rfl
    · exact isText_shortestText hr
    · exact isText_generalText hr

end Binary64

/-! ### Instants -/

namespace Numeral

variable {text : List Char} {now : Instant}

/-- The text spells an instant. An integer numeral of 64 bits spells that very integer. Any other float
numeral that spells a finite double spells its whole part, or the end of the 64-bit range beyond which that
lies. -/
inductive SpellsInstant : Instant → List Char → Prop
  | integer {now : Instant} {text : List Char} (h : SpellsInteger now.toInt text) : SpellsInstant now text
  | whole {now : Instant} {text : List Char} {x : Binary64}
      (hother : ∀ n : Int64, ¬ SpellsInteger n.toInt text) (h : Spells x text)
      (hfinite : x.isFinite = true)
      (hnow : now.toInt = max (-2 ^ 63) (min (Binary64.wholePart x.worth) (2 ^ 63 - 1))) :
      SpellsInstant now text

theorem SpellsInstant.not_isBlank (h : SpellsInstant now text) : ∀ c ∈ text, isBlank c = false := by
  cases h with
  | integer h => exact h.not_isBlank
  | whole _ h => exact h.not_isBlank

/-- The whole part of a double, as far as 64 bits reach. -/
theorem toInt_saturateInt64_truncate (x : Binary64) :
    (saturateInt64 x.truncate).toInt = max (-2 ^ 63) (min (Binary64.wholePart x.worth) (2 ^ 63 - 1)) := by
  have hmin : Int64.minValue.toInt = -2 ^ 63 := Int64.toInt_minValue
  have hmax : Int64.maxValue.toInt = 2 ^ 63 - 1 := Int64.toInt_maxValue
  rw [toInt_saturateInt64, Binary64.truncate_eq_wholePart, hmin, hmax]

/-- Texts that spell some instant: the integer numerals of 64 bits, and the float numerals of finite
doubles. -/
theorem exists_spellsInstant_iff :
    (∃ now, SpellsInstant now text) ↔
      (∃ n : Int64, SpellsInteger n.toInt text) ∨ ∃ x, Spells x text ∧ x.isFinite = true := by
  constructor
  · rintro ⟨now, h⟩
    cases h with
    | integer h => exact Or.inl ⟨now, h⟩
    | whole _ h hfinite => exact Or.inr ⟨_, h, hfinite⟩
  · intro h
    by_cases hinteger : ∃ n : Int64, SpellsInteger n.toInt text
    · obtain ⟨n, hn⟩ := hinteger
      exact ⟨n, .integer hn⟩
    · obtain ⟨x, hx, hfinite⟩ := h.resolve_left hinteger
      exact ⟨_, .whole (fun n hn => hinteger ⟨n, hn⟩) hx hfinite (toInt_saturateInt64_truncate x)⟩

end Numeral

namespace Fields

open Numeral

/-! ### Single fields -/

variable {text : String} {tokens : Binary64} {now : Instant}

/-- The balance of a field is the double that its text spells. -/
theorem tokensOf_iff : tokensOf text = .ok tokens ↔ BetweenBlanks (Spells tokens) text.toList := by
  rw [← binary64?_trimBlanks_iff, tokensOf]
  cases binary64? (trimBlanks text.toList) with
  | none => simp
  | some x => rw [Except.ok.injEq, Option.some_inj]

/-- The instant of a field is the one that its text spells. -/
theorem instantOf_iff : instantOf text = .ok now ↔ BetweenBlanks (SpellsInstant now) text.toList := by
  rw [betweenBlanks_iff fun core h => h.not_isBlank, instantOf]
  set core := trimBlanks text.toList
  cases hinteger : int64? core with
  | some n =>
    -- an integer numeral is never read as a float numeral
    have hn := int64?_eq_some_iff.mp hinteger
    constructor
    · intro h
      obtain rfl := Except.ok.inj h
      exact .integer hn
    · intro h
      cases h with
      | integer h =>
        have hsame := int64?_eq_some_iff.mpr h
        rw [hinteger] at hsame
        rw [Option.some.inj hsame]
      | whole hother => exact absurd hn (hother n)
  | none =>
    have hother : ∀ n : Int64, ¬ SpellsInteger n.toInt core := by
      intro n hn
      rw [int64?_eq_some_iff.mpr hn] at hinteger
      cases hinteger
    constructor
    · intro h
      simp only at h
      split at h
      · next x hx =>
        split at h
        · next hfinite =>
          obtain rfl := Except.ok.inj h
          exact .whole hother (binary64?_eq_some_iff.mp hx) hfinite (toInt_saturateInt64_truncate x)
        · cases h
      · cases h
    · intro h
      cases h with
      | integer h => exact absurd h (hother now)
      | whole _ hx hfinite hnow =>
        simp only [binary64?_eq_some_iff.mpr hx, hfinite, if_true]
        rw [← toInt_saturateInt64_truncate, Int64.toInt_inj] at hnow
        rw [hnow]

/-! ### Records -/

variable {fields : Fields} {r : Record}

/-- The fields have neither of the two texts of a record. -/
def IsAbsent (fields : Fields) : Prop :=
  fields.get? tokensName = none ∧ fields.get? instantName = none

/-- The fields have both texts of a record, the text of the balance is a float numeral between blanks, and
the text of the instant is, between blanks, an integer numeral of 64 bits or a float numeral of a finite
double. -/
def IsReadable (fields : Fields) : Prop :=
  ∃ tokens instant, fields.get? tokensName = some tokens ∧ fields.get? instantName = some instant ∧
    BetweenBlanks (fun core => ∃ x, Spells x core) tokens.toList ∧
    BetweenBlanks (fun core => (∃ n : Int64, SpellsInteger n.toInt core) ∨
      ∃ x, Spells x core ∧ x.isFinite = true) instant.toList

/-- The fields tell a record: they have both of its texts, and these spell its balance and its instant. -/
structure Tells (fields : Fields) (r : Record) : Prop where
  tokens : ∃ text, fields.get? tokensName = some text ∧ BetweenBlanks (Spells r.tokens) text.toList
  instant : ∃ text, fields.get? instantName = some text ∧
    BetweenBlanks (SpellsInstant r.refilledAt) text.toList

/-- Fields can be read if they tell some record. -/
theorem isReadable_iff : fields.IsReadable ↔ ∃ r, fields.Tells r := by
  simp only [IsReadable, ← exists_spellsInstant_iff, betweenBlanks_exists]
  constructor
  · rintro ⟨tokens, instant, htokens, hinstant, ⟨x, hx⟩, now, hnow⟩
    exact ⟨⟨x, now⟩, ⟨tokens, htokens, hx⟩, instant, hinstant, hnow⟩
  · rintro ⟨r, ⟨tokens, htokens, hx⟩, instant, hinstant, hnow⟩
    exact ⟨tokens, instant, htokens, hinstant, ⟨_, hx⟩, _, hnow⟩

/-- What fields tell, in terms of the readings of the two texts. -/
theorem tells_iff : fields.Tells r ↔
    (∃ text, fields.get? tokensName = some text ∧ tokensOf text = .ok r.tokens) ∧
      ∃ text, fields.get? instantName = some text ∧ instantOf text = .ok r.refilledAt := by
  simp only [tokensOf_iff, instantOf_iff]
  exact ⟨fun h => ⟨h.tokens, h.instant⟩, fun h => ⟨h.1, h.2⟩⟩

/-- Fields are read without a failure as no record if they have neither text, and as the record that they
tell. -/
theorem record?_eq_ok_iff {held : Option Record} :
    fields.record? = .ok held ↔ held = none ∧ fields.IsAbsent ∨ ∃ r, held = some r ∧ fields.Tells r := by
  simp only [record?, mapError_eq_ok, tells_iff, IsAbsent]
  cases fields.get? tokensName with
  | none => cases fields.get? instantName <;> simp [eq_comm]
  | some tokens =>
    cases fields.get? instantName with
    | none => simp
    | some instant =>
      -- with both texts there, the two readings decide
      cases htokens : tokensOf tokens with
      | error fault => simp [bind, Except.bind, htokens]
      | ok x =>
        cases hinstant : instantOf instant with
        | error fault => simp [bind, Except.bind, htokens, hinstant]
        | ok now =>
          simp only [bind, Except.bind, htokens, hinstant, pure, Except.pure, Except.ok.injEq,
            reduceCtorEq, and_self, and_false, Option.some.injEq, exists_eq_left', false_or]
          constructor
          · rintro rfl
            exact ⟨_, rfl, rfl, rfl⟩
          · rintro ⟨r, rfl, rfl, rfl⟩
            rfl

theorem record?_eq_none_iff : fields.record? = .ok none ↔ fields.IsAbsent := by
  simp [record?_eq_ok_iff]

/-- The record that fields hold is the one that they tell. -/
theorem record?_eq_some_iff : fields.record? = .ok (some r) ↔ fields.Tells r := by
  simp [record?_eq_ok_iff]

/-- Fields that hold no record, not even none, are refused as a breach of the protocol. -/
theorem exists_record?_eq_error_iff :
    (∃ fault, fields.record? = .error (.protocol fault)) ↔ ¬ fields.IsAbsent ∧ ¬ fields.IsReadable := by
  simp only [isReadable_iff, ← record?_eq_none_iff, ← record?_eq_some_iff]
  cases h : fields.record? with
  | error failure =>
    obtain ⟨fault, rfl⟩ := exists_of_mapError_eq_error h
    simp
  | ok held => cases held <;> simp

/-- Fields with the texts of a record tell that record. -/
theorem tells_of_isText {text : String} (htext : r.tokens.IsText text)
    (htokens : fields.get? tokensName = some text)
    (hinstant : fields.get? instantName = some (toString r.refilledAt.toInt)) : fields.Tells r where
  tokens := ⟨text, htokens, betweenBlanks_self (binary64?_eq_some_iff.mp htext.read)⟩
  instant := ⟨_, hinstant,
    betweenBlanks_self (.integer (integer?_eq_some_iff.mp (integer?_toString _)))⟩

/-- **What stored fields say.** Fields hold no record exactly if they have neither of its texts. They hold
one exactly if they have both, the balance a float numeral between blanks and the instant an integer numeral
of 64 bits or a float numeral of a finite double. In every other case they are refused as a breach of the
protocol. The record that they hold is the one that they tell: its balance is the correct rounding of what
the text spells, and its instant is that very integer where the text is an integer numeral of 64 bits, and
else the whole part of the double, as far as 64 bits reach. Other fields do not matter. Any record with a
finite balance is read back from its digits, be they the fewest or seventeen. -/
theorem record_exact (fields : Fields) :
    (fields.record? = .ok none ↔ fields.IsAbsent) ∧
    ((∃ r, fields.record? = .ok (some r)) ↔ fields.IsReadable) ∧
    ((∃ fault, fields.record? = .error (.protocol fault)) ↔ ¬ fields.IsAbsent ∧ ¬ fields.IsReadable) ∧
    (∀ r, fields.record? = .ok (some r) ↔ fields.Tells r) ∧
    (∀ other : Fields, other.get? tokensName = fields.get? tokensName →
      other.get? instantName = fields.get? instantName → other.record? = fields.record?) ∧
    ∀ (r : Record) (text : String), r.tokens.isFinite = true →
      text = r.tokens.shortestText ∨ text = r.tokens.generalText 17 →
      fields.get? tokensName = some text →
      fields.get? instantName = some (toString r.refilledAt.toInt) → fields.record? = .ok (some r) := by
  refine ⟨record?_eq_none_iff, ?_, exists_record?_eq_error_iff, fun r => record?_eq_some_iff, ?_, ?_⟩
  · simp only [record?_eq_some_iff, isReadable_iff]
  · intro other htokens hinstant
    rw [record?, htokens, hinstant, record?]
  · intro r text hfinite htext htokens hinstant
    have hread := Binary64.isText_of_isFinite hfinite htext
    exact record?_eq_some_iff.mpr (tells_of_isText hread htokens hinstant)

/-- An instant that no double is, next to a balance below zero and to a field of another name. -/
theorem record_exact_odd :
    let r : Record := ⟨.ofDecimal true ⟨1, -1⟩, -9007199254740993⟩
    let fields : Fields := (KeyMap.empty.insert "tokens" "-0.1").insert "ts" "-9007199254740993"
    let owned : Fields := fields.insert "owner" "x"
    r.tokens.isFinite = true ∧ "-0.1" = r.tokens.shortestText ∧ fields.record? = .ok (some r) ∧
      owned.record? = .ok (some r) := by
  intro r fields owned
  obtain ⟨-, -, -, -, hothers, hdigits⟩ := record_exact fields
  have hfinite : r.tokens.isFinite = true := by decide +kernel
  have htext : "-0.1" = r.tokens.shortestText := by decide +kernel
  have hread : fields.record? = .ok (some r) :=
    hdigits r "-0.1" hfinite (Or.inl htext) (by decide) (by decide)
  exact ⟨hfinite, htext, hread, (hothers owned (by decide) (by decide)).trans hread⟩

end Fields

end TokenBucket
