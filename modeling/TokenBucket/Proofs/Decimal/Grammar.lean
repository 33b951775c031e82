import TokenBucket.Proofs.Binary64.Nearest
import TokenBucket.Proofs.Decimal.Notation
import Mathlib.Data.List.TakeWhile

/-!
# The grammar of numerals

The readers of numerals take a text apart from its front. This file writes down the grammar itself, as
relations between a text and what it spells, put together from the parts of a numeral: a sign, digits, a
point, an exponent. A decimal numeral spells a rational number, and a float numeral spells the correct
rounding of that number under its sign, or an infinity, or not-a-number. The readers understand these texts
and no others, and read them as what they spell (`Numeral.integer?_eq_some_iff`,
`Numeral.exists_decimal?_iff`, `Numeral.binary64?_eq_some_iff`).

No numeral holds a blank, so that trimming a text gives a numeral exactly if the text is one between blanks
(`Numeral.binary64?_trimBlanks_iff`).

## Main definitions

* `Numeral.IsDigits`, `Numeral.IsSign`: the parts.
* `Numeral.SpellsInteger`, `Numeral.SpellsExponent`, `Numeral.SpellsDecimal`, `Numeral.Spells`: texts with
  what they spell.
* `Numeral.BetweenBlanks`: texts with a property, once their outer blanks are left out.

## Main results

* `Numeral.integer?_eq_some_iff`, `Numeral.int64?_eq_some_iff`, `Numeral.exponent?_eq_some_iff`,
  `Numeral.exists_decimal?_iff`, `Numeral.binary64?_eq_some_iff`.
* `Numeral.binary64?_trimBlanks_iff`.
-/

namespace TokenBucket

namespace Numeral

/-! ### The grammar -/

/-- The text consists of digits. -/
def IsDigits (text : List Char) : Prop := ∀ c ∈ text, c.isDigit = true

/-- The text is a sign, which may be missing; `true` is minus. -/
inductive IsSign : Bool → List Char → Prop
  | missing : IsSign false []
  | plus : IsSign false ['+']
  | minus : IsSign true ['-']

/-- The text is an integer numeral: an optional sign and at least one digit. -/
inductive SpellsInteger : ℤ → List Char → Prop
  | signed {negative : Bool} {front digits : List Char} (hsign : IsSign negative front)
      (hne : digits ≠ []) (hdigits : IsDigits digits) :
      SpellsInteger (if negative then -(digitsValue digits : ℤ) else digitsValue digits)
        (front ++ digits)

/-- The text is the exponent part of a numeral, which may be missing. -/
inductive SpellsExponent : ℤ → List Char → Prop
  | missing : SpellsExponent 0 []
  | marked {mark : Char} {exponent : ℤ} {text : List Char} (hmark : mark = 'e' ∨ mark = 'E')
      (h : SpellsInteger exponent text) : SpellsExponent exponent (mark :: text)

/-- The text is an unsigned decimal numeral: digits and an exponent, or digits around a point and an
exponent, where one side of the point may be empty. -/
inductive SpellsDecimal : ℚ → List Char → Prop
  | whole {digits tail : List Char} {exponent : ℤ} (hne : digits ≠ []) (hdigits : IsDigits digits)
      (htail : SpellsExponent exponent tail) :
      SpellsDecimal (digitsValue digits * 10 ^ exponent) (digits ++ tail)
  | point {whole fraction tail : List Char} {exponent : ℤ} (hne : whole ≠ [] ∨ fraction ≠ [])
      (hwhole : IsDigits whole) (hfraction : IsDigits fraction) (htail : SpellsExponent exponent tail) :
      SpellsDecimal
        ((digitsValue whole + digitsValue fraction / 10 ^ fraction.length) * 10 ^ exponent)
        (whole ++ '.' :: (fraction ++ tail))

/-- The text is a float numeral: an optional sign, and a decimal numeral or one of the words for infinity
and not-a-number in any case. -/
inductive Spells : Binary64 → List Char → Prop
  | number {negative : Bool} {front body : List Char} {q : ℚ} {r : Rung} (hsign : IsSign negative front)
      (hbody : SpellsDecimal q body) (hr : r.IsNearest (q * Rung.unitsPerOne)) :
      Spells (.number negative r) (front ++ body)
  | infinity {negative : Bool} {front body : List Char} (hsign : IsSign negative front)
      (hword : body.map Char.toLower = "inf".toList ∨ body.map Char.toLower = "infinity".toList) :
      Spells (.infinity negative) (front ++ body)
  | nan {negative : Bool} {front body : List Char} (hsign : IsSign negative front)
      (hword : body.map Char.toLower = "nan".toList) : Spells .nan (front ++ body)

/-! ### Signs -/

variable {negative : Bool} {front body text tail : List Char}

/-- What `sign` takes off is a sign. -/
theorem exists_isSign (text : List Char) :
    ∃ negative front body, sign text = (negative, body) ∧ IsSign negative front ∧
      text = front ++ body := by
  unfold sign
  split
  · exact ⟨_, _, _, rfl, .minus, rfl⟩
  · exact ⟨_, _, _, rfl, .plus, rfl⟩
  · exact ⟨_, _, _, rfl, .missing, rfl⟩

/-- A sign is taken off what does not begin with one. -/
theorem sign_append (hsign : IsSign negative front) (hbody : ∀ c ∈ body.head?, c ≠ '-' ∧ c ≠ '+') :
    sign (front ++ body) = (negative, body) := by
  cases hsign with
  | plus => rfl
  | minus => rfl
  | missing =>
    rw [List.nil_append]
    unfold sign
    split
    · exact absurd rfl (hbody '-' rfl).1
    · exact absurd rfl (hbody '+' rfl).2
    · rfl

theorem ne_sign_of_isDigit {c : Char} (h : c.isDigit = true) : c ≠ '-' ∧ c ≠ '+' := by
  constructor <;> rintro rfl <;> exact absurd h (by decide)

theorem IsDigits.head (h : IsDigits text) : ∀ c ∈ text.head?, c.isDigit = true := fun c hc =>
  h c (List.mem_of_mem_head? hc)

/-! ### Integers -/

theorem natural?_eq_some_iff {n : ℕ} :
    natural? text = some n ↔ text ≠ [] ∧ IsDigits text ∧ digitsValue text = n := by
  simp [natural?, IsDigits, and_assoc]

theorem integer?_eq (text : List Char) :
    integer? text =
      (natural? (sign text).2).map fun n : ℕ => if (sign text).1 then -(n : ℤ) else n := by
  rcases hsign : sign text with ⟨negative, digits⟩
  simp only [integer?, hsign]
  cases natural? digits <;> rfl

/-- The reader of integers understands the integer numerals. -/
theorem integer?_eq_some_iff {n : ℤ} : integer? text = some n ↔ SpellsInteger n text := by
  rw [integer?_eq]
  constructor
  · intro h
    obtain ⟨negative, front, digits, hread, hsign, rfl⟩ := exists_isSign text
    rw [hread] at h
    obtain ⟨m, hm, rfl⟩ := Option.map_eq_some_iff.mp h
    obtain ⟨hne, hdigits, rfl⟩ := natural?_eq_some_iff.mp hm
    exact .signed hsign hne hdigits
  · intro h
    cases h with
    | signed hsign hne hdigits =>
      have hhead := fun c hc => ne_sign_of_isDigit (hdigits.head c hc)
      rw [sign_append hsign hhead, natural?_of_isDigit hne hdigits, Option.map_some]

theorem toInt64?_eq_some_iff {m : ℤ} {n : Int64} : toInt64? m = some n ↔ m = n.toInt := by
  have hmin : Int64.minValue.toInt = -2 ^ 63 := Int64.toInt_minValue
  have hmax : Int64.maxValue.toInt = 2 ^ 63 - 1 := Int64.toInt_maxValue
  rw [toInt64?]
  constructor
  · intro h
    split at h
    · next hrange =>
      obtain rfl := Option.some.inj h
      exact (Int64.toInt_ofInt_of_le (by omega) (by omega)).symm
    · cases h
  · rintro rfl
    rw [if_pos ⟨n.minValue_le_toInt, n.toInt_le⟩, Int64.ofInt_toInt]

/-- The reader of 64-bit integers understands the integer numerals within that range. -/
theorem int64?_eq_some_iff {n : Int64} : int64? text = some n ↔ SpellsInteger n.toInt text := by
  rw [← integer?_eq_some_iff, int64?]
  cases integer? text with
  | none => simp
  | some m => rw [Option.bind_some, toInt64?_eq_some_iff, Option.some_inj]

/-- The reader of exponents understands the exponent parts. -/
theorem exponent?_eq_some_iff {exponent : ℤ} :
    exponent? text = some exponent ↔ SpellsExponent exponent text := by
  cases text with
  | nil =>
    constructor
    · intro h
      obtain rfl := Option.some.inj h
      exact .missing
    · intro h
      cases h
      rfl
  | cons mark rest =>
    rw [exponent?]
    constructor
    · intro h
      split at h
      · next hmark => exact .marked hmark (integer?_eq_some_iff.mp h)
      · cases h
    · intro h
      cases h with
      | marked hmark hrest => rw [if_pos hmark, integer?_eq_some_iff.mpr hrest]

/-- An exponent part begins with neither a digit nor a point. -/
theorem SpellsExponent.head {exponent : ℤ} (h : SpellsExponent exponent tail) :
    ∀ c ∈ tail.head?, c.isDigit = false ∧ c ≠ '.' := by
  cases h with
  | missing => simp
  | marked hmark => rcases hmark with rfl | rfl <;> simp

/-! ### Decimals -/

variable {whole fraction : List Char} {q : ℚ}

/-- The digits at the front of a text. -/
theorem exists_span_isDigit (text : List Char) :
    ∃ digits rest, text.span Char.isDigit = (digits, rest) ∧ text = digits ++ rest ∧ IsDigits digits := by
  refine ⟨_, _, List.span_eq_takeWhile_dropWhile _ _, List.takeWhile_append_dropWhile.symm, ?_⟩
  exact fun c hc => List.mem_takeWhile_imp hc

/-- What the digits around a point are worth. -/
theorem value_point (whole fraction : List Char) (exponent : ℤ) :
    (Decimal.mk (digitsValue (whole ++ fraction)) (exponent - fraction.length)).value =
      (digitsValue whole + digitsValue fraction / 10 ^ fraction.length) * 10 ^ exponent := by
  have hten : (10 : ℚ) ^ fraction.length ≠ 0 := by positivity
  rw [Decimal.value, digitsValue_append, zpow_sub₀ (by norm_num), zpow_natCast]
  push_cast
  field_simp

/-- The reader of decimals understands the decimal numerals, and reads a decimal of the worth that the
text spells. -/
theorem exists_decimal?_iff : (∃ d, decimal? text = some d ∧ d.value = q) ↔ SpellsDecimal q text := by
  constructor
  · rintro ⟨d, h, rfl⟩
    obtain ⟨whole, rest, hspan, rfl, hwhole⟩ := exists_span_isDigit text
    rw [decimal?, hspan] at h
    simp only at h
    split at h
    · next behind =>
      obtain ⟨fraction, tail, hspan', rfl, hfraction⟩ := exists_span_isDigit behind
      rw [hspan'] at h
      simp only at h
      split at h
      · cases h
      · next hne =>
        obtain ⟨exponent, htail, rfl⟩ := Option.map_eq_some_iff.mp h
        rw [value_point]
        refine .point ?_ hwhole hfraction (exponent?_eq_some_iff.mp htail)
        simpa [or_iff_not_imp_left] using hne
    · split at h
      · cases h
      · next hne =>
        obtain ⟨exponent, htail, rfl⟩ := Option.map_eq_some_iff.mp h
        have hvalue : (Decimal.mk (digitsValue (whole ++ [])) (exponent - ([] : List Char).length)).value =
            digitsValue whole * 10 ^ exponent := by simp [Decimal.value]
        rw [hvalue]
        exact .whole (by simpa using hne) hwhole (exponent?_eq_some_iff.mp htail)
  · intro h
    cases h with
    | @whole digits tail exponent hne hdigits htail =>
      refine ⟨⟨digitsValue digits, exponent⟩, ?_, rfl⟩
      rw [decimal?_whole hne hdigits htail.head, exponent?_eq_some_iff.mpr htail, Option.map_some]
    | point hne hwhole hfraction htail =>
      refine ⟨_, ?_, value_point _ _ _⟩
      rw [decimal?_point hne hwhole hfraction fun c hc => (htail.head c hc).1,
        exponent?_eq_some_iff.mpr htail, Option.map_some]

/-! ### Floats -/

/-- Reading a decimal rounds it correctly. -/
theorem isNearest_ofDecimal (d : Decimal) :
    (Rung.ofDecimal d).IsNearest (d.value * Rung.unitsPerOne) := by
  have hden : 0 < 10 ^ (-d.exponent).toNat := Nat.pow_pos (by norm_num)
  have hvalue : d.value * Rung.unitsPerOne =
      (d.coefficient * 10 ^ d.exponent.toNat * Rung.unitsPerOne : ℕ) / (10 ^ (-d.exponent).toNat : ℕ) := by
    rw [Decimal.value_eq, div_mul_eq_mul_div]
    push_cast
    rfl
  rw [hvalue, Rung.ofDecimal_eq]
  exact Rung.isNearest_nearest _ hden

/-- A decimal numeral begins with a digit or with a point. -/
theorem SpellsDecimal.exists_cons (h : SpellsDecimal q text) :
    ∃ c rest, text = c :: rest ∧ (c.isDigit = true ∨ c = '.') := by
  cases h with
  | whole hne hdigits =>
    obtain ⟨c, rest, rfl⟩ := List.exists_cons_of_ne_nil hne
    exact ⟨c, _, rfl, Or.inl (hdigits c List.mem_cons_self)⟩
  | @point whole fraction tail exponent hne hwhole =>
    cases whole with
    | nil => exact ⟨'.', _, rfl, Or.inr rfl⟩
    | cons c rest => exact ⟨c, _, rfl, Or.inl (hwhole c List.mem_cons_self)⟩

/-- The reader of floats behind the sign, with its words as lists. -/
theorem binary64?_of_sign (h : sign text = (negative, body)) :
    binary64? text =
      if body.map Char.toLower = "inf".toList ∨ body.map Char.toLower = "infinity".toList then
        some (.infinity negative)
      else if body.map Char.toLower = "nan".toList then some .nan
      else (decimal? body).map (.ofDecimal negative) := by
  have hword : ∀ (l : List Char) (s : String), String.ofList l = s ↔ l = s.toList := by
    intro l s
    constructor
    · rintro rfl
      exact String.toList_ofList.symm
    · rintro rfl
      exact String.ofList_toList
  simp only [binary64?, h, hword]

theorem toLower_head {d : Char} {word : List Char} (h : body.map Char.toLower = d :: word) :
    ∀ c ∈ body.head?, c.toLower = d := by
  intro c hc
  obtain ⟨rest, rfl⟩ := List.head?_eq_some_iff.mp hc
  exact (List.cons.inj h).1

/-- The reader of floats understands the float numerals, and reads them as what they spell. -/
theorem binary64?_eq_some_iff {x : Binary64} : binary64? text = some x ↔ Spells x text := by
  constructor
  · intro h
    obtain ⟨negative, front, body, hread, hsign, rfl⟩ := exists_isSign text
    rw [binary64?_of_sign hread] at h
    split at h
    · next hword =>
      obtain rfl := Option.some.inj h
      exact .infinity hsign hword
    · split at h
      · next hword =>
        obtain rfl := Option.some.inj h
        exact .nan hsign hword
      · obtain ⟨d, hd, rfl⟩ := Option.map_eq_some_iff.mp h
        exact .number hsign (exists_decimal?_iff.mp ⟨d, hd, rfl⟩) (isNearest_ofDecimal d)
  · intro h
    cases h with
    | @number negative front body q r hsign hbody hr =>
      obtain ⟨c, rest, rfl, hc⟩ := hbody.exists_cons
      obtain ⟨d, hd, rfl⟩ := exists_decimal?_iff.mpr hbody
      have hlower : c.toLower = c ∧ c ≠ '-' ∧ c ≠ '+' ∧ c ≠ 'i' ∧ c ≠ 'n' := by
        rcases hc with hc | rfl
        · refine ⟨toLower_of_isDigit hc, (ne_sign_of_isDigit hc).1, (ne_sign_of_isDigit hc).2, ?_, ?_⟩ <;>
            rintro rfl <;> exact absurd hc (by decide)
        · decide
      obtain ⟨hsame, hminus, hplus, hi, hn⟩ := hlower
      have hhead : ∀ b ∈ (c :: rest).head?, b ≠ '-' ∧ b ≠ '+' := by
        rintro b hb
        obtain rfl := Option.some.inj hb
        exact ⟨hminus, hplus⟩
      rw [binary64?_of_sign (sign_append hsign hhead), if_neg, if_neg, hd, Option.map_some,
        hr.unique (isNearest_ofDecimal d)]
      · rfl
      · intro hword
        exact hn (hsame ▸ toLower_head hword c rfl)
      · rintro (hword | hword) <;> exact hi (hsame ▸ toLower_head hword c rfl)
    | @infinity negative front body hsign hword =>
      have hhead : ∀ c ∈ body.head?, c ≠ '-' ∧ c ≠ '+' := by
        intro c hc
        have hi : c.toLower = 'i' := hword.elim (toLower_head · c hc) (toLower_head · c hc)
        constructor <;> rintro rfl <;> exact absurd hi (by decide)
      rw [binary64?_of_sign (sign_append hsign hhead), if_pos hword]
    | @nan negative front body hsign hword =>
      have hhead : ∀ c ∈ body.head?, c ≠ '-' ∧ c ≠ '+' := by
        intro c hc
        have hn : c.toLower = 'n' := toLower_head hword c hc
        constructor <;> rintro rfl <;> exact absurd hn (by decide)
      rw [binary64?_of_sign (sign_append hsign hhead), hword, if_neg (by decide), if_pos rfl]

/-! ### Blanks -/

/-- The text has a property, once the blanks at its ends are left out. -/
def BetweenBlanks (P : List Char → Prop) (text : List Char) : Prop :=
  ∃ front core back, text = front ++ core ++ back ∧ (∀ c ∈ front, isBlank c = true) ∧
    (∀ c ∈ back, isBlank c = true) ∧ P core

/-- There need not be any blanks. -/
theorem betweenBlanks_self {P : List Char → Prop} (h : P text) : BetweenBlanks P text :=
  ⟨[], text, [], by simp, by simp, by simp, h⟩

theorem betweenBlanks_exists {α : Type} {P : α → List Char → Prop} :
    BetweenBlanks (fun core => ∃ a, P a core) text ↔ ∃ a, BetweenBlanks (P a) text := by
  constructor
  · rintro ⟨front, core, back, htext, hfront, hback, a, ha⟩
    exact ⟨a, front, core, back, htext, hfront, hback, ha⟩
  · rintro ⟨a, front, core, back, htext, hfront, hback, ha⟩
    exact ⟨front, core, back, htext, hfront, hback, a, ha⟩

/-- Trimming takes off characters of the class at both ends. -/
theorem exists_trimEnds (strip : Char → Bool) (text : List Char) :
    ∃ front back, text = front ++ trimEnds strip text ++ back ∧ (∀ c ∈ front, strip c = true) ∧
      ∀ c ∈ back, strip c = true := by
  set rest := text.dropWhile strip with hrest
  refine ⟨text.takeWhile strip, (rest.reverse.takeWhile strip).reverse, ?_,
    fun c hc => List.mem_takeWhile_imp hc,
    fun c hc => List.mem_takeWhile_imp (List.mem_reverse.mp hc)⟩
  rw [trimEnds, ← hrest, List.append_assoc, ← List.reverse_append, List.takeWhile_append_dropWhile,
    List.reverse_reverse, hrest, List.takeWhile_append_dropWhile]

/-- Trimming takes off all characters of the class at both ends. -/
theorem trimEnds_append {strip : Char → Bool} {front core back : List Char}
    (hfront : ∀ c ∈ front, strip c = true) (hcore : ∀ c ∈ core, strip c = false)
    (hback : ∀ c ∈ back, strip c = true) : trimEnds strip (front ++ core ++ back) = core := by
  have hdrop : ∀ {l m : List Char}, (∀ c ∈ l, strip c = true) → (∀ c ∈ m, strip c = false) →
      (l ++ m).dropWhile strip = m := by
    intro l m hl hm
    rw [List.dropWhile_append_of_pos hl]
    cases m with
    | nil => rfl
    | cons c rest => rw [List.dropWhile_cons, hm c List.mem_cons_self]; rfl
  have hreverse : (back.reverse ++ core.reverse).dropWhile strip = core.reverse :=
    hdrop (fun c hc => hback c (List.mem_reverse.mp hc)) fun c hc => hcore c (List.mem_reverse.mp hc)
  rw [trimEnds, List.append_assoc, List.dropWhile_append_of_pos hfront]
  cases core with
  | nil =>
    have hall : (List.nil ++ back).dropWhile strip = [] := by
      simpa using hdrop hback (m := []) (by simp)
    rw [hall]
    rfl
  | cons c rest =>
    rw [List.cons_append, List.dropWhile_cons, hcore c List.mem_cons_self]
    simp only [Bool.false_eq_true, if_false]
    rw [← List.cons_append, List.reverse_append, hreverse, List.reverse_reverse]

/-- A property of texts without blanks holds of a trimmed text if it holds of the text between blanks. -/
theorem betweenBlanks_iff {P : List Char → Prop} (hP : ∀ core, P core → ∀ c ∈ core, isBlank c = false) :
    BetweenBlanks P text ↔ P (trimBlanks text) := by
  constructor
  · rintro ⟨front, core, back, rfl, hfront, hback, hcore⟩
    rwa [trimBlanks, trimEnds_append hfront (hP core hcore) hback]
  · intro h
    obtain ⟨front, back, htext, hfront, hback⟩ := exists_trimEnds isBlank text
    exact ⟨front, trimBlanks text, back, htext, hfront, hback, h⟩

theorem IsDigits.not_isBlank (h : IsDigits text) : ∀ c ∈ text, isBlank c = false := fun c hc =>
  isBlank_of_isPlain (isPlain_of_isDigit (h c hc))

theorem IsSign.not_isBlank (h : IsSign negative front) : ∀ c ∈ front, isBlank c = false := by
  cases h <;> simp <;> decide

theorem SpellsInteger.not_isBlank {n : ℤ} (h : SpellsInteger n text) : ∀ c ∈ text, isBlank c = false := by
  cases h with
  | signed hsign _ hdigits =>
    exact List.forall_mem_append.mpr ⟨hsign.not_isBlank, hdigits.not_isBlank⟩

theorem SpellsExponent.not_isBlank {exponent : ℤ} (h : SpellsExponent exponent text) :
    ∀ c ∈ text, isBlank c = false := by
  cases h with
  | missing => simp
  | marked hmark hrest =>
    refine List.forall_mem_cons.mpr ⟨?_, hrest.not_isBlank⟩
    rcases hmark with rfl | rfl <;> decide

theorem SpellsDecimal.not_isBlank (h : SpellsDecimal q text) : ∀ c ∈ text, isBlank c = false := by
  cases h with
  | whole _ hdigits htail =>
    exact List.forall_mem_append.mpr ⟨hdigits.not_isBlank, htail.not_isBlank⟩
  | point _ hwhole hfraction htail =>
    refine List.forall_mem_append.mpr ⟨hwhole.not_isBlank, List.forall_mem_cons.mpr ⟨by decide, ?_⟩⟩
    exact List.forall_mem_append.mpr ⟨hfraction.not_isBlank, htail.not_isBlank⟩

/-- A blank has no case. -/
theorem toLower_of_isBlank {c : Char} (h : isBlank c = true) : c.toLower = c := by
  unfold Char.toLower
  split
  · next hupper =>
    have hlow : 65 ≤ c.toNat := UInt32.le_iff_toNat_le.mp hupper.1
    have hhigh : c.toNat ≤ 90 := UInt32.le_iff_toNat_le.mp hupper.2
    simp only [isBlank, Bool.or_eq_true, Bool.and_eq_true, decide_eq_true_eq, beq_iff_eq] at h
    omega
  · rfl

theorem not_isBlank_of_map_toLower {word : List Char} (h : body.map Char.toLower = word)
    (hword : word.all fun c => !isBlank c) : ∀ c ∈ body, isBlank c = false := by
  intro c hc
  by_contra hblank
  rw [Bool.not_eq_false] at hblank
  have hmem : c ∈ word := by
    rw [← h, ← toLower_of_isBlank hblank]
    exact List.mem_map_of_mem hc
  simpa [hblank] using List.all_eq_true.mp hword c hmem

/-- No float numeral holds a blank. -/
theorem Spells.not_isBlank {x : Binary64} (h : Spells x text) : ∀ c ∈ text, isBlank c = false := by
  cases h with
  | number hsign hbody => exact List.forall_mem_append.mpr ⟨hsign.not_isBlank, hbody.not_isBlank⟩
  | infinity hsign hword =>
    refine List.forall_mem_append.mpr ⟨hsign.not_isBlank, ?_⟩
    rcases hword with hword | hword <;> exact not_isBlank_of_map_toLower hword (by decide)
  | nan hsign hword =>
    exact List.forall_mem_append.mpr
      ⟨hsign.not_isBlank, not_isBlank_of_map_toLower hword (by decide)⟩

/-- A trimmed text is read as what the numeral between its blanks spells. -/
theorem binary64?_trimBlanks_iff {x : Binary64} :
    binary64? (trimBlanks text) = some x ↔ BetweenBlanks (Spells x) text := by
  rw [betweenBlanks_iff fun core hcore => hcore.not_isBlank, binary64?_eq_some_iff]

end Numeral

end TokenBucket
