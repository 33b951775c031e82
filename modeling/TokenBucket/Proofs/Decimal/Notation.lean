import TokenBucket.Decimal.Numeral
import TokenBucket.Text.Blank
import TokenBucket.Proofs.Decimal.Value

/-!
# Reading what was written

Numbers are written in two notations, positional and scientific, and read by one grammar. Here the
grammar is run on the written texts: what comes out is a decimal of the same worth, hence the same
double. Together with the choice of digits (`TokenBucket.Proofs.Decimal.Value`) this shows that a finite
double survives being written with the fewest digits (`Binary64.isText_shortestText`) and with
seventeen (`Binary64.isText_generalText`), and that an integer survives being written at all.

Written numbers hold no blanks, so trimming leaves them as they are (`trimBlanks_eq_self`).

## Main definitions

* `isPlain`: the characters that written finite numbers consist of.
* `Numeral.IsExponent`, `Decimal.IsWritten`, `Binary64.IsText`: texts that are read as an exponent, a
  decimal and a double.

## Main results

* `Numeral.decimal?_whole`, `Numeral.decimal?_point`: the grammar on digits, point and exponent.
* `Decimal.isWritten_positional`, `Decimal.isWritten_scientific`.
* `Binary64.isText_shortestText`, `Binary64.isText_generalText`, `Binary64.isText_toString_int`.
* `Numeral.integer?_toString`, `Numeral.int64?_toString`.
-/

namespace TokenBucket

/-! ### Digits -/

theorem isDigit_of_mem_digitsOf {n : ℕ} {c : Char} (h : c ∈ digitsOf n) : c.isDigit = true :=
  Nat.isDigit_of_mem_toDigits (by norm_num) (by norm_num) h

theorem digitsOf_ne_nil (n : ℕ) : digitsOf n ≠ [] := Nat.toDigits_ne_nil

namespace Numeral

theorem digitsValue_digitsOf (n : ℕ) : digitsValue (digitsOf n) = n := Nat.ofDigitChars_ten_toDigits

theorem digitsValue_append (l m : List Char) :
    digitsValue (l ++ m) = 10 ^ m.length * digitsValue l + digitsValue m := by
  rw [digitsValue, Nat.ofDigitChars_append, Nat.ofDigitChars_eq_ofDigitChars_zero]
  rfl

theorem digitsValue_replicate_zero (k : ℕ) : digitsValue (List.replicate k '0') = 0 := by
  rw [digitsValue, Nat.ofDigitChars_replicate_zero, Nat.mul_zero]

/-! ### The grammar of integers -/

theorem sign_of_isDigit {c : Char} {rest : List Char} (h : c.isDigit = true) :
    sign (c :: rest) = (false, c :: rest) := by
  unfold sign
  split
  · next heq =>
    obtain rfl := (List.cons.inj heq).1
    exact absurd h (by decide)
  · next heq =>
    obtain rfl := (List.cons.inj heq).1
    exact absurd h (by decide)
  · rfl

section Integers

variable {digits : List Char} (hne : digits ≠ []) (hdigits : ∀ c ∈ digits, c.isDigit = true)

include hne hdigits

theorem natural?_of_isDigit : natural? digits = some (digitsValue digits) := by
  have hempty : digits.isEmpty = false := by simpa using hne
  rw [natural?, hempty, List.all_eq_true.mpr hdigits]
  rfl

theorem integer?_minus : integer? ('-' :: digits) = some (-(digitsValue digits : ℤ)) := by
  simp only [integer?, sign, natural?_of_isDigit hne hdigits]
  rfl

theorem integer?_plus : integer? ('+' :: digits) = some (digitsValue digits : ℤ) := by
  simp only [integer?, sign, natural?_of_isDigit hne hdigits]
  rfl

theorem integer?_of_isDigit : integer? digits = some (digitsValue digits : ℤ) := by
  have hsign : sign digits = (false, digits) := by
    obtain ⟨c, rest, rfl⟩ := List.exists_cons_of_ne_nil hne
    exact sign_of_isDigit (hdigits c List.mem_cons_self)
  simp only [integer?, hsign, natural?_of_isDigit hne hdigits]
  rfl

end Integers

/-! ### The grammar of floats -/

variable {whole fraction tail : List Char}

/-- Digits end where something else begins. -/
theorem span_isDigit (hwhole : ∀ c ∈ whole, c.isDigit = true)
    (htail : ∀ c ∈ tail.head?, c.isDigit = false) :
    (whole ++ tail).span Char.isDigit = (whole, tail) := by
  rw [List.span_eq_takeWhile_dropWhile, List.takeWhile_append_of_pos hwhole,
    List.dropWhile_append_of_pos hwhole]
  cases tail with
  | nil => simp
  | cons c rest =>
    have hc : c.isDigit = false := htail c rfl
    simp [hc]

/-- A numeral without a point. -/
theorem decimal?_whole (hne : whole ≠ []) (hwhole : ∀ c ∈ whole, c.isDigit = true)
    (htail : ∀ c ∈ tail.head?, c.isDigit = false ∧ c ≠ '.') :
    decimal? (whole ++ tail) =
      (exponent? tail).map fun exponent => ⟨digitsValue whole, exponent⟩ := by
  have hempty : whole.isEmpty = false := by simpa using hne
  rw [decimal?, span_isDigit hwhole fun c hc => (htail c hc).1]
  cases tail with
  | nil => simp [hempty]
  | cons c rest =>
    have hpoint : c ≠ '.' := (htail c rfl).2
    simp only
    split
    · next heq => exact absurd (List.cons.inj heq).1 hpoint
    · simp [hempty]

/-- A numeral with a point and digits on one side of it at least. -/
theorem decimal?_point (hne : whole ≠ [] ∨ fraction ≠ []) (hwhole : ∀ c ∈ whole, c.isDigit = true)
    (hfraction : ∀ c ∈ fraction, c.isDigit = true)
    (htail : ∀ c ∈ tail.head?, c.isDigit = false) :
    decimal? (whole ++ '.' :: (fraction ++ tail)) =
      (exponent? tail).map fun exponent =>
        ⟨digitsValue (whole ++ fraction), exponent - fraction.length⟩ := by
  have hempty : (whole.isEmpty && fraction.isEmpty) = false := by
    rcases hne with h | h <;> simp [h]
  rw [decimal?, span_isDigit hwhole (by simp)]
  simp only
  rw [span_isDigit hfraction htail]
  simp [hempty]

theorem toLower_of_isDigit {c : Char} (h : c.isDigit = true) : c.toLower = c := by
  simp only [Char.isDigit, ge_iff_le, Bool.and_eq_true, decide_eq_true_eq] at h
  unfold Char.toLower
  split
  · next hupper => exact absurd (UInt32.le_trans hupper.1 h.2) (by decide : ¬ 'A'.val ≤ '9'.val)
  · rfl

/-- What begins with a digit is none of the words for infinity and not-a-number. -/
theorem binary64?_of_isDigit {c : Char} (rest : List Char) (h : c.isDigit = true) :
    binary64? (c :: rest) = (decimal? (c :: rest)).map (.ofDecimal false) ∧
      binary64? ('-' :: c :: rest) = (decimal? (c :: rest)).map (.ofDecimal true) := by
  have hword : ∀ d ds, d.isDigit = false →
      String.ofList ((c :: rest).map Char.toLower) ≠ String.ofList (d :: ds) := by
    intro d ds hd heq
    obtain rfl := (List.cons.inj (String.ofList_injective heq)).1
    rw [toLower_of_isDigit h, h] at hd
    cases hd
  have hinf := hword 'i' ['n', 'f'] (by decide)
  have hinfinity := hword 'i' ['n', 'f', 'i', 'n', 'i', 't', 'y'] (by decide)
  have hnan := hword 'n' ['a', 'n'] (by decide)
  constructor
  · rw [binary64?]
    rw [sign_of_isDigit h]
    simp only
    rw [if_neg (by rintro (h | h); exacts [hinf h, hinfinity h]), if_neg hnan]
  · rw [binary64?]
    simp only [sign]
    rw [if_neg (by rintro (h | h); exacts [hinf h, hinfinity h]), if_neg hnan]

end Numeral

/-! ### Both notations of a decimal -/

/-- Whether a character occurs in written finite numbers. -/
def isPlain (c : Char) : Bool := c.isDigit || c == '.' || c == 'e' || c == '-' || c == '+'

theorem isPlain_of_isDigit {c : Char} (h : c.isDigit = true) : isPlain c = true := by
  simp [isPlain, h]

namespace Numeral

/-- A text that writes the exponent part of a numeral: it begins with neither a digit nor a point, is
plain throughout, and is read as the exponent. -/
structure IsExponent (exponent : ℤ) (tail : List Char) : Prop where
  head : ∀ c ∈ tail.head?, c.isDigit = false ∧ c ≠ '.'
  plain : ∀ c ∈ tail, isPlain c = true
  read : exponent? tail = some exponent

/-- A missing exponent is zero. -/
theorem isExponent_nil : IsExponent 0 [] where
  head := by simp
  plain := by simp
  read := rfl

/-- The exponent part of scientific notation is read as it was meant. -/
theorem isExponent_signed (exponent : ℤ) {digits : List Char} (hne : digits ≠ [])
    (hdigits : ∀ c ∈ digits, c.isDigit = true) (hvalue : digitsValue digits = exponent.natAbs) :
    IsExponent exponent ('e' :: (if exponent < 0 then '-' else '+') :: digits) where
  head := by simp
  plain c hc := by
    rcases List.mem_cons.mp hc with rfl | hc
    · decide
    · rcases List.mem_cons.mp hc with rfl | hc
      · split <;> decide
      · exact isPlain_of_isDigit (hdigits c hc)
  read := by
    rw [exponent?, if_pos (Or.inl rfl)]
    split
    · next h => rw [integer?_minus hne hdigits, hvalue, Int.ofNat_natAbs_of_nonpos h.le, neg_neg]
    · next h => rw [integer?_plus hne hdigits, hvalue, Int.natAbs_of_nonneg (not_lt.mp h)]

end Numeral

namespace Decimal

open Numeral

/-- A text that writes a decimal: it begins with a digit, is plain throughout, and is read as a
decimal of the same worth. -/
structure IsWritten (d : Decimal) (text : List Char) : Prop where
  exists_cons : ∃ c rest, text = c :: rest ∧ c.isDigit = true
  plain : ∀ c ∈ text, isPlain c = true
  read : ∃ d', decimal? text = some d' ∧ d'.value = d.value

section Written

variable {d : Decimal} {whole fraction tail : List Char} {exponent : ℤ}

theorem exists_cons_of_ne_nil (hne : whole ≠ []) (hwhole : ∀ c ∈ whole, c.isDigit = true) :
    ∃ c rest, whole ++ tail = c :: rest ∧ c.isDigit = true := by
  obtain ⟨c, rest, rfl⟩ := List.exists_cons_of_ne_nil hne
  exact ⟨c, rest ++ tail, rfl, hwhole c List.mem_cons_self⟩

/-- Digits and an exponent write the number that the digits denote, moved by the exponent. -/
theorem isWritten_whole_append (hne : whole ≠ []) (hwhole : ∀ c ∈ whole, c.isDigit = true)
    (htail : IsExponent exponent tail)
    (hvalue : (Decimal.mk (digitsValue whole) exponent).value = d.value) :
    d.IsWritten (whole ++ tail) where
  exists_cons := exists_cons_of_ne_nil hne hwhole
  plain c hc := by
    rcases List.mem_append.mp hc with hc | hc
    · exact isPlain_of_isDigit (hwhole c hc)
    · exact htail.plain c hc
  read := by
    refine ⟨⟨digitsValue whole, exponent⟩, ?_, hvalue⟩
    rw [decimal?_whole hne hwhole htail.head, htail.read, Option.map_some]

/-- Digits around a point and an exponent write the decimal with all these digits, moved by the
exponent and back by the number of places behind the point. -/
theorem isWritten_point_append (hne : whole ≠ []) (hwhole : ∀ c ∈ whole, c.isDigit = true)
    (hfraction : ∀ c ∈ fraction, c.isDigit = true) (htail : IsExponent exponent tail)
    (hcoefficient : digitsValue (whole ++ fraction) = d.coefficient)
    (hexponent : d.exponent = exponent - fraction.length) :
    d.IsWritten (whole ++ '.' :: (fraction ++ tail)) where
  exists_cons := exists_cons_of_ne_nil hne hwhole
  plain c hc := by
    rcases List.mem_append.mp hc with hc | hc
    · exact isPlain_of_isDigit (hwhole c hc)
    rcases List.mem_cons.mp hc with rfl | hc
    · decide
    rcases List.mem_append.mp hc with hc | hc
    · exact isPlain_of_isDigit (hfraction c hc)
    · exact htail.plain c hc
  read := by
    refine ⟨d, ?_, rfl⟩
    rw [decimal?_point (Or.inl hne) hwhole hfraction fun c hc => (htail.head c hc).1, htail.read,
      Option.map_some, hcoefficient, ← hexponent]

/-- Digits alone write the natural number that they denote. -/
theorem isWritten_whole (hne : whole ≠ []) (hwhole : ∀ c ∈ whole, c.isDigit = true)
    (hvalue : (digitsValue whole : ℚ) = d.value) : d.IsWritten whole := by
  have hzero : (Decimal.mk (digitsValue whole) 0).value = d.value := by simpa [value] using hvalue
  simpa using isWritten_whole_append hne hwhole isExponent_nil hzero

end Written

/-! ### Positional notation -/

/-- Positional notation writes the decimal. -/
theorem isWritten_positional (d : Decimal) : d.IsWritten d.positional := by
  have hdigits {c : Char} (hc : c ∈ digitsOf d.coefficient) : c.isDigit = true :=
    isDigit_of_mem_digitsOf hc
  have hzeros {k : ℕ} {c : Char} (hc : c ∈ List.replicate k '0') : c.isDigit = true := by
    rw [List.eq_of_mem_replicate hc]
    decide
  rw [positional]
  simp only
  split
  · next hexp =>
    obtain ⟨e, he⟩ := Int.eq_ofNat_of_zero_le hexp
    have hvalue : d.value = ((d.coefficient * 10 ^ e : ℕ) : ℚ) := by
      rw [value, he, zpow_natCast]
      push_cast
      rfl
    split
    · next hzero =>
      refine isWritten_whole (digitsOf_ne_nil _) (fun c => hdigits) ?_
      rw [hvalue, digitsValue_digitsOf, hzero, Nat.zero_mul]
    · refine isWritten_whole (by simp [digitsOf_ne_nil]) (fun c hc => ?_) ?_
      · rcases List.mem_append.mp hc with hc | hc
        · exact hdigits hc
        · exact hzeros hc
      · rw [hvalue, digitsValue_append, digitsValue_replicate_zero, digitsValue_digitsOf,
          List.length_replicate, he, Int.toNat_natCast, Nat.add_zero, Nat.mul_comm]
  · next hexp =>
    set places := (-d.exponent).toNat with hplaces
    set padded := List.replicate (places + 1 - (digitsOf d.coefficient).length) '0' ++
      digitsOf d.coefficient with hpadded
    have hall : ∀ c ∈ padded, c.isDigit = true := fun c hc => by
      rcases List.mem_append.mp hc with hc | hc
      · exact hzeros hc
      · exact hdigits hc
    have hlength : places + 1 ≤ padded.length := by
      rw [hpadded, List.length_append, List.length_replicate]
      omega
    rw [← List.append_nil (padded.drop _)]
    refine isWritten_point_append ?_ (fun c hc => hall c (List.mem_of_mem_take hc))
      (fun c hc => hall c (List.mem_of_mem_drop hc)) isExponent_nil ?_ ?_
    · rw [ne_eq, List.take_eq_nil_iff, not_or, ← List.length_eq_zero_iff]
      omega
    · rw [List.take_append_drop, hpadded, digitsValue_append, digitsValue_replicate_zero,
        digitsValue_digitsOf, Nat.mul_zero, Nat.zero_add]
    · rw [List.length_drop]
      omega

/-! ### Scientific notation -/

/-- The digits of an exponent, two of them at least. -/
def exponentDigits (n : ℕ) : List Char :=
  if (digitsOf n).length < 2 then '0' :: digitsOf n else digitsOf n

theorem exponentDigits_ne_nil (n : ℕ) : exponentDigits n ≠ [] := by
  rw [exponentDigits]
  split
  · exact List.cons_ne_nil _ _
  · exact digitsOf_ne_nil n

theorem isDigit_of_mem_exponentDigits {n : ℕ} {c : Char} (h : c ∈ exponentDigits n) :
    c.isDigit = true := by
  rw [exponentDigits] at h
  split at h
  · rcases List.mem_cons.mp h with rfl | h
    · decide
    · exact isDigit_of_mem_digitsOf h
  · exact isDigit_of_mem_digitsOf h

theorem digitsValue_exponentDigits (n : ℕ) : digitsValue (exponentDigits n) = n := by
  rw [exponentDigits]
  split
  · have hzero : digitsValue ['0'] = 0 := digitsValue_replicate_zero 1
    rw [← List.singleton_append, digitsValue_append, hzero, Nat.mul_zero, Nat.zero_add,
      digitsValue_digitsOf]
  · exact digitsValue_digitsOf n

/-- Scientific notation writes the decimal. -/
theorem isWritten_scientific (d : Decimal) : d.IsWritten d.scientific := by
  obtain ⟨lead, rest, hdigits⟩ := List.exists_cons_of_ne_nil (digitsOf_ne_nil d.coefficient)
  set first := d.exponent + rest.length with hfirst
  have hlength : d.exponent + ((digitsOf d.coefficient).length - 1 : ℕ) = first := by
    rw [hdigits, List.length_cons, Nat.add_sub_cancel]
  have hall : ∀ c ∈ lead :: rest, c.isDigit = true := fun c hc =>
    isDigit_of_mem_digitsOf (hdigits ▸ hc)
  have hlead : ∀ c ∈ [lead], c.isDigit = true := fun c hc =>
    hall c (List.mem_cons.mpr (Or.inl (List.mem_singleton.mp hc)))
  have hvalue : digitsValue (lead :: rest) = d.coefficient := by
    rw [← hdigits, digitsValue_digitsOf]
  have htail := isExponent_signed first (exponentDigits_ne_nil _)
    (fun c => isDigit_of_mem_exponentDigits) (digitsValue_exponentDigits _)
  -- The point is written only where another digit follows it.
  cases rest with
  | nil =>
    have htext : d.scientific = [lead] ++
        'e' :: (if first < 0 then '-' else '+') :: exponentDigits first.natAbs := by
      rw [scientific, hlength, hdigits]
      rfl
    rw [htext]
    refine isWritten_whole_append (List.cons_ne_nil _ _) hlead htail ?_
    rw [hvalue, hfirst, List.length_nil, Nat.cast_zero, Int.add_zero]
  | cons next rest =>
    have htext : d.scientific = [lead] ++ '.' :: ((next :: rest) ++
        'e' :: (if first < 0 then '-' else '+') :: exponentDigits first.natAbs) := by
      rw [scientific, hlength, hdigits]
      rfl
    have hnext : ∀ c ∈ next :: rest, c.isDigit = true := fun c hc =>
      hall c (List.mem_cons_of_mem _ hc)
    rw [htext]
    exact isWritten_point_append (List.cons_ne_nil _ _) hlead hnext htail hvalue
      (Int.add_sub_cancel _ _).symm

/-- The double read from a written decimal is the one nearest to it. -/
theorem IsWritten.binary64? {d : Decimal} {text : List Char} (h : d.IsWritten text)
    (negative : Bool) :
    Numeral.binary64? (if negative then '-' :: text else text) = some (.ofDecimal negative d) := by
  obtain ⟨c, rest, rfl, hc⟩ := h.exists_cons
  obtain ⟨d', hread, hvalue⟩ := h.read
  obtain ⟨hplus, hminus⟩ := binary64?_of_isDigit rest hc
  have hcongr := Rung.ofDecimal_congr hvalue
  cases negative with
  | false => simpa [hread, Binary64.ofDecimal, hcongr] using hplus
  | true => simpa [hread, Binary64.ofDecimal, hcongr] using hminus

theorem IsWritten.plain_signed {d : Decimal} {text : List Char} (h : d.IsWritten text)
    (negative : Bool) : ∀ c ∈ if negative then '-' :: text else text, isPlain c = true := by
  intro c hc
  cases negative with
  | false => exact h.plain c hc
  | true =>
    rcases List.mem_cons.mp hc with rfl | hc
    · decide
    · exact h.plain c hc

end Decimal

/-! ### Blanks -/

/-- Plain characters are no blanks. -/
theorem isBlank_of_isPlain {c : Char} (h : isPlain c = true) : isBlank c = false := by
  simp only [isPlain, Bool.or_eq_true, beq_iff_eq] at h
  rcases h with (((h | rfl) | rfl) | rfl) | rfl
  · simp only [Char.isDigit, Bool.and_eq_true, decide_eq_true_eq, ge_iff_le,
      UInt32.le_iff_toNat_le] at h
    obtain ⟨hlow, hhigh⟩ := h
    change 48 ≤ c.toNat at hlow
    change c.toNat ≤ 57 at hhigh
    simp only [isBlank, Bool.or_eq_false_iff, Bool.and_eq_false_iff, decide_eq_false_iff_not,
      beq_eq_false_iff_ne]
    omega
  all_goals decide

theorem isAsciiBlank_of_isPlain {c : Char} (h : isPlain c = true) : isAsciiBlank c = false := by
  by_contra hblank
  rw [Bool.not_eq_false] at hblank
  exact absurd (isBlank_of_isAsciiBlank hblank) (by simp [isBlank_of_isPlain h])

/-- Without anything to strip a text is left as it is. -/
theorem trimEnds_eq_self {strip : Char → Bool} {text : List Char}
    (h : ∀ c ∈ text, strip c = false) : trimEnds strip text = text := by
  have hkeep : ∀ l : List Char, (∀ c ∈ l, strip c = false) → l.dropWhile strip = l := by
    intro l hl
    cases l with
    | nil => rfl
    | cons c rest => rw [List.dropWhile_cons, hl c List.mem_cons_self]; rfl
  rw [trimEnds, hkeep text h, hkeep text.reverse fun c hc => h c (List.mem_reverse.mp hc),
    List.reverse_reverse]

theorem trimBlanks_eq_self {text : List Char} (h : ∀ c ∈ text, isPlain c = true) :
    trimBlanks text = text :=
  trimEnds_eq_self fun c hc => isBlank_of_isPlain (h c hc)

theorem trimAsciiBlanks_eq_self {text : List Char} (h : ∀ c ∈ text, isPlain c = true) :
    trimAsciiBlanks text = text :=
  trimEnds_eq_self fun c hc => isAsciiBlank_of_isPlain (h c hc)

/-! ### Finite doubles and integers as texts -/

/-- A text that is plain and is read as a double. -/
structure Binary64.IsText (x : Binary64) (text : String) : Prop where
  plain : ∀ c ∈ text.toList, isPlain c = true
  read : Numeral.binary64? text.toList = some x

namespace Binary64

/-- The shortest text of a finite double is read as that double. -/
theorem isText_shortestText {s : Bool} {r : Rung} (hr : r < .infinity) :
    (number s r).IsText (number s r).shortestText := by
  have hwritten := r.shortest.isWritten_positional
  have hfinite : r.isInfinite = false := Rung.isInfinite_eq_false_iff.mpr hr
  have htext : (number s r).shortestText.toList =
      if s then '-' :: r.shortest.positional else r.shortest.positional := by
    simp [shortestText, hfinite]
  refine ⟨?_, ?_⟩
  · rw [htext]
    exact hwritten.plain_signed s
  · rw [htext, hwritten.binary64?, Binary64.ofDecimal, Rung.ofDecimal_shortest]

/-- The text of a finite double with seventeen significant digits is read as that double. -/
theorem isText_generalText {s : Bool} {r : Rung} (hr : r < .infinity) :
    (number s r).IsText ((number s r).generalText 17) := by
  have hfinite : r.isInfinite = false := Rung.isInfinite_eq_false_iff.mpr hr
  obtain ⟨d, text, hwritten, hread, htext⟩ : ∃ (d : Decimal) (text : List Char),
      d.IsWritten text ∧ Rung.ofDecimal d = r ∧
        ((number s r).generalText 17).toList = if s then '-' :: text else text := by
    by_cases hzero : r.isZero
    · refine ⟨⟨0, 0⟩, ['0'], ?_, ?_, ?_⟩
      · have hvalue : Numeral.digitsValue ['0'] = 0 := Numeral.digitsValue_replicate_zero 1
        refine Decimal.isWritten_whole (List.cons_ne_nil _ _) (by simp) ?_
        rw [hvalue, Decimal.value, Nat.cast_zero, zero_mul]
      · rw [Rung.isZero_iff.mp hzero, Rung.ofDecimal_natCast, Nat.zero_mul]
        exact Rung.nearest_eq_zero (by norm_num)
      · simp [generalText, hfinite, hzero]
    · have hne : r ≠ .zero := fun h => hzero (Rung.isZero_iff.mpr h)
      set d := (r.significant 17).withoutTrailingZeros with hd
      have hread : Rung.ofDecimal d = r := by
        rw [hd, Rung.ofDecimal_withoutTrailingZeros, Rung.ofDecimal_significant hne]
      simp only [generalText, hfinite, hzero, String.toList_ofList, ← hd, Bool.false_eq_true,
        if_false]
      refine ⟨d, _, ?_, hread, rfl⟩
      split
      · exact d.isWritten_positional
      · exact d.isWritten_scientific
  refine ⟨?_, ?_⟩
  · rw [htext]
    exact hwritten.plain_signed s
  · rw [htext, hwritten.binary64?, Binary64.ofDecimal, hread]

end Binary64

/-- The text of an integer: its digits behind an optional minus. -/
theorem toList_toString_int (n : ℤ) :
    (toString n).toList = if n < 0 then '-' :: digitsOf n.natAbs else digitsOf n.natAbs := by
  cases n with
  | ofNat m =>
    have hnonneg : ¬ Int.ofNat m < 0 := not_lt.mpr (Int.natCast_nonneg m)
    rw [if_neg hnonneg]
    exact Nat.toList_repr
  | negSucc m =>
    rw [if_pos (Int.negSucc_lt_zero m)]
    change ("-" ++ (m + 1).repr).toList = _
    rw [String.toList_append, Nat.toList_repr]
    rfl

theorem Decimal.isWritten_digitsOf (n : ℕ) : (Decimal.mk n 0).IsWritten (digitsOf n) := by
  refine Decimal.isWritten_whole (digitsOf_ne_nil n) (fun c => isDigit_of_mem_digitsOf) ?_
  simp [Decimal.value, Numeral.digitsValue_digitsOf]

/-- The text of an integer is read as the double nearest to it. -/
theorem Binary64.isText_toString_int (n : ℤ) : (Binary64.ofInt n).IsText (toString n) := by
  have hwritten := Decimal.isWritten_digitsOf n.natAbs
  have htext : (toString n).toList =
      if decide (n < 0) = true then '-' :: digitsOf n.natAbs else digitsOf n.natAbs := by
    rw [toList_toString_int]
    simp
  refine ⟨?_, ?_⟩
  · rw [htext]
    exact hwritten.plain_signed _
  · rw [htext, hwritten.binary64?, Binary64.ofDecimal, Rung.ofDecimal_natCast]
    rfl

theorem Binary64.isText_toString_nat (n : ℕ) : (Binary64.ofInt n).IsText (toString n) :=
  Binary64.isText_toString_int n

/-- The text of an integer is read as that integer. -/
theorem Numeral.integer?_toString (n : ℤ) : Numeral.integer? (toString n).toList = some n := by
  have hne := digitsOf_ne_nil n.natAbs
  have hdigits : ∀ c ∈ digitsOf n.natAbs, c.isDigit = true := fun c => isDigit_of_mem_digitsOf
  rw [toList_toString_int]
  split
  · next h =>
    rw [integer?_minus hne hdigits, digitsValue_digitsOf, Int.ofNat_natAbs_of_nonpos h.le, neg_neg]
  · next h =>
    rw [integer?_of_isDigit hne hdigits, digitsValue_digitsOf, Int.natAbs_of_nonneg (not_lt.mp h)]

theorem Numeral.int64?_toString (n : Int64) :
    Numeral.int64? (toString n.toInt).toList = some n := by
  rw [int64?, integer?_toString, Option.bind_some, toInt64?,
    if_pos ⟨n.minValue_le_toInt, n.toInt_le⟩, Int64.ofInt_toInt]

end TokenBucket
