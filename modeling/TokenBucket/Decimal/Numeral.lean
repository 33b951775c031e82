import TokenBucket.Decimal.Basic

/-!
# Numerals

Two grammars of numerals in plain text, both without surrounding blanks.

* An *integer numeral* is an optional sign and at least one digit.
* A *float numeral* is an optional sign followed either by one of the words `inf`, `infinity`, `nan` in
  any case, or by digits with an optional point (at least one digit on one side of it) and an optional
  exponent: `e` or `E`, an optional sign, at least one digit.

Reading an integer numeral is exact and fails outside the range asked for; reading a float numeral
rounds the decimal it denotes once, so that too large a numeral is infinite and too small a one zero.

## Main definitions

* `Numeral.natural?`, `Numeral.naturalIn?`: digits alone, in base ten and in others.
* `Numeral.integer?`, `Numeral.int64?`, `Numeral.uint64?`.
* `Numeral.decimal?`: the unsigned decimal part of the float grammar.
* `Numeral.binary64?`.
-/

namespace TokenBucket

namespace Numeral

/-- Takes an optional sign off the front; `true` is minus. -/
def sign : List Char → Bool × List Char
  | '-' :: rest => (true, rest)
  | '+' :: rest => (false, rest)
  | text => (false, text)

/-- The natural number with the given digits. -/
def digitsValue (digits : List Char) : Nat := Nat.ofDigitChars 10 digits 0

/-- Reads at least one digit and nothing else. -/
def natural? (text : List Char) : Option Nat :=
  if !text.isEmpty && text.all Char.isDigit then some (digitsValue text) else none

/-- Reads an integer numeral. -/
def integer? (text : List Char) : Option Int :=
  let (negative, digits) := sign text
  (natural? digits).map fun n => if negative then -(n : Int) else n

/-- An integer, if 64 bits hold it. -/
def toInt64? (n : Int) : Option Int64 :=
  if Int64.minValue.toInt ≤ n ∧ n ≤ Int64.maxValue.toInt then some (Int64.ofInt n) else none

/-- Reads an integer numeral within the range of 64-bit integers. -/
def int64? (text : List Char) : Option Int64 := (integer? text).bind toInt64?

/-- Reads an unsigned numeral, a plus sign allowed, below `bound`. -/
def below? (bound : Nat) (text : List Char) : Option Nat :=
  let digits := match text with
    | '+' :: rest => rest
    | _ => text
  (natural? digits).filter (· < bound)

/-- Reads an unsigned numeral of 64 bits. -/
def uint64? (text : List Char) : Option UInt64 :=
  (below? UInt64.size text).map UInt64.ofNat

/-- The value of a digit in a base up to sixteen, in either case. -/
def digitIn? (base : Nat) (c : Char) : Option Nat :=
  let value :=
    if c.isDigit then some (c.toNat - 48)
    else if 'a' ≤ c ∧ c ≤ 'f' then some (c.toNat - 87)
    else if 'A' ≤ c ∧ c ≤ 'F' then some (c.toNat - 55)
    else none
  value.filter (· < base)

/-- Reads at least one digit of a base and nothing else. -/
def naturalIn? (base : Nat) (text : List Char) : Option Nat :=
  if text.isEmpty then none
  else (text.mapM (digitIn? base)).map fun digits => digits.foldl (fun n d => base * n + d) 0

/-- Reads the exponent part of a float numeral, which may be missing. -/
def exponent? : List Char → Option Int
  | [] => some 0
  | mark :: rest => if mark = 'e' ∨ mark = 'E' then integer? rest else none

/-- Reads the digits, point and exponent of a float numeral. -/
def decimal? (text : List Char) : Option Decimal :=
  let (whole, rest) := text.span Char.isDigit
  let (fraction, rest) := match rest with
    | '.' :: behind => behind.span Char.isDigit
    | _ => ([], rest)
  if whole.isEmpty && fraction.isEmpty then none
  else (exponent? rest).map fun exponent =>
    ⟨digitsValue (whole ++ fraction), exponent - fraction.length⟩

/-- Reads a float numeral. -/
def binary64? (text : List Char) : Option Binary64 :=
  let (negative, body) := sign text
  let word := String.ofList (body.map Char.toLower)
  if word = "inf" ∨ word = "infinity" then some (.infinity negative)
  else if word = "nan" then some .nan
  else (decimal? body).map (.ofDecimal negative)

end Numeral

end TokenBucket
