/-!
# Blanks

A blank is a character with the Unicode property White_Space: the five controls from tab to carriage
return, the space, the next-line control, and the spaces and separators of the higher blocks. Numbers in
replies and in stored fields may stand between blanks, which trimming removes at both ends and nowhere
else.

## Main definitions

* `isBlank`, `trimBlanks`.
* `isAsciiBlank`, `trimAsciiBlanks`: the same with the blanks of ASCII alone.
-/

namespace TokenBucket

/-- Whether a character has the property White_Space. -/
def isBlank (c : Char) : Bool :=
  (9 ≤ c.toNat && c.toNat ≤ 13) || c.toNat == 0x20 || c.toNat == 0x85 || c.toNat == 0xA0 ||
  c.toNat == 0x1680 || (0x2000 ≤ c.toNat && c.toNat ≤ 0x200A) || c.toNat == 0x2028 ||
  c.toNat == 0x2029 || c.toNat == 0x202F || c.toNat == 0x205F || c.toNat == 0x3000

/-- Whether a character is one of the six blanks of ASCII. -/
def isAsciiBlank (c : Char) : Bool :=
  (9 ≤ c.toNat && c.toNat ≤ 13) || c.toNat == 0x20

/-- A text without the characters of a class at either end. -/
def trimEnds (strip : Char → Bool) (text : List Char) : List Char :=
  ((text.dropWhile strip).reverse.dropWhile strip).reverse

/-- A text without the blanks at either end. -/
def trimBlanks (text : List Char) : List Char := trimEnds isBlank text

/-- A text without the ASCII blanks at either end. -/
def trimAsciiBlanks (text : List Char) : List Char := trimEnds isAsciiBlank text

/-- Every blank of ASCII is a blank. -/
theorem isBlank_of_isAsciiBlank {c : Char} (h : isAsciiBlank c = true) : isBlank c = true := by
  simp only [isAsciiBlank, Bool.or_eq_true] at h
  simp only [isBlank, Bool.or_eq_true]
  rcases h with h | h <;> simp [h]

end TokenBucket
