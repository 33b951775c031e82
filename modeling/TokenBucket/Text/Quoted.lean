import TokenBucket.Text.CodedCharacter

/-!
# Quoted text

How messages show a text they were given: between double quotes, with a backslash before a double quote
or a backslash, the usual letters for newline, carriage return, tab and the null character, and the code
in hexadecimal between braces for every other character that cannot be seen standing alone. Single
quotes are left as they are.

## Main definitions

* `Quoted.character`: one character inside quotes.
* `quoted`: a text inside quotes.
-/

namespace TokenBucket

/-- The digits of a natural number in base sixteen, lower case. -/
def hexDigits (n : Nat) : List Char := Nat.toDigits 16 n

namespace Quoted

/-- How a character stands inside double quotes. -/
def character (c : Char) : List Char :=
  if c = '"' then ['\\', '"']
  else if c = '\\' then ['\\', '\\']
  else if c = '\n' then ['\\', 'n']
  else if c = '\r' then ['\\', 'r']
  else if c = '\t' then ['\\', 't']
  else if c.toNat = 0 then ['\\', '0']
  else if isCodedCharacter c then ['\\', 'u', '\x7b'] ++ hexDigits c.toNat ++ ['\x7d']
  else [c]

end Quoted

/-- A text between double quotes. -/
def quoted (text : List Char) : String :=
  String.ofList ('"' :: text.flatMap Quoted.character ++ ['"'])

end TokenBucket
