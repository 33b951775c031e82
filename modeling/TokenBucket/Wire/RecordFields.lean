import TokenBucket.Bucket.Record
import TokenBucket.Decimal.Numeral
import TokenBucket.Failure
import TokenBucket.KeyMap
import TokenBucket.Text.Blank

/-!
# Records as fields of text

A store that knows only texts keeps a record as two named fields, the balance and the instant in
milliseconds. Both are numerals that may stand between blanks. The instant is usually an integer
numeral and is then read exactly; a store that writes large integers as floats is understood too, and
what such a float has behind the point is left out. Other fields mean nothing here.

## Main definitions

* `Fields`, `Fields.tokensName`, `Fields.instantName`.
* `Fields.record?`: the record that the fields hold, if any.
-/

namespace TokenBucket

/-- The named texts that a store keeps for one key. -/
abbrev Fields := KeyMap String

namespace Fields

/-- The name of the field with the balance. -/
def tokensName : String := "tokens"

/-- The name of the field with the instant. -/
def instantName : String := "ts"

/-- The balance that a field holds. -/
def tokensOf (text : String) : Except ProtocolFault Binary64 :=
  match Numeral.binary64? (trimBlanks text.toList) with
  | some tokens => .ok tokens
  | none => .error (.recordTokens text)

/-- The instant that a field holds. -/
def instantOf (text : String) : Except ProtocolFault Instant :=
  let numeral := trimBlanks text.toList
  match Numeral.int64? numeral with
  | some millis => .ok millis
  | none =>
    match Numeral.binary64? numeral with
    | some millis =>
      if millis.isFinite then .ok (saturateInt64 millis.truncate)
      else .error (.recordInstant (String.ofList numeral))
    | none => .error (.recordInstant (String.ofList numeral))

/-- The record that the fields of a key hold: none if both of its fields are missing, and a failure
if one is or if one is no numeral. -/
def record? (fields : Fields) : Except Failure (Option Record) :=
  Except.mapError .protocol <|
    match fields.get? tokensName, fields.get? instantName with
    | none, none => .ok none
    | some tokens, some instant => do
      let tokens ← tokensOf tokens
      let instant ← instantOf instant
      return some ⟨tokens, instant⟩
    | _, _ => .error .recordIncomplete

end Fields

end TokenBucket
