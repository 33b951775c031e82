import TokenBucket.Binary64.Arithmetic
import TokenBucket.Decimal.Numeral
import TokenBucket.Failure
import TokenBucket.Text.Blank

/-!
# Outcomes

The meaning of a reply to a request. A reply means something if it is a pair: first whether the tokens
were granted, as a truth value, as a flag or count of granted tokens, or as the absent value for no; then
the balance, as an integer, a double, or a float numeral between blanks. The balance has to lie between
zero and the capacity, where a rounding slack of `10 ^ (-9)` above the capacity is forgiven and cut off.
Everything else is refused with the first thing that is wrong with it.

## Main definitions

* `Outcome`, `Outcome.remaining`.
* `Outcome.ofReply`: the meaning of a reply.
-/

namespace TokenBucket

/-- The meaning of a reply. -/
structure Outcome where
  /-- Whether the tokens were granted. -/
  granted : Bool
  /-- The balance left, possibly fractional. -/
  tokens : Binary64
deriving DecidableEq

namespace Outcome

/-- The balance in whole tokens, what is left of one not counted. -/
def remaining (o : Outcome) : Int64 := saturateInt64 o.tokens.truncate

/-- How far a balance may exceed the capacity. -/
def slack : Binary64 := .ofDecimal false ⟨1, -9⟩

/-- Whether the first item says that tokens were granted. -/
def grantOf : Reply → Except ProtocolFault Bool
  | .boolean granted => .ok granted
  | .nil => .ok false
  | .integer count => if 0 ≤ count then .ok (0 < count) else .error (.negativeGrant count)
  | item => .error (.grantKind item.kind)

/-- The balance that the second item says is left. -/
def balanceOf : Reply → Except ProtocolFault Binary64
  | .integer tokens => .ok (.ofInt tokens.toInt)
  | .double tokens => .ok tokens
  | .text text =>
    match Numeral.binary64? (trimBlanks text.toList) with
    | some tokens => .ok tokens
    | none => .error (.balanceText text)
  | item => .error (.balanceKind item.kind)

/-- The balance within the bounds of a bucket, if it lies there up to the slack. -/
def boundedBalance (capacity : Int64) (tokens : Binary64) : Except ProtocolFault Binary64 :=
  let bound := Binary64.ofInt capacity.toInt
  if tokens.isFinite = false ∨ tokens < .zero ∨ bound + slack < tokens then
    .error (.balanceRange tokens capacity)
  else .ok (tokens.capped bound)

/-- The meaning of a pair of items. -/
def ofPair (capacity : Int64) (grant balance : Reply) : Except ProtocolFault Outcome := do
  let granted ← grantOf grant
  let tokens ← balanceOf balance
  let tokens ← boundedBalance capacity tokens
  return ⟨granted, tokens⟩

/-- The meaning of a reply to a request on a bucket of the given capacity. -/
def ofReply (capacity : Int64) (reply : Reply) : Except Failure Outcome :=
  Except.mapError .protocol <|
    match reply with
    | .array [grant, balance] => ofPair capacity grant balance
    | .array items => .error (.pairLength items.length)
    | reply => .error (.notAPair reply.kind)

end Outcome

end TokenBucket
