import TokenBucket.Bucket.Draw
import TokenBucket.Decimal.Shortest
import TokenBucket.Wire.Reply

/-!
# Encodings of a settlement

Stores have answered a request in more than one form, and the in-process store can answer in each of
them. As a flag: zero or one, and the balance as text. As a truth value with the balance as a double. As
a count: how many tokens were granted, at least one even for a look, and the whole part of the balance.

## Main definitions

* `Encoding`, `Encoding.reply`, `Encoding.name`.
-/

namespace TokenBucket

/-- A form of reply. -/
inductive Encoding where
  /-- A flag and a text. -/
  | flag
  /-- A truth value and a double. -/
  | boolean
  /-- A count and an integer. -/
  | count
deriving DecidableEq, Inhabited

namespace Encoding

/-- The reply that tells how a demand for `requested` tokens was settled. -/
def reply (encoding : Encoding) (requested : Int64) (settlement : Settlement) : Reply :=
  let tokens := settlement.tokens
  match encoding with
  | .flag => .array [.integer (if settlement.isGranted then 1 else 0), .text tokens.shortestText]
  | .boolean => .array [.boolean settlement.isGranted, .double tokens]
  | .count =>
    .array [.integer (if settlement.isGranted then max requested 1 else 0),
      .integer (saturateInt64 tokens.truncate)]

/-- The name of an encoding. -/
def name : Encoding → String
  | .flag => "flag"
  | .boolean => "boolean"
  | .count => "count"

/-- All encodings. -/
def all : List Encoding := [.flag, .boolean, .count]

end Encoding

end TokenBucket
