import TokenBucket.Binary64.Arithmetic
import TokenBucket.Decimal.Numeral
import TokenBucket.Decimal.Significant
import TokenBucket.Text.Blank
import TokenBucket.Wire.RecordFields
import TokenBucket.Wire.Request

/-!
# What the bucket script does

One run of the script reads the two fields of a record, and unless no tokens are asked for writes both
and sets the time to keep. All its numbers are doubles read from text: a float numeral between blanks is
a number, and anything else is no value. If either field has no value the bucket is full.

The balance is written and answered with seventeen significant digits, enough for it to read back as the
same double, and the instant as an integer.

A run whose arguments are no numbers breaks off where the first of them is used. With a missing time to
keep that is after the record has been written, which is why the fields and the commands of a run are
given beside its answer.

## Main definitions

* `Script.number?`, `Script.exactText`, `Script.integerText`, `Script.plainText`: numbers and text.
* `Script.Run`, `Script.run`.
* `Script.answer`: the reply for an answer.
-/

namespace TokenBucket

namespace Script

/-- The number that a text denotes, if any. -/
def number? (text : String) : Option Binary64 := Numeral.binary64? (trimAsciiBlanks text.toList)

/-- A number with all the digits it needs. -/
def exactText (x : Binary64) : String := x.generalText 17

/-- A number as the argument of a command. -/
def plainText (x : Binary64) : String := x.generalText 14

/-- The whole part of a number; the least integer stands for what 64 bits cannot hold. -/
def integerText (x : Binary64) : String :=
  let whole := x.truncate
  let fits := x.isNaN = false ∧ Int64.minValue.toInt ≤ whole ∧ whole ≤ Int64.maxValue.toInt
  toString (if fits then whole else Int64.minValue.toInt)

/-- Why a run breaks off. -/
inductive Fault where
  /-- A number was needed in a calculation and there was none. -/
  | missingNumber
  /-- The time to keep is no number. -/
  | missingTimeToKeep
deriving DecidableEq

/-- The answer of a run: whether the tokens were granted, and the balance as text. -/
structure Answer where
  /-- Whether the tokens were granted. -/
  granted : Bool
  /-- The balance after the run. -/
  tokens : String
deriving DecidableEq

/-- What a run did. -/
structure Run where
  /-- The answer, or why there is none. -/
  answer : Except Fault Answer
  /-- The commands that the script gave, in order. -/
  commands : List (List String)
  /-- The fields of the key afterwards. -/
  fields : Fields

/-- The command that reads the two fields of a record. -/
def readCommand (key : String) : List String :=
  ["HMGET", key, Fields.tokensName, Fields.instantName]

/-- The command that writes the two fields of a record. -/
def writeCommand (key tokens instant : String) : List String :=
  ["HSET", key, Fields.tokensName, tokens, Fields.instantName, instant]

/-- The command that sets for how long a record is kept. -/
def keepCommand (key : String) (ttl : Binary64) : List String :=
  ["PEXPIRE", key, plainText ttl]

/-- The numbers of a run that has all it needs for the calculation. -/
structure Numbers where
  /-- Tokens that flow in each second. -/
  rate : Binary64
  /-- The most tokens the bucket holds. -/
  capacity : Binary64
  /-- The instant of the run. -/
  now : Binary64
  /-- Tokens asked for. -/
  requested : Binary64
deriving DecidableEq

/-- The balance that a run finds in the fields of a key, refilled to its instant. -/
def Numbers.available (n : Numbers) (fields : Fields) : Binary64 :=
  let field (name : String) : Option Binary64 := (fields.get? name).bind number?
  let (tokens, last) := match field Fields.tokensName, field Fields.instantName with
    | some tokens, some last => (tokens, last)
    | _, _ => (n.capacity, n.now)
  let since := n.now - last
  let elapsed := (if Binary64.zero < since then since else .zero) / Binary64.ofInt 1000
  let balance := tokens + elapsed * n.rate
  if balance < n.capacity then balance else n.capacity

/-- The settlement of a run. -/
def Numbers.settle (n : Numbers) (fields : Fields) : Settlement :=
  let balance := n.available fields
  if n.requested ≤ .zero ∧ .zero ≤ n.requested then .looked balance
  else if n.requested ≤ balance then .granted (balance - n.requested)
  else .denied balance

/-- A run that has all the numbers for its calculation. -/
def runWith (key : String) (n : Numbers) (ttl : Option Binary64) (fields : Fields) : Run :=
  let settlement := n.settle fields
  let tokens := exactText settlement.tokens
  let answer : Answer := ⟨settlement.isGranted, tokens⟩
  if settlement.persists then
    let instant := integerText n.now
    let written := (fields.insert Fields.tokensName tokens).insert Fields.instantName instant
    let commands := [readCommand key, writeCommand key tokens instant]
    match ttl with
    | some ttl => ⟨.ok answer, commands ++ [keepCommand key ttl], written⟩
    | none => ⟨.error .missingTimeToKeep, commands, written⟩
  else ⟨.ok answer, [readCommand key], fields⟩

/-- One run of the script for a key, with the positional arguments rate, capacity, instant, tokens asked
for and time to keep, on the fields of that key. -/
def run (key : String) (arguments : List String) (fields : Fields) : Run :=
  let argument (i : Nat) : Option Binary64 := arguments[i]?.bind number?
  match argument 0, argument 1, argument 2, argument 3 with
  | some rate, some capacity, some now, some requested =>
    runWith key ⟨rate, capacity, now, requested⟩ (argument 4) fields
  | _, _, _, _ => ⟨.error .missingNumber, [readCommand key], fields⟩

/-- The reply that carries an answer. -/
def Answer.reply (a : Answer) : Reply :=
  .array [.integer (if a.granted then 1 else 0), .text a.tokens]

end Script

end TokenBucket
