import TokenBucket.Document.Reader
import TokenBucket.Settings.Basic

/-!
# Values of layered settings

Sources of settings that are laid over one another meet as values of a common type. Values are converted
freely when they are read: numbers and truth values are written out where a text is wanted, texts are
read where a number is wanted, a truth value counts as one or zero, and a float wanted as an integer is
rounded, a half away from zero, and brought into the range.

## Main definitions

* `Value`, `Value.ofNode?`, `Value.ofVariable`.
* `Value.float?`, `Value.int64?`, `Value.uint64?`, `Value.text?`, `Value.choice?`.
* `Value.settings?`.
-/

namespace TokenBucket

/-- A value of layered settings. -/
inductive Value where
  /-- No value. -/
  | nil
  /-- A truth value. -/
  | boolean (b : Bool)
  /-- An integer. -/
  | integer (n : Int64)
  /-- A float. -/
  | float (x : Binary64)
  /-- A text. -/
  | text (s : String)
  /-- A list. -/
  | list (items : List Value)
  /-- Named values. -/
  | table (entries : List (String × Value))
deriving Inhabited

/-- A text in lower case, as far as that gives a letter of ASCII. -/
def lowered (text : String) : String :=
  String.ofList (text.toList.map fun c => if c = '\u212A' then 'k' else c.toLower)

namespace Value

/-- Reads an integer of 64 bits in a base, with an optional sign. -/
def signedIn? (base : Nat) (text : List Char) : Option Int64 :=
  let (negative, digits) := Numeral.sign text
  (Numeral.naturalIn? base digits).bind fun n =>
    Numeral.toInt64? (if negative then -(n : Int) else n)

/-- The words for infinity and not-a-number that a bare text may be. -/
def floatWords : List String :=
  [".inf", ".Inf", ".INF", "+.inf", "+.Inf", "+.INF", "-.inf", "-.Inf", "-.INF", ".nan", "NaN", ".NAN"]

/-- What a float was written as, read as a float numeral; the words for infinity and not-a-number are
none. -/
def ofFloatText? (text : String) : Option Value :=
  (Numeral.binary64? text.toList).map .float

/-- A bare text as a value: a null, a truth value, an integer, a float, or else a text. -/
def ofBare? (text : String) : Option Value :=
  let chars := text.toList
  let inBase (mark : String) (base : Nat) : Option Int64 :=
    if text.startsWith mark then signedIn? base (chars.drop 2) else none
  if text = "" ∨ text = "~" ∨ text = "null" then some .nil
  else if text = "true" then some (.boolean true)
  else if text = "false" then some (.boolean false)
  else
    let plus := if text.startsWith "+" then Numeral.int64? (chars.drop 1) else none
    match (inBase "0x" 16).or ((inBase "0o" 8).or (plus.or (Numeral.int64? chars))) with
    | some n => some (.integer n)
    | none =>
      if floatWords.contains text ∨ (Numeral.binary64? chars).isSome then ofFloatText? text
      else some (.text text)

/-- A bare text with a tag: one of the usual tags names the kind of value, any other leaves it a
text. -/
def ofTagged? (tag text : String) : Option Value :=
  if tag = "!!bool" then
    some (if text = "true" then .boolean true else if text = "false" then .boolean false else .nil)
  else if tag = "!!int" then some (((Numeral.int64? text.toList).map .integer).getD .nil)
  else if tag = "!!float" then
    if floatWords.contains text ∨ (Numeral.binary64? text.toList).isSome then ofFloatText? text
    else some .nil
  else if tag = "!!null" then some .nil
  else some (.text text)

/-- The name that a value is as a key. Keys are texts and integers. -/
def keyName? : Value → Option String
  | .text s => some s
  | .integer n => some (toString n.toInt)
  | _ => none

mutual

/-- A node as a value. -/
def ofNode? : Node → Option Value
  | .scalar s true none => ofBare? s
  | .scalar s true (some tag) => ofTagged? tag s
  | .scalar s false _ => some (.text s)
  | .sequence items => (ofItems? items).map .list
  | .mapping entries => (ofEntries? entries).map .table

/-- A list of nodes as values. -/
def ofItems? : List Node → Option (List Value)
  | [] => some []
  | item :: rest => do return (← ofNode? item) :: (← ofItems? rest)

/-- Pairs of nodes as named values. -/
def ofEntries? : List (Node × Node) → Option (List (String × Value))
  | [] => some []
  | (key, value) :: rest => do
    let name ← (← ofNode? key).keyName?
    return (name, ← ofNode? value) :: (← ofEntries? rest)

end

/-- The text of an environment variable as a value: a truth value in any case, an integer, a float, or
else a text. -/
def ofVariable (text : String) : Value :=
  let word := lowered text
  if word = "true" then .boolean true
  else if word = "false" then .boolean false
  else
    match Numeral.int64? text.toList with
    | some n => .integer n
    | none =>
      match Numeral.binary64? text.toList with
      | some x => .float x
      | none => .text text

/-- What the words for yes and no stand for, in any case. -/
def truthWord? (text : String) : Option Bool :=
  let word := lowered text
  if ["true", "on", "yes"].contains word then some true
  else if ["false", "off", "no"].contains word then some false
  else none

/-- A value as a float. -/
def float? : Value → Option Binary64
  | .float x => some x
  | .integer n => some (.ofInt n.toInt)
  | .boolean b => some (.ofInt (if b then 1 else 0))
  | .text s =>
    match truthWord? s with
    | some b => some (.ofInt (if b then 1 else 0))
    | none => Numeral.binary64? s.toList
  | _ => none

/-- A value as an integer. -/
def int64? : Value → Option Int64
  | .integer n => some n
  | .boolean b => some (if b then 1 else 0)
  | .float x => some (saturateInt64 x.roundAway)
  | .text s =>
    match truthWord? s with
    | some b => some (if b then 1 else 0)
    | none => Numeral.int64? s.toList
  | _ => none

/-- A value as an unsigned integer. A negative integer is none, but a negative float is brought into the
range. -/
def uint64? : Value → Option UInt64
  | .integer n => if 0 ≤ n then some (UInt64.ofNat n.toInt.toNat) else none
  | .boolean b => some (if b then 1 else 0)
  | .float x => some (saturateUInt64 x.roundAway)
  | .text s =>
    match truthWord? s with
    | some b => some (if b then 1 else 0)
    | none => Numeral.uint64? s.toList
  | _ => none

/-- A value as a text. -/
def text? : Value → Option String
  | .text s => some s
  | .boolean b => some (if b then "true" else "false")
  | .integer n => some (toString n.toInt)
  | .float x => some x.shortestText
  | _ => none

/-- A value as one of some named alternatives: the name in any case, alone or as the only key of a
table. -/
def choice? {α : Type} (all : List α) (name : α → String) : Value → Option α
  | .text s => all.find? fun a => name a = lowered s
  | .table [(key, _)] => all.find? fun a => name a = lowered key
  | _ => none

/-- The values of a section under their names. A list gives them in the order of the names. -/
def section? (names : List String) : Value → Option (String → Option Value)
  | .table entries => some fun name => entries.lookup name
  | .list items => some fun name => (names.zip items).lookup name
  | _ => none

/-- The value of a name in a section, or the usual one if the name does not occur. -/
def setting {α : Type} (entries : String → Option Value) (name : String) (read : Value → Option α)
    (usual : α) : Option α :=
  match entries name with
  | some value => read value
  | none => some usual

/-- A value as the settings of the store. -/
def store? (value : Value) : Option StoreSettings := do
  let entries ← value.section? StoreSettings.names
  let usual : StoreSettings := {}
  return {
    backend := ← setting entries "backend" (choice? Backend.all Backend.name) usual.backend
    url := ← setting entries "url" text? usual.url
    keyBeginning := ← setting entries "key_prefix" text? usual.keyBeginning
    commandTimeoutMillis := ← setting entries "command_timeout_ms" uint64? usual.commandTimeoutMillis
    encoding := ← setting entries "reply_encoding" (choice? Encoding.all Encoding.name) usual.encoding
    sweepSeconds := ← setting entries "sweep_interval_secs" uint64? usual.sweepSeconds }

/-- A value as the settings of the buckets. -/
def limiter? (value : Value) : Option LimiterSettings := do
  let entries ← value.section? LimiterSettings.names
  let usual : LimiterSettings := {}
  return {
    rate := ← setting entries "rate" float? usual.rate
    capacity := ← setting entries "capacity" int64? usual.capacity
    idleSeconds := ← setting entries "idle_expiration_secs" uint64? usual.idleSeconds }

/-- A value as settings. -/
def settings? (value : Value) : Option Settings := do
  let entries ← value.section? Settings.names
  return {
    store := ← setting entries "store" store? {}
    limiter := ← setting entries "limiter" limiter? {} }

end Value

end TokenBucket
