import TokenBucket.Document.Reader
import TokenBucket.Settings.Basic

/-!
# Settings from one document

A document is read as settings without any conversion between kinds of value. A section is a mapping, and
where nothing is written it has no entries; a list, a text that is not empty or a written null is no
section. A known name may occur once in its section, and unknown names mean nothing. A number is a bare text that is
a numeral of its kind; a text is a leaf of any kind; a choice is a leaf that is exactly the name of an
alternative, or a tag that is.

## Main definitions

* `Strict.float?`, `Strict.int64?`, `Strict.uint64?`: the numerals of a document.
* `Strict.settings?`, `Settings.ofText`.
-/

namespace TokenBucket

namespace Strict

/-- Takes one plus sign off the front, behind which no other sign may stand. -/
def withoutPlus? : List Char → Option (List Char)
  | '+' :: rest => if rest.head? = some '+' ∨ rest.head? = some '-' then none else some rest
  | text => some text

/-- Reads a float: a finite float numeral, or one of the words for infinity and not-a-number with a point
in front. -/
def float? (text : List Char) : Option Binary64 := do
  let unsigned ← withoutPlus? text
  let word := String.ofList unsigned
  if [".inf", ".Inf", ".INF"].contains word then some (.infinity false)
  else if ["-.inf", "-.Inf", "-.INF"].contains word then some (.infinity true)
  else if [".nan", ".NaN", ".NAN"].contains (String.ofList text) then some .nan
  else (Numeral.binary64? unsigned).filter Binary64.isFinite

/-- Whether a text has a leading zero with nothing but digits behind it. -/
def hasLeadingZero (text : List Char) : Bool :=
  let digits := (Numeral.sign text).2
  match digits with
  | '0' :: rest => !rest.isEmpty && rest.all Char.isDigit
  | _ => false

/-- The bases that an integer can be written in, with their marks. -/
def bases : List (List Char × Nat) := [(['0', 'x'], 16), (['0', 'o'], 8), (['0', 'b'], 2)]

/-- Reads a natural number with the mark of a base in front. -/
def marked? (text : List Char) : Option Nat :=
  bases.findSome? fun (mark, base) =>
    if mark.isPrefixOf text then Numeral.naturalIn? base (text.drop 2) else none

/-- Reads an integer: digits with an optional sign and without leading zeros, or digits of a marked
base. -/
def integer? (text : List Char) : Option Int := do
  let unsigned ← withoutPlus? text
  match marked? unsigned with
  | some n => return n
  | none =>
    match text with
    | '-' :: rest =>
      match marked? rest with
      | some n => return -(n : Int)
      | none => if hasLeadingZero text then none else Numeral.integer? text
    | _ => if hasLeadingZero text then none else Numeral.integer? unsigned

/-- Reads an integer of 64 bits. -/
def int64? (text : List Char) : Option Int64 := (integer? text).bind Numeral.toInt64?

/-- Reads an unsigned integer of 64 bits; it may not have a minus sign. -/
def uint64? (text : List Char) : Option UInt64 := do
  if text.head? = some '-' then none
  let n ← integer? text
  if n < UInt64.size then some (UInt64.ofNat n.toNat) else none

/-- A leaf that was written bare, read as a numeral. -/
def bare? {α : Type} (read : List Char → Option α) : Node → Option α
  | .scalar text true _ => read text.toList
  | _ => none

/-- A leaf as a text. -/
def text? : Node → Option String
  | .scalar text _ _ => some text
  | _ => none

/-- A leaf as one of some named alternatives. A tag of its own may name the alternative instead, if
nothing else is written. -/
def choice? {α : Type} (all : List α) (name : α → String) : Node → Option α
  | .scalar text bare tag =>
    let own := tag.filter fun tag => tag.length > 1 && !tag.startsWith "!!"
    match own with
    | some tag =>
      if bare && ["", "~", "null"].contains text then all.find? fun a => "!" ++ name a = tag else none
    | none => all.find? fun a => name a = text
  | _ => none

/-- The entries of a section that have known names. Each name is a leaf, and a known one may occur
once. -/
def entries? (known : List String) : List (Node × Node) → Option (KeyMap Node)
  | [] => some .empty
  | (key, value) :: rest => do
    let name ← text? key
    let others ← entries? known rest
    if !known.contains name then some others
    else if (others.get? name).isSome then none
    else some (others.insert name value)

/-- A node as a section. -/
def section? (known : List String) : Node → Option (KeyMap Node)
  | .mapping entries => entries? known entries
  | .scalar "" _ _ => some .empty
  | _ => none

/-- The value of a name in a section, or the usual one if the name does not occur. -/
def setting {α : Type} (entries : KeyMap Node) (name : String) (read : Node → Option α) (usual : α) :
    Option α :=
  match entries.get? name with
  | some node => read node
  | none => some usual

/-- A node as the settings of the store. -/
def store? (node : Node) : Option StoreSettings := do
  let entries ← section? StoreSettings.names node
  let usual : StoreSettings := {}
  return {
    backend := ← setting entries "backend" (choice? Backend.all Backend.name) usual.backend
    url := ← setting entries "url" text? usual.url
    keyBeginning := ← setting entries "key_prefix" text? usual.keyBeginning
    commandTimeoutMillis :=
      ← setting entries "command_timeout_ms" (bare? uint64?) usual.commandTimeoutMillis
    encoding := ← setting entries "reply_encoding" (choice? Encoding.all Encoding.name) usual.encoding
    sweepSeconds := ← setting entries "sweep_interval_secs" (bare? uint64?) usual.sweepSeconds }

/-- A node as the settings of the buckets. -/
def limiter? (node : Node) : Option LimiterSettings := do
  let entries ← section? LimiterSettings.names node
  let usual : LimiterSettings := {}
  return {
    rate := ← setting entries "rate" (bare? float?) usual.rate
    capacity := ← setting entries "capacity" (bare? int64?) usual.capacity
    idleSeconds := ← setting entries "idle_expiration_secs" (bare? uint64?) usual.idleSeconds }

/-- A node as settings. -/
def settings? (node : Node) : Option Settings := do
  let entries ← section? Settings.names node
  return {
    store := ← setting entries "store" store? {}
    limiter := ← setting entries "limiter" limiter? {} }

/-- Whether a character may stand in a document: tabs, line breaks and what is neither a control
character nor no character at all. -/
def isDocumentCharacter (c : Char) : Bool :=
  let code := c.toNat
  code == 9 || code == 10 || code == 13 || code == 0x85 || (0x20 ≤ code && code ≤ 0x7E) ||
    (0xA0 ≤ code && code != 0xFFFE && code != 0xFFFF)

/-- The control character that ends a line like a line feed. -/
def nextLine : Char := '\u0085'

end Strict

/-- The settings in a text with at most one document. -/
def Settings.ofText (text : String) : Except Failure Settings :=
  let settings := do
    guard (text.toList.all Strict.isDocumentCharacter)
    match ← Node.ofText? (text.map fun c => if c = Strict.nextLine then '\n' else c) with
    | [] => some ({} : Settings)
    | [document] => Strict.settings? document
    | _ => none
  match settings with
  | some settings => .ok settings
  | none => .error (.settings .unreadableDocument)

end TokenBucket
