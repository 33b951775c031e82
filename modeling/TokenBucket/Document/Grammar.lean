import TokenBucket.Document.Scalar

/-!
# The grammar of settings documents

A node is written in a block or in brackets. In a block the columns of the lines say what belongs
together: the entries of a list begin with a dash, the entries of a mapping with a key and a colon, all
entries of one block in one column, and what belongs to an entry stands deeper. Only a list may stand in
the same column as the key it belongs to. In brackets line breaks and columns mean nothing.

A node may be given a tag, and a name by which a later node can repeat it.

All readers take a fuel, which the length of the document bounds: every call either reads a character or
passes to a smaller kind of node.

## Main definitions

* `Reading.blockNode`, `Reading.bracketNode`: a node in a block and in brackets.
-/

namespace TokenBucket

/-- What may stand before a node. -/
structure Properties where
  /-- The name of the node. -/
  anchor : Option String
  /-- The tag of the node. -/
  tag : Option String

namespace Properties

/-- Nothing before a node. -/
def none : Properties := ⟨Option.none, Option.none⟩

/-- Whether something stands before the node. -/
def isSome (p : Properties) : Bool := p.anchor.isSome || p.tag.isSome

end Properties

namespace Reading

/-- Whether a character may occur in the name of a node. -/
def isNameCharacter (c : Char) : Bool := c.isAlphanum || c == '_' || c == '-'

/-- A name behind its mark. -/
def name : Reading String := do
  skip 1
  let name ← takeWhile isNameCharacter
  let next ← ahead 0
  guard (!name.isEmpty &&
    (isGap next || next.any fun c => isBracketMark c || ['?', ':', '%', '@', '\x60'].contains c))
  return String.ofList name

/-- A tag: a mark of exclamation and what follows it without a gap. -/
def tag (inBrackets : Bool) : Reading String := do
  let text ← takeWhile fun c => !isGap (some c) && !(inBrackets && isBracketMark c)
  return String.ofList text

/-- The properties before a node, in either order. -/
def properties (inBrackets : Bool) : Nat → Properties → Reading Properties
  | 0, found => return found
  | fuel + 1, found => do
    match ← ahead 0 with
    | some c =>
      if c = '&' ∧ found.anchor.isNone then
        let anchor ← name
        skipBlanks
        properties inBrackets fuel { found with anchor := some anchor }
      else if c = '!' ∧ found.tag.isNone then
        let tag ← tag inBrackets
        skipBlanks
        properties inBrackets fuel { found with tag := some tag }
      else return found
    | none => return found

/-- Gives a node its properties, and remembers it under its name. -/
def finish (found : Properties) (node : Node) : Reading Node := do
  let node := node.withTag found.tag
  if let some name := found.anchor then
    modify fun s => { s with anchors := (name, node) :: s.anchors }
  return node

/-- The node that a reference repeats. -/
def reference : Reading Node := do
  let name ← name
  let some node := (← get).anchors.lookup name | failure
  return node

mutual

/-- A node inside brackets. Where no node is written it is absent. -/
def bracketNode : Nat → Reading Node
  | 0 => failure
  | fuel + 1 => do
    toToken true true
    guard !(← atMarker)
    let found ← properties true 2 .none
    toToken true true
    let some c ← ahead 0 | failure
    if c = '*' then
      guard !found.isSome
      reference
    else if c = '[' then
      skip 1
      finish found (.sequence (← bracketItems fuel))
    else if c = '\x7b' then
      skip 1
      finish found (.mapping (← bracketEntries fuel))
    else if c = '\x27' then finish found (.scalar (← singleQuoted) false none)
    else if c = '"' then finish found (.scalar (← doubleQuoted) false none)
    else if c = ',' ∨ c = ']' ∨ c = '\x7d' ∨ c = ':' then
      guard (found.isSome || c = ':')
      finish found .absent
    else finish found (.scalar (← bareText true (-1)) true none)

/-- The value behind a colon inside brackets. -/
def bracketValue : Nat → Reading Node
  | 0 => failure
  | fuel + 1 => do
    toToken true true
    let next ← ahead 0
    if next = some ',' || next = some ']' || next = some '\x7d' then return .absent
    bracketNode fuel

/-- The items of a list behind its opening bracket, up to the closing one. A key and a value make an
item of one entry. -/
def bracketItems : Nat → Reading (List Node)
  | 0 => failure
  | fuel + 1 => do
    toToken true true
    if (← ahead 0) = some ']' then
      skip 1
      return []
    let (item, paired) ← bracketKey fuel
    let item ← if paired then do
        let value ← bracketValue fuel
        pure (Node.mapping [(item, value)])
      else pure item
    toToken true true
    if (← ahead 0) = some ',' then
      skip 1
      return item :: (← bracketItems fuel)
    expect ']'
    return [item]

/-- The entries of a mapping behind its opening bracket, up to the closing one. -/
def bracketEntries : Nat → Reading (List (Node × Node))
  | 0 => failure
  | fuel + 1 => do
    toToken true true
    if (← ahead 0) = some '\x7d' then
      skip 1
      return []
    let (key, paired) ← bracketKey fuel
    let value ← if paired then bracketValue fuel else pure .absent
    toToken true true
    if (← ahead 0) = some ',' then
      skip 1
      return (key, value) :: (← bracketEntries fuel)
    expect '\x7d'
    return [(key, value)]

/-- A node inside brackets, and whether a colon follows that makes it a key. A key that is not marked by a
question mark stands on one line with its colon. -/
def bracketKey : Nat → Reading (Node × Bool)
  | 0 => failure
  | fuel + 1 => do
    let marked ← atIndicator '?'
    if marked then skip 1
    toToken true true
    let start ← line
    let key ← if marked then bracketValue fuel else bracketNode fuel
    toToken true true
    if (← ahead 0) = some ':' then
      guard (marked || (← line) = start)
      skip 1
      return (key, true)
    return (key, false)

end

/-- The content of a node on the present line: anything but a block. -/
def inlineContent (fuel : Nat) (parent : Int) (found : Properties) : Reading Node := do
  let some c ← ahead 0 | finish found .absent
  if c = '*' then
    guard !found.isSome
    reference
  else if c = '[' ∨ c = '\x7b' then finish found (← bracketNode fuel)
  else if c = '\x27' then finish found (.scalar (← singleQuoted) false none)
  else if c = '"' then finish found (.scalar (← doubleQuoted) false none)
  else if c = '|' ∨ c = '>' then finish found (.scalar (← blockText parent) false none)
  else if found.isSome ∧ c = ':' ∧ isGap (← ahead 1) then finish found .absent
  else finish found (.scalar (← bareText false parent) true none)

/-- Whether the node just read, which began on a line, is a key: a colon with a gap follows on that
line. -/
def isKey (start : Nat) : Reading Bool := do
  if (← line) ≠ start then return false
  let before ← get
  skipBlanks
  if ← atIndicator ':' then return true
  set before
  return false

mutual

/-- A node in a block that stands inside one at `parent`; the next token is its first one. With
`keyAllowed` it may be the first key of a mapping, and with `level` it may be a list in the column of
the parent. -/
def blockNode : Nat → (parent : Int) → (keyAllowed level : Bool) → Reading Node
  | 0, _, _, _ => failure
  | fuel + 1, parent, keyAllowed, level => do
    let column ← column
    if ← atDocumentEnd then return .absent
    if ← atIndicator '-' then
      if parent < column ∨ (level ∧ parent = column) then
        guard keyAllowed
        return .sequence (← blockItems fuel column)
      else return .absent
    if (column : Int) ≤ parent then return .absent
    if ← atIndicator '?' then
      guard keyAllowed
      return .mapping (← blockEntries fuel column)
    let start ← line
    let found ← properties false 2 .none
    toToken false true
    if found.isSome && (← line) ≠ start then
      let node ← blockNode fuel parent true level
      finish found node
    else if !found.isSome && (← atIndicator ':') then
      guard keyAllowed
      return .mapping (← blockEntries fuel column)
    else
      let content ← inlineContent fuel parent found
      if keyAllowed && (← isKey start) then
        return .mapping (← blockEntriesFrom fuel column content)
      return content

/-- The entries of a list that begins at a column. -/
def blockItems : Nat → (column : Nat) → Reading (List Node)
  | 0, _ => failure
  | fuel + 1, column => do
    if (← Reading.column) ≠ column || (← atDocumentEnd) || !(← atIndicator '-') then return []
    skip 1
    toToken false false
    let item ← blockNode fuel column true false
    toToken false true
    return item :: (← blockItems fuel column)

/-- The entries of a mapping whose keys begin at a column. -/
def blockEntries : Nat → (column : Nat) → Reading (List (Node × Node))
  | 0, _ => failure
  | fuel + 1, column => do
    if (← Reading.column) ≠ column || (← atDocumentEnd) then return []
    if ← atIndicator '?' then
      skip 1
      toToken false false
      let key ← blockNode fuel column true true
      toToken false true
      let marked := (← Reading.column) = column && (← atIndicator ':')
      let value ← if marked then do
          skip 1
          toToken false false
          blockNode fuel column true true
        else pure .absent
      toToken false true
      return (key, value) :: (← blockEntries fuel column)
    if ← atIndicator ':' then blockEntriesFrom fuel column .absent
    else
      let start ← line
      let found ← properties false 2 .none
      guard ((← line) = start)
      let key ← inlineContent fuel column found
      guard (← isKey start)
      blockEntriesFrom fuel column key

/-- The entries of a mapping whose first key has been read; the next token is its colon. -/
def blockEntriesFrom : Nat → (column : Nat) → Node → Reading (List (Node × Node))
  | 0, _, _ => failure
  | fuel + 1, column, key => do
    skip 1
    let start ← line
    toToken false true
    let value ← blockNode fuel column ((← line) ≠ start) true
    toToken false true
    return (key, value) :: (← blockEntries fuel column)

end

end Reading

end TokenBucket
