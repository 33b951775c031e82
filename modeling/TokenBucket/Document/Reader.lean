import TokenBucket.Document.Grammar

/-!
# Reading settings documents

A text holds any number of documents. The first may begin without ado; each further one begins with a
line of three dashes, unless a line of three dots has ended the one before it. Directives may stand
before the dashes.

## Main definitions

* `Node.ofText?`: the documents of a text, or nothing if it is malformed.
-/

namespace TokenBucket

namespace Reading

/-- The directives before a document, and whether there were any. Only the version and the abbreviation
of tags can be directed. -/
def directives : Nat → Bool → Reading Bool
  | 0, found => return found
  | fuel + 1, found => do
    toToken false false
    if (← column) = 0 && (← ahead 0) = some '%' then
      let line := String.ofList (← takeWhile (· != '\n'))
      guard (line.startsWith "%YAML 1." || line.startsWith "%TAG ")
      directives fuel true
    else return found

/-- Moves over the lines that end a document, and tells whether there were any. -/
def documentEnds : Nat → Bool → Reading Bool
  | 0, found => return found
  | fuel + 1, found => do
    toToken false true
    if ← atMark "...".toList then
      skip 3
      documentEnds fuel true
    else return found

/-- One document after the other. -/
def documents : Nat → (first : Bool) → Reading (List Node)
  | 0, _ => failure
  | fuel + 1, first => do
    let ended ← documentEnds (fuel + 1) first
    let directed ← if ended then directives (fuel + 1) false else pure false
    let marked ← atMark "---".toList
    if (← atEnd) && !directed then return []
    guard (marked || (ended && !directed))
    let start ← line
    if marked then skip 3
    toToken false marked
    modify fun s => { s with anchors := [] }
    let node ← blockNode (8 * ((← get).rest.length + 2)) (-1) (!marked || (← line) ≠ start) false
    toToken false true
    guard (← atDocumentEnd)
    return node :: (← documents fuel false)

end Reading

/-- A text with every line break written as one newline, and without a mark of the byte order at its
beginning. -/
def unifyBreaks : List Char → List Char
  | '\r' :: '\n' :: rest => '\n' :: unifyBreaks rest
  | '\r' :: rest => '\n' :: unifyBreaks rest
  | c :: rest => c :: unifyBreaks rest
  | [] => []

/-- The documents of a text. -/
def Node.ofText? (text : String) : Option (List Node) :=
  let plain := match text.toList with
    | '\uFEFF' :: rest => rest
    | all => all
  let start : Scan := ⟨unifyBreaks plain, 0, 0, true, []⟩
  ((Reading.documents (start.rest.length + 2) true).run start).map Prod.fst

end TokenBucket
