import TokenBucket.Document.Node

/-!
# Scanning a settings document

The characters of a document are taken one by one, with an eye on the line and the column. Between two
tokens stand spaces, line breaks and comments; a tab is one of them only where no block can begin, since
columns say which block a line belongs to.

## Main definitions

* `Scan`, `Reading`: what is left to read, and readers that may fail.
* `Reading.toToken`: goes to the next token.
* `Reading.atMarker`: whether a line begins or ends a document.
-/

namespace TokenBucket

/-- What is left of a document, and where. -/
structure Scan where
  /-- The characters not yet read. -/
  rest : List Char
  /-- The number of line breaks read. -/
  line : Nat
  /-- The number of characters read since the last line break. -/
  column : Nat
  /-- Whether these are all spaces. -/
  atIndent : Bool
  /-- The nodes that later nodes can refer to by name, the latest first. -/
  anchors : List (String × Node)

/-- A reader of part of a document; it fails where the document is malformed. -/
abbrev Reading := StateT Scan Option

/-- Moves over one character. -/
def Scan.step (s : Scan) : Scan :=
  match s.rest with
  | [] => s
  | c :: rest =>
    if c = '\n' then { s with rest := rest, line := s.line + 1, column := 0, atIndent := true }
    else { s with rest := rest, column := s.column + 1, atIndent := s.atIndent && c == ' ' }

/-- Moves over everything between two tokens. Tabs are passed over only if `tabs` says so; behind a line
break that is inside brackets only. -/
def Scan.seek (inBrackets : Bool) : (comment tabs : Bool) → List Char → Scan → Scan
  | _, _, [], s => s
  | true, tabs, c :: rest, s =>
    if c = '\n' then seek inBrackets false inBrackets rest s.step else seek inBrackets true tabs rest s.step
  | false, tabs, c :: rest, s =>
    if c = ' ' || (c = '\t' && tabs) then seek inBrackets false tabs rest s.step
    else if c = '\n' then seek inBrackets false inBrackets rest s.step
    else if c = '#' then seek inBrackets true tabs rest s.step
    else s

/-- Whether a place is free of a visible character: a space, a tab, a line break or the end. -/
def isGap : Option Char → Bool
  | none => true
  | some c => c == ' ' || c == '\t' || c == '\n'

/-- Whether a character opens, closes or parts the items of a bracketed list. -/
def isBracketMark (c : Char) : Bool := c == ',' || c == '[' || c == ']' || c == '\x7b' || c == '\x7d'

namespace Reading

/-- The character `n` places ahead. -/
def ahead (n : Nat) : Reading (Option Char) := return (← get).rest[n]?

/-- Moves over a number of characters. -/
def skip : Nat → Reading Unit
  | 0 => pure ()
  | n + 1 => do modify Scan.step; skip n

/-- Moves over as many of the next characters as satisfy a test, and returns them. -/
def takeWhile (test : Char → Bool) : Reading (List Char) := do
  let taken := (← get).rest.takeWhile test
  skip taken.length
  return taken

/-- Moves over spaces and tabs. -/
def skipBlanks : Reading Unit := do let _ ← takeWhile fun c => c == ' ' || c == '\t'

/-- Moves over a given character. -/
def expect (c : Char) : Reading Unit := do
  guard ((← ahead 0) = some c)
  skip 1

/-- Goes to the next token. Outside brackets a tab is never passed over where a line is indented. -/
def toToken (inBrackets tabs : Bool) : Reading Unit :=
  modify fun s => s.seek inBrackets false (tabs && (inBrackets || !s.atIndent)) s.rest

/-- Whether the next characters are the given mark of a document at the beginning of a line. -/
def atMark (mark : List Char) : Reading Bool := do
  let s ← get
  return s.column == 0 && mark.isPrefixOf s.rest && isGap s.rest[3]?

/-- Whether the next characters begin or end a document. -/
def atMarker : Reading Bool := return (← atMark "---".toList) || (← atMark "...".toList)

/-- Whether nothing is left. -/
def atEnd : Reading Bool := return (← get).rest.isEmpty

/-- Whether nothing is left of the present document. -/
def atDocumentEnd : Reading Bool := return (← atEnd) || (← atMarker)

/-- Whether the next character is a block indicator: the given mark with a gap behind it. -/
def atIndicator (mark : Char) : Reading Bool :=
  return (← ahead 0) = some mark && isGap (← ahead 1)

/-- The present line. -/
def line : Reading Nat := return (← get).line

/-- The present column. -/
def column : Reading Nat := return (← get).column

end Reading

end TokenBucket
