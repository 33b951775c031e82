import TokenBucket.Decimal.Numeral
import TokenBucket.Document.Scan

/-!
# Texts in a settings document

A text is written bare, between single or double quotes, or as an indented block. A line break inside a
text that is not a literal block is *folded*: the blanks around it go, a single break is read as a space,
and of several breaks in a row the first goes and the others stay.

A bare text ends before a colon with a gap behind it, before a comment, and inside brackets before a
bracket or comma; it goes on over lines that are indented deeper than the block it stands in. Single
quotes have one escape, the doubled quote; double quotes have escapes for control characters and for
characters by their code. A block is literal or folded, has its indentation from its first line unless
stated, and keeps one, none or all of the line breaks at its end.

## Main definitions

* `Reading.bareText`, `Reading.singleQuoted`, `Reading.doubleQuoted`, `Reading.blockText`.
-/

namespace TokenBucket

namespace Reading

/-- What stands for a number of line breaks in a folded text. -/
def folded (breaks : Nat) : List Char :=
  if breaks = 1 then [' '] else List.replicate (breaks - 1) '\n'

/-- Moves over blanks and line breaks, and counts the latter. -/
def skipBreaks : Reading Nat := do
  let gap ← takeWhile fun c => c == ' ' || c == '\t' || c == '\n'
  return gap.count '\n'

/-- Whether a bare text may begin with a character that is followed by another. -/
def canBegin (inBrackets : Bool) (c : Char) (next : Option Char) : Bool :=
  if isGap (some c) then false
  else if c == '-' then !isGap next
  else if c == '?' || c == ':' then !inBrackets && !isGap next
  else !(isBracketMark c || ['#', '&', '*', '!', '|', '>', '\x27', '"', '%', '@', '\x60'].contains c)

/-- The characters of a bare text up to the end of its line, without the blanks at their end. -/
def bareLine (inBrackets : Bool) : (behindGap : Bool) → List Char → Option (List Char)
  | _, [] => some []
  | behindGap, c :: rest =>
    if c = '\n' || (c = '#' && behindGap) then some []
    else if c = ':' && isGap rest.head? then some []
    else if inBrackets && isBracketMark c then some []
    else if inBrackets && c = ':' && rest.head?.any isBracketMark then none
    else (bareLine inBrackets (isGap (some c)) rest).map (c :: ·)

/-- The part of a bare text on the present line, without the blanks at its end. -/
def bareSegment (inBrackets : Bool) : Reading (List Char) := do
  let some taken := bareLine inBrackets false (← get).rest | failure
  let text := (taken.reverse.dropWhile fun c => c == ' ' || c == '\t').reverse
  skip text.length
  return text

/-- The lines on which a bare text goes on. They stand deeper than `parent`. -/
def bareLines (inBrackets : Bool) (parent : Int) : Nat → Reading (List Char)
  | 0 => return []
  | fuel + 1 => do
    let before ← get
    let breaks ← skipBreaks
    let next ← ahead 0
    let isOver := breaks = 0 || next.isNone || next = some '#' || (← atMarker) ||
      (!inBrackets && decide (((← column) : Int) ≤ parent))
    let segment ← if isOver then pure [] else bareSegment inBrackets
    if segment.isEmpty then
      set before
      return []
    return folded breaks ++ segment ++ (← bareLines inBrackets parent fuel)

/-- A bare text. -/
def bareText (inBrackets : Bool) (parent : Int) : Reading String := do
  let some first ← ahead 0 | failure
  guard (canBegin inBrackets first (← ahead 1))
  let segment ← bareSegment inBrackets
  let more ← bareLines inBrackets parent (← get).rest.length
  return String.ofList (segment ++ more)

/-- A gap inside quotes: blanks stand for themselves unless there is a line break among them. -/
def quotedGap : Reading (List Char) := do
  let blanks ← takeWhile fun c => c == ' ' || c == '\t'
  if (← ahead 0) = some '\n' then
    let breaks ← skipBreaks
    guard !(← atMarker)
    return folded breaks
  return blanks

/-- What stands between single quotes, behind the first one. -/
def singleQuotedRest : Nat → Reading (List Char)
  | 0 => failure
  | fuel + 1 => do
    let some c ← ahead 0 | failure
    if c = '\x27' then
      if (← ahead 1) = some '\x27' then
        skip 2
        return '\x27' :: (← singleQuotedRest fuel)
      skip 1
      return []
    if isGap (some c) then
      let gap ← quotedGap
      return gap ++ (← singleQuotedRest fuel)
    skip 1
    return c :: (← singleQuotedRest fuel)

/-- A text between single quotes. -/
def singleQuoted : Reading String := do
  expect '\x27'
  return String.ofList (← singleQuotedRest ((← get).rest.length + 1))

/-- A character by its code in a number of hexadecimal digits. -/
def coded (digits : Nat) : Reading Char := do
  let text := (← get).rest.take digits
  guard (text.length = digits)
  let some code := Numeral.naturalIn? 16 text | failure
  skip digits
  guard (code.isValidChar)
  return Char.ofNat code

/-- The characters that a single letter behind a backslash stands for. -/
def letterEscape? (c : Char) : Option Char :=
  [('0', '\x00'), ('a', '\x07'), ('b', '\x08'), ('t', '\t'), ('\t', '\t'), ('n', '\n'), ('v', '\x0b'),
    ('f', '\x0c'), ('r', '\r'), ('e', '\x1b'), (' ', ' '), ('"', '"'), ('/', '/'), ('\\', '\\'),
    ('N', '\u0085'), ('_', '\u00a0'), ('L', '\u2028'), ('P', '\u2029')].lookup c

/-- What a backslash and what follows it stand for. A backslash before a line break joins the lines. -/
def escape : Reading (List Char) := do
  expect '\\'
  let some c ← ahead 0 | failure
  skip 1
  if c = 'x' then return [← coded 2]
  if c = 'u' then return [← coded 4]
  if c = 'U' then return [← coded 8]
  if c = '\n' then
    let breaks ← skipBreaks
    guard !(← atMarker)
    return List.replicate breaks '\n'
  match letterEscape? c with
  | some meant => return [meant]
  | none => failure

/-- What stands between double quotes, behind the first one. -/
def doubleQuotedRest : Nat → Reading (List Char)
  | 0 => failure
  | fuel + 1 => do
    let some c ← ahead 0 | failure
    if c = '"' then
      skip 1
      return []
    let part ←
      if c = '\\' then escape
      else if isGap (some c) then quotedGap
      else do skip 1; pure [c]
    return part ++ (← doubleQuotedRest fuel)

/-- A text between double quotes. -/
def doubleQuoted : Reading String := do
  expect '"'
  return String.ofList (← doubleQuotedRest ((← get).rest.length + 1))

/-- How the line breaks at the end of a block are treated. -/
inductive Chomping where
  /-- None is kept. -/
  | strip
  /-- One is kept. -/
  | clip
  /-- All are kept. -/
  | keep
deriving DecidableEq

/-- The marks behind the indicator of a block: how to chomp and how deep it is indented, in either
order. -/
def blockHeader : Reading (Chomping × Option Nat) := do
  let marks ← takeWhile fun c => c == '+' || c == '-' || c.isDigit
  let chomping (c : Char) : Chomping := if c = '+' then .keep else .strip
  let depth (c : Char) : Option Nat := if c.isDigit ∧ c ≠ '0' then some (c.toNat - 48) else none
  let isChomp (c : Char) : Bool := c == '+' || c == '-'
  match marks with
  | [] => return (.clip, none)
  | [c] => if isChomp c then return (chomping c, none) else return (.clip, some (← depth c))
  | [c, d] =>
    if isChomp c then return (chomping c, some (← depth d))
    else if isChomp d then return (chomping d, some (← depth c))
    else failure
  | _ => failure

/-- Moves over the indentation of the next line of a block, and over empty lines before it. Returns the
line breaks of the latter. A tab may not stand in the indentation. -/
def blockIndent (indent : Nat) : Nat → Reading (List Char)
  | 0 => return []
  | fuel + 1 => do
    let spaces := ((← get).rest.takeWhile (· == ' ')).length
    skip (min spaces (indent - (← column)))
    let next ← ahead 0
    if next = some '\n' then
      skip 1
      return '\n' :: (← blockIndent indent fuel)
    guard (next ≠ some '\t' || decide (indent ≤ (← column)))
    return []

/-- The greatest column that a line begins at, among the empty lines at the front and the first line
with text. -/
def deepestIndent : (deepest column : Nat) → List Char → Nat
  | deepest, _, [] => deepest
  | deepest, column, c :: rest =>
    if c = ' ' then deepestIndent (max deepest (column + 1)) (column + 1) rest
    else if c = '\n' then deepestIndent deepest 0 rest
    else max deepest column

/-- The lines of a block. `held` is the break behind the line before, `breaks` are those of the empty
lines since, and `indented` tells whether the line before began with a blank. Returned are the text and
the breaks behind it. -/
def blockLines (isLiteral : Bool) (indent : Nat) :
    Nat → (held breaks : List Char) → (indented : Bool) → Reading (List Char × List Char × List Char)
  | 0, held, breaks, _ => return ([], held, breaks)
  | fuel + 1, held, breaks, indented => do
    if (← column) ≠ indent || (← atEnd) then return ([], held, breaks)
    let begins := (← ahead 0).any fun c => c == ' ' || c == '\t'
    let join :=
      if !isLiteral && held = ['\n'] && !indented && !begins then
        if breaks.isEmpty then [' '] else []
      else held
    let text ← takeWhile (· != '\n')
    let ended ← atEnd
    skip 1
    let next ← blockIndent indent (← get).rest.length
    let (more, held, last) ←
      blockLines isLiteral indent fuel (if ended then [] else ['\n']) next begins
    return (join ++ breaks ++ text ++ more, held, last)

/-- A text written as a block inside a block at `parent`. -/
def blockText (parent : Int) : Reading String := do
  let isLiteral := (← ahead 0) = some '|'
  skip 1
  let (chomping, depth) ← blockHeader
  skipBlanks
  if (← ahead 0) = some '#' then let _ ← takeWhile (· != '\n')
  let next ← ahead 0
  guard (next.isNone || next = some '\n')
  skip 1
  let size := (← get).rest.length + 1
  let found := deepestIndent 0 0 (← get).rest
  let indent := match depth with
    | some depth => parent.toNat + depth
    | none => max found (max 1 (parent + 1).toNat)
  let breaks ← blockIndent indent size
  let (text, held, last) ← blockLines isLiteral indent size [] breaks false
  return String.ofList (match chomping with
    | .strip => text
    | .clip => text ++ held
    | .keep => text ++ held ++ last)

end Reading

end TokenBucket
