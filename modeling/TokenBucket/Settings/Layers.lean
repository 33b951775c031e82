import TokenBucket.Settings.Strict
import TokenBucket.Settings.Value

/-!
# Layered settings

Settings can be laid over one another: a file first, then environment variables, each layer replacing
what it names and leaving the rest. Tables are merged, everything else is replaced as a whole. Names are
compared in lower case.

A name at the top of a file may be a path: names parted by points, and places in lists between square
brackets. A name that is no path is taken as it stands. The variables that count begin with the common
beginning and two underscores; further pairs of underscores part the names of a path.

## Main definitions

* `Value.put`, `Value.putAt`: laying a value over what is there.
* `Layers.path?`: the path that a name denotes.
* `Layers.ofVariables`, `Settings.load`.
-/

namespace TokenBucket

namespace Value

/-- The named values of a table. Anything else has none. -/
def entries : Value → List (String × Value)
  | .table entries => entries
  | _ => []

/-- The items of a list. Anything else has none. -/
def items : Value → List Value
  | .list items => items
  | _ => []

/-- A table with a value under a name, in place of any earlier one. What is no table is replaced by
one. -/
def withEntry (root : Value) (name : String) (value : Value) : Value :=
  .table ((name, value) :: root.entries.filter fun entry => entry.1 ≠ name)

/-- The value under a name of a table. -/
def entry (root : Value) (name : String) : Value := (root.entries.lookup name).getD .nil

mutual

/-- Lays a value over what a table has under a name. -/
def put (root : Value) (name : String) : Value → Value
  | .table incoming => root.withEntry (lowered name) (putAll (root.entry (lowered name)) incoming)
  | value => root.withEntry (lowered name) value

/-- Lays named values over those of a table. -/
def putAll (root : Value) : List (String × Value) → Value
  | [] => .table root.entries
  | (name, value) :: rest => putAll (put root name value) rest

end

/-- A list with a value at a place, filled up with nothing if it is too short. A negative place counts
from the end. What is no list is replaced by one. -/
def withItem (root : Value) (place : Int) (change : Value → Value) : Value :=
  let items := root.items
  let place := (if place < 0 then items.length + place else place).toNat
  let items := items ++ List.replicate (place + 1 - items.length) Value.nil
  .list (items.modify place change)

/-- A step of a path. -/
inductive Step where
  /-- Into a table, by name. -/
  | name (name : String)
  /-- Into a list, by place. -/
  | place (place : Int)

/-- Lays a value over what lies at the end of a path. -/
def putAt (value : Value) : List Step → Value → Value
  | [], _ => value
  | [.name name], root => put root name value
  | .name name :: rest, root =>
    root.withEntry (lowered name) (putAt value rest (root.entry (lowered name)))
  | .place place :: rest, root => root.withItem place (putAt value rest)

end Value

namespace Layers

/-- Whether a character may stand in a name of a path. -/
def isNameCharacter (c : Char) : Bool := c.isAlphanum || c == '_' || c == '-' || c == ' '

/-- The steps of a path behind its first name. -/
def steps? : Nat → List Char → Option (List Value.Step)
  | 0, _ => none
  | _, [] => some []
  | fuel + 1, '.' :: rest =>
    let (name, rest) := rest.span isNameCharacter
    if name.isEmpty then none else (steps? fuel rest).map (.name (String.ofList name) :: ·)
  | fuel + 1, '[' :: rest =>
    let (place, rest) := rest.span (· ≠ ']')
    match Numeral.integer? place, rest with
    | some place, _ :: rest => (steps? fuel rest).map (.place place :: ·)
    | _, _ => none
  | _, _ => none

/-- The path that a name denotes, if it denotes one. -/
def path? (name : String) : Option (List Value.Step) :=
  let (first, rest) := name.toList.span isNameCharacter
  if first.isEmpty then none
  else (steps? (rest.length + 1) rest).map (.name (String.ofList first) :: ·)

/-- Lays a value over what a name at the top denotes. -/
def lay (root : Value) (layer : String × Value) : Value :=
  let (name, value) := layer
  Value.putAt value ((path? name).getD [.name name]) root

/-- Lays a value under a path over a value. -/
def layAll (root : Value) (layers : List (String × Value)) : Value := layers.foldl lay root

/-- What the names of variables begin with. -/
def variableBeginning : String := "TOLLGATE"

/-- The path of a variable that counts. -/
def variablePath? (name : String) : Option String :=
  let name := lowered name
  let beginning := lowered variableBeginning ++ "__"
  if name.startsWith beginning then
    some (String.intercalate "." ((name.splitOn "__").drop 1))
  else none

/-- The layer of environment variables. -/
def ofVariables (environment : List (String × String)) : List (String × Value) :=
  environment.filterMap fun (name, text) =>
    (variablePath? name).map fun path => (path, Value.ofVariable text)

/-- The layer of a file, if it holds at most one document, and that a table. -/
def ofFile? (text : String) : Option (List (String × Value)) := do
  match ← Node.ofText? text with
  | [] => some []
  | [document] =>
    match ← Value.ofNode? document with
    | .table entries => some entries
    | _ => none
  | _ => none

end Layers

/-- The settings of a file that is read alone. A file that cannot be read has no text. -/
def Settings.ofFile : Option String → Except Failure Settings
  | none => .error .unreadableFile
  | some text => Settings.ofText text

/-- The settings of environment variables, laid over those of a file if one is named. A named file that
cannot be read has no text. -/
def Settings.load (file : Option (Option String)) (environment : List (String × String)) :
    Except Failure Settings :=
  let settings := do
    let layer ← match file with
      | none => some []
      | some text => text.bind Layers.ofFile?
    let root := Layers.layAll (.table []) layer
    (Layers.layAll root (Layers.ofVariables environment)).settings?
  match settings with
  | some settings => .ok settings
  | none => .error (.settings .unusableSource)

end TokenBucket
