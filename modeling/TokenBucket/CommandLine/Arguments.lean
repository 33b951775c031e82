import TokenBucket.Decimal.Numeral

/-!
# Arguments of the command line

The program has three commands, each with options of its own, and three options that may stand before or
behind the command. An option has a long name behind two dashes and may have a letter behind one; its
value is the next argument, or follows the long name behind an equals sign, or the letter immediately.
An option may be given once on either side of the command; behind the command it has the last word.

A value that is the next argument does not begin with a dash, unless it is a dash alone.

## Main definitions

* `Command`, `Invocation`, `Parsed`.
* `Parsed.ofArguments`.
-/

namespace TokenBucket

/-- What the program is to do. -/
inductive Command where
  /-- Take tokens of a key once. -/
  | check (key : String) (tokens : Int64)
  /-- Take tokens of a key a number of times, with a pause between. -/
  | burst (key : String) (count : Nat) (tokens : Int64) (pauseMillis : UInt64)
  /-- Forget the record of a key. -/
  | reset (key : String)
deriving DecidableEq

/-- A command and the options that do not belong to it. -/
structure Invocation where
  /-- What to do. -/
  command : Command
  /-- The file with settings. -/
  file : Option String
  /-- Whether decisions are printed as objects. -/
  json : Bool
  /-- Whether the log is printed as objects. -/
  jsonLogs : Bool
deriving DecidableEq

/-- What the arguments come to. -/
inductive Parsed where
  /-- A command to carry out. -/
  | run (invocation : Invocation)
  /-- The version is asked for. -/
  | version
  /-- Help is asked for. -/
  | help
  /-- The arguments make no sense. -/
  | misuse
deriving DecidableEq

namespace Arguments

/-- An option that can be given. -/
structure Switch where
  /-- The name behind two dashes. -/
  long : String
  /-- The letter behind one dash. -/
  short : Option Char
  /-- Whether it has a value. -/
  hasValue : Bool
deriving DecidableEq

/-- Why the reading of arguments ends early. -/
inductive Stop where
  | version
  | help
  | misuse
deriving DecidableEq

/-- The options given, the latest first, each with its value; one without a value has an empty one. -/
abbrev Given := List (String × String)

/-- The options that may stand on either side of the command. -/
def common : List Switch :=
  [⟨"config", some 'c', true⟩, ⟨"json-logs", none, false⟩, ⟨"json", none, false⟩,
    ⟨"help", some 'h', false⟩]

/-- The options before the command. -/
def before : List Switch := ⟨"version", some 'V', false⟩ :: common

/-- The options of a command, if there is a command of that name. -/
def behind? (command : String) : Option (List Switch) :=
  let key : Switch := ⟨"key", some 'k', true⟩
  let tokens : Switch := ⟨"tokens", some 'n', true⟩
  if command = "check" then some (key :: tokens :: common)
  else if command = "burst" then
    some (key :: ⟨"count", none, true⟩ :: tokens :: ⟨"interval-ms", none, true⟩ :: common)
  else if command = "reset" then some (key :: common)
  else none

/-- Notes an option. None may be given twice. -/
def note (given : Given) (option : Switch) (value : String) : Except Stop Given :=
  if option.long = "version" then .error .version
  else if option.long = "help" then .error .help
  else if (given.lookup option.long).isSome then .error .misuse
  else .ok ((option.long, value) :: given)

/-- Takes the next argument as a value. -/
def nextValue : List String → Except Stop (String × List String)
  | [] => .error .misuse
  | value :: rest => if value.startsWith "-" && value ≠ "-" then .error .misuse else .ok (value, rest)

/-- Reads the letters behind one dash. Only the last of them can have a value. -/
def letters (options : List Switch) :
    List Char → Given → List String → Except Stop (Given × List String)
  | [], given, rest => .ok (given, rest)
  | letter :: more, given, rest =>
    match options.find? (·.short = some letter) with
    | none => .error .misuse
    | some option =>
      if option.hasValue then do
        let attached := match more with
          | '=' :: value => value
          | value => value
        let (value, rest) ←
          if more.isEmpty then nextValue rest else .ok (String.ofList attached, rest)
        return (← note given option value, rest)
      else do letters options more (← note given option "") rest

/-- Reads a long name and its value, if it has one. -/
def longName (options : List Switch) (text : List Char) (given : Given) (rest : List String) :
    Except Stop (Given × List String) := do
  let (name, value) := text.span (· ≠ '=')
  match options.find? (·.long = String.ofList name) with
  | none => .error .misuse
  | some option =>
    match option.hasValue, value with
    | true, _ :: value => return (← note given option (String.ofList value), rest)
    | true, [] =>
      let (value, rest) ← nextValue rest
      return (← note given option value, rest)
    | false, [] => return (← note given option "", rest)
    | false, _ => .error .misuse

/-- Reads options up to the first argument that is none, which is returned with those behind it. Two
dashes alone end the options. -/
def options (known : List Switch) : Nat → Given → List String → Except Stop (Given × List String)
  | 0, given, rest => .ok (given, rest)
  | _, given, [] => .ok (given, [])
  | fuel + 1, given, argument :: rest =>
    match argument.toList with
    | ['-', '-'] => .ok (given, argument :: rest)
    | '-' :: '-' :: name => do
      let (given, rest) ← longName known name given rest
      options known fuel given rest
    | '-' :: letter :: more => do
      let (given, rest) ← letters known (letter :: more) given rest
      options known fuel given rest
    | _ => .ok (given, argument :: rest)

/-- The value of an option, read as its kind demands, or the usual value if it was not given. -/
def value {α : Type} (given : Given) (name : String) (read : String → Option α) (usual : Option α) :
    Except Stop α :=
  match (match given.lookup name with
    | some text => read text
    | none => usual) with
  | some a => .ok a
  | none => .error .misuse

/-- Reads a number of tokens. -/
def tokenCount? (text : String) : Option Int64 := Numeral.int64? text.toList

/-- Reads a number of calls, which has 32 bits. -/
def callCount? (text : String) : Option Nat :=
  ((Numeral.integer? text.toList).filter fun n => 0 ≤ n ∧ n < (UInt32.size : Int)).map Int.toNat

/-- Reads a pause. -/
def pause? (text : String) : Option UInt64 := Numeral.uint64? text.toList

/-- The command of a name with the options given behind it. -/
def command (name : String) (given : Given) : Except Stop Command := do
  let key ← value given "key" some none
  if name = "check" then return .check key (← value given "tokens" tokenCount? (some 1))
  else if name = "burst" then
    return .burst key (← value given "count" callCount? (some 10))
      (← value given "tokens" tokenCount? (some 1)) (← value given "interval-ms" pause? (some 0))
  else return .reset key

/-- Reads all arguments. -/
def invocation (arguments : List String) : Except Stop Invocation := do
  let fuel := arguments.length + 1
  let (early, rest) ← options before fuel [] arguments
  match rest with
  | [] => .error .misuse
  | name :: rest =>
    if name = "help" then .error .help
    match behind? name with
    | none => .error .misuse
    | some known =>
      let (late, rest) ← options known fuel [] rest
      if rest ≠ [] ∧ rest ≠ ["--"] then .error .misuse
      let command ← command name late
      let given := late ++ early
      let file := given.lookup "config"
      if early.lookup "config" = some "" ∨ late.lookup "config" = some "" then .error .misuse
      return ⟨command, file, (given.lookup "json").isSome, (given.lookup "json-logs").isSome⟩

end Arguments

/-- What a list of arguments comes to. -/
def Parsed.ofArguments (arguments : List String) : Parsed :=
  match Arguments.invocation arguments with
  | .ok invocation => .run invocation
  | .error .version => .version
  | .error .help => .help
  | .error .misuse => .misuse

end TokenBucket
