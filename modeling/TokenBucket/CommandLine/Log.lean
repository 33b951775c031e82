import TokenBucket.Settings.Basic

/-!
# The log

What the program notes while it runs: events with a level, a message and named values.

## Main definitions

* `LogEntry`, `LogEntry.level`, `LogEntry.message`, `LogEntry.values`.
* `LogEntry.plainLine`, `LogEntry.objectLine`: an entry as a line of text.
* `objectText`: a text as it stands in an object.
-/

namespace TokenBucket

/-- Something worth noting. -/
inductive LogEntry where
  /-- A file with settings is read. -/
  | loading (file : String)
  /-- The store is one in memory. -/
  | usingInProcess (settings : StoreSettings)
  /-- The limiter is ready. -/
  | ready (policy : Policy) (backend : Backend)
  /-- The record of a key has been forgotten. -/
  | bucketReset (key : String) (existed : Bool)
  /-- A burst of calls has ended. -/
  | burstFinished (key : String) (calls granted : Nat)
  /-- The command has failed. -/
  | commandFailed (failure : Failure)

/-- A value in the log. -/
inductive LogValue where
  /-- A text. -/
  | text (s : String)
  /-- An integer. -/
  | integer (n : Int)
  /-- A double. -/
  | double (x : Binary64)
  /-- A truth value. -/
  | boolean (b : Bool)

/-- A text with its first letter in upper case, as names of alternatives are noted. -/
def capitalised (text : String) : String :=
  match text.toList with
  | first :: rest => String.ofList (first.toUpper :: rest)
  | [] => ""

namespace LogEntry

/-- How an entry is ranked. -/
def level : LogEntry → String
  | .commandFailed _ => "ERROR"
  | _ => "INFO"

/-- What an entry says. -/
def message : LogEntry → String
  | .loading _ => "Loading configuration"
  | .usingInProcess _ => "Using in-process bucket store"
  | .ready .. => "Token bucket limiter ready"
  | .bucketReset .. => "Bucket reset"
  | .burstFinished .. => "Burst finished"
  | .commandFailed _ => "Command failed"

/-- The named values of an entry. -/
def values : LogEntry → List (String × LogValue)
  | .loading file => [("path", .text file)]
  | .usingInProcess settings =>
    [("encoding", .text (capitalised settings.encoding.name)),
      ("sweep_interval_secs", .integer settings.sweepSeconds.toNat)]
  | .ready policy backend =>
    [("rate", .double policy.rate), ("capacity", .integer policy.capacity.toInt),
      ("idle_expiration", .text policy.idle.text), ("backend", .text (capitalised backend.name))]
  | .bucketReset key existed => [("key", .text key), ("existed", .boolean existed)]
  | .burstFinished key calls granted =>
    [("key", .text key), ("calls", .integer calls), ("granted", .integer granted),
      ("denied", .integer (calls - granted : Nat))]
  | .commandFailed failure => [("error", .text failure.message)]

end LogEntry

/-- A text as it stands in an object: between double quotes, with escapes for quotes, backslashes and
control characters. -/
def objectText (text : String) : String :=
  let character (c : Char) : List Char :=
    if c = '"' then ['\\', '"']
    else if c = '\\' then ['\\', '\\']
    else if c = '\n' then ['\\', 'n']
    else if c = '\r' then ['\\', 'r']
    else if c = '\t' then ['\\', 't']
    else if c.toNat < 0x20 then
      let digits := hexDigits c.toNat
      ['\\', 'u'] ++ List.replicate (4 - digits.length) '0' ++ digits
    else [c]
  String.ofList ('"' :: text.toList.flatMap character ++ ['"'])

/-- A value as it stands in an object. -/
def LogValue.objectText : LogValue → String
  | .text s => TokenBucket.objectText s
  | .integer n => toString n
  | .double x => x.shortestText
  | .boolean b => if b then "true" else "false"

namespace LogEntry

/-- An entry as an object. -/
def objectLine (e : LogEntry) : String :=
  let named (entry : String × LogValue) : String :=
    TokenBucket.objectText entry.1 ++ ":" ++ entry.2.objectText
  let values := ("message", LogValue.text e.message) :: e.values
  "\x7b\"level\":" ++ TokenBucket.objectText e.level ++ ",\"fields\":\x7b" ++
    String.intercalate "," (values.map named) ++ "\x7d\x7d"

/-- An entry as a plain line. -/
def plainLine (e : LogEntry) : String :=
  let named (entry : String × LogValue) : String := entry.1 ++ "=" ++ entry.2.objectText
  String.intercalate " " (e.level :: e.message :: e.values.map named)

end LogEntry

end TokenBucket
