import TokenBucket.Remote.Client

/-!
# The standard client

A library as the store expects it, for programs and examples: it looks for the first error in an answer,
reads fields from a map, or from a list of names and texts in turn, and numbers from integers.

## Main definitions

* `ServerValue.firstError?`, `RemoteFault.ofCode`.
* `ServerValue.fields?`, `ServerValue.count?`.
* `Client.standard`.
-/

namespace TokenBucket

/-- The fault that an error code stands for. -/
def RemoteFault.ofCode (code : String) : RemoteFault :=
  if code = "ERR" then .rejected
  else if code = "NOSCRIPT" then .missingScript
  else .other

namespace ServerValue

mutual

/-- The code of the first error in a value. -/
def firstError? : ServerValue → Option String
  | .error code => some code
  | .array items => firstErrorOf? items
  | .set items => firstErrorOf? items
  | .map pairs => firstErrorOfPairs? pairs
  | .attributed data attributes => (firstError? data).or (firstErrorOfPairs? attributes)
  | .push _ items => firstErrorOf? items
  | _ => none

/-- The code of the first error in a list of values. -/
def firstErrorOf? : List ServerValue → Option String
  | [] => none
  | item :: rest => (firstError? item).or (firstErrorOf? rest)

/-- The code of the first error in a list of pairs of values. -/
def firstErrorOfPairs? : List (ServerValue × ServerValue) → Option String
  | [] => none
  | (key, value) :: rest => (firstError? key).or ((firstError? value).or (firstErrorOfPairs? rest))

end

/-- A value without the attributes that it may have. -/
def plain : ServerValue → ServerValue
  | .attributed data _ => data
  | v => v

/-- A value as a text. -/
def text? (v : ServerValue) : Option String :=
  match v.plain with
  | .bulk bytes => bulkText? bytes
  | .simple text => some text
  | .okay => some "OK"
  | .verbatim text => some text
  | .integer n => some (toString n.toInt)
  | .double x => some x.shortestText
  | _ => none

/-- A list of values in pairs, if their number is even. -/
def pairs? : List ServerValue → Option (List (ServerValue × ServerValue))
  | [] => some []
  | [_] => none
  | key :: value :: rest => (pairs? rest).map ((key, value) :: ·)

/-- A value as named texts: the absent value has none, a list gives names and texts in turn, and later
ones win over earlier ones of the same name. -/
def fields? (v : ServerValue) : Option Fields := do
  let pairs ← match v.plain with
    | .nil => some []
    | .array items => pairs? items
    | .map pairs => some pairs
    | _ => none
  let entries ← pairs.mapM fun (key, value) => return (← key.text?, ← value.text?)
  return KeyMap.ofList entries

/-- A value as a number of records. -/
def count? (v : ServerValue) : Option Int64 :=
  match v.plain with
  | .integer n => some n
  | _ => none

end ServerValue

namespace Client

/-- The value answered to a command, or the fault that the first error in it stands for. -/
def checked (v : ServerValue) : Except RemoteFault ServerValue :=
  match v.firstError? with
  | none => .ok v
  | some code => .error (.ofCode code)

/-- One command, and whether it succeeds. -/
def question (words : List String) : Talk (Except RemoteFault ServerValue) :=
  .send words fun answer => .done (checked answer)

/-- One command, and its answer as what the command gives. -/
def demand {α : Type} (words : List String) (read : ServerValue → Option α) :
    Talk (Except RemoteFault α) :=
  (question words).bind fun result =>
    .done (result.bind fun v => (read v).elim (.error .unexpectedType) .ok)

/-- A library as the store expects it. -/
def standard : Client where
  kindOf := .ofCode
  check := checked
  invoke source keys arguments :=
    (question (runWords source keys arguments)).bind fun
      | .error .missingScript => (question (loadWords source)).bind fun
        | .error fault => .done (.error fault)
        | .ok _ => question (runWords source keys arguments)
      | result => .done result
  readFields key := demand ["HGETALL", key] ServerValue.fields?
  delete key := demand ["DEL", key] ServerValue.count?

end Client

end TokenBucket
