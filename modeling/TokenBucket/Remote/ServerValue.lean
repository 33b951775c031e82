import TokenBucket.Wire.Reply

/-!
# Server values

What a remote server sends back for a command, before it is known what the command wanted. The values form
trees. An error is a value too, and may stand at any depth of another one; what counts then is the first
error that is met when the tree is read from left to right.

As the reply to the bucket script only the kinds of value that a limiter may understand are kept, and all
others are summed up in a word.

## Main definitions

* `ServerValue`, `ServerValue.parts`.
* `ServerValue.ErrorIn`, `ServerValue.FirstError`, `ServerValue.IsSound`: the errors in a value.
* `ServerValue.reply`.
-/

namespace TokenBucket

/-- A value sent by a server. -/
inductive ServerValue where
  /-- The absent value. -/
  | nil
  /-- An integer. -/
  | integer (n : Int64)
  /-- A truth value. -/
  | boolean (b : Bool)
  /-- A double. -/
  | double (x : Binary64)
  /-- A string of any bytes. -/
  | bulk (bytes : List UInt8)
  /-- A short line of text. -/
  | simple (text : String)
  /-- The acknowledgement of a command that gives nothing else. -/
  | okay
  /-- A list of values. -/
  | array (items : List ServerValue)
  /-- A set of values. -/
  | set (items : List ServerValue)
  /-- Pairs of values. -/
  | map (pairs : List (ServerValue × ServerValue))
  /-- A value, and pairs of values with something to say about it. -/
  | attributed (data : ServerValue) (attributes : List (ServerValue × ServerValue))
  /-- A message of some kind that answers no command. -/
  | push (kind : String) (items : List ServerValue)
  /-- A text with a format. -/
  | verbatim (text : String)
  /-- An integer of any size. -/
  | bigNumber (digits : String)
  /-- An error, by its code. -/
  | error (code : String)

namespace ServerValue

/-! ### Errors in values -/

/-- The values that a value is made of, in the order in which they are read. -/
def parts : ServerValue → List ServerValue
  | .array items => items
  | .set items => items
  | .map pairs => pairs.flatMap fun pair => [pair.1, pair.2]
  | .attributed data attributes => data :: attributes.flatMap fun pair => [pair.1, pair.2]
  | .push _ items => items
  | _ => []

/-- An error with the given code stands somewhere in a value. -/
inductive ErrorIn (code : String) : ServerValue → Prop
  | here : ErrorIn code (.error code)
  | within {part v : ServerValue} (hpart : part ∈ v.parts) (h : ErrorIn code part) : ErrorIn code v

/-- No error stands in a value. -/
def IsSound (v : ServerValue) : Prop := ∀ code, ¬ v.ErrorIn code

/-- The first error in a value has the given code. -/
inductive FirstError (code : String) : ServerValue → Prop
  | here : FirstError code (.error code)
  | within {part v : ServerValue} {before after : List ServerValue}
      (hparts : v.parts = before ++ part :: after) (hbefore : ∀ earlier ∈ before, earlier.IsSound)
      (h : FirstError code part) : FirstError code v

/-! ### Replies to the bucket script -/

/-- The text of a bulk string, if its bytes are UTF-8. -/
def bulkText? (bytes : List UInt8) : Option String := String.fromUTF8? ⟨bytes.toArray⟩

mutual

/-- A value as a reply to the bucket script. The acknowledgement is not a text. -/
def reply : ServerValue → Reply
  | .nil => .nil
  | .integer n => .integer n
  | .boolean b => .boolean b
  | .double x => .double x
  | .bulk bytes =>
    match bulkText? bytes with
    | some text => .text text
    | none => .other "non-utf8 bulk string"
  | .simple text => .text text
  | .array items => .array (replies items)
  | .okay => .other "acknowledgement"
  | .set _ => .other "set"
  | .map _ => .other "map"
  | .attributed _ _ => .other "attribute"
  | .push _ _ => .other "push message"
  | .verbatim _ => .other "verbatim text"
  | .bigNumber _ => .other "big number"
  | .error _ => .other "error"

/-- A list of values as replies. -/
def replies : List ServerValue → List Reply
  | [] => []
  | item :: rest => reply item :: replies rest

end

end ServerValue

end TokenBucket
