import TokenBucket.Binary64.Basic

/-!
# Replies

What a store answers to a request, as a tree of the kinds of value that stores are known to send. Only
some trees mean anything to a limiter (`TokenBucket.Wire.Outcome`); the others are named by their kind in
the complaint.

## Main definitions

* `Reply`, `Reply.Kind`, `Reply.kind`.
-/

namespace TokenBucket

/-- A value answered by a store. -/
inductive Reply where
  /-- The absent value. -/
  | nil
  /-- An integer. -/
  | integer (n : Int64)
  /-- A truth value. -/
  | boolean (b : Bool)
  /-- A double. -/
  | double (x : Binary64)
  /-- A text. -/
  | text (s : String)
  /-- A list of values. -/
  | array (items : List Reply)
  /-- Any other kind of value; the description says which. -/
  | other (description : String)

namespace Reply

/-- The kinds of reply. -/
inductive Kind where
  | nil
  | integer
  | boolean
  | double
  | string
  | array
  | unsupported
deriving DecidableEq

/-- How a message names a kind. -/
def Kind.name : Kind → String
  | .nil => "nil"
  | .integer => "integer"
  | .boolean => "boolean"
  | .double => "double"
  | .string => "string"
  | .array => "array"
  | .unsupported => "unsupported"

/-- The kind of a reply. -/
def kind : Reply → Kind
  | .nil => .nil
  | .integer _ => .integer
  | .boolean _ => .boolean
  | .double _ => .double
  | .text _ => .string
  | .array _ => .array
  | .other _ => .unsupported

end Reply

end TokenBucket
