/-!
# Settings documents

A settings document is a tree: texts at the leaves, lists and pairs of nodes inside. What a text means
is left to whoever reads the tree, so a leaf keeps how it was written: bare, or between quotes or as a
block. A leaf that was not written at all is a bare, empty one.

## Main definitions

* `Node`, `Node.absent`.
-/

namespace TokenBucket

/-- A node of a settings document. -/
inductive Node where
  /-- A text, whether it was written bare, and its tag. -/
  | scalar (text : String) (bare : Bool) (tag : Option String)
  /-- A list. -/
  | sequence (items : List Node)
  /-- Pairs of keys and values, in the order of the document. -/
  | mapping (entries : List (Node × Node))
deriving Inhabited

namespace Node

/-- The leaf that stands where nothing is written. -/
def absent : Node := .scalar "" true none

/-- A leaf with a tag; other nodes have no use for one. -/
def withTag (tag : Option String) : Node → Node
  | .scalar text bare none => .scalar text bare tag
  | node => node

end Node

end TokenBucket
