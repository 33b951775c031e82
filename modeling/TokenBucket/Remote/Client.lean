import TokenBucket.Remote.ServerValue
import TokenBucket.Script.Digest
import TokenBucket.Wire.RecordFields

/-!
# Client libraries

The remote store does not talk to its server itself but leaves that to a library, and waits for what comes
of it. A library is known here only by the functions that the store uses (`Client`). Each of them gives a
conversation (`Talk`): the words of a command, and for any answer how it goes on.

What the store relies on is written down in `Client.IsDocumented`. An error at any depth of an answer is a
fault, and its code says which one; a script is run by its digest, and loaded and run once more if the
server does not know it, and only then; fields are read and keys deleted by one command each. How the
library makes fields and numbers of an answer is left open.

## Main definitions

* `Talk`, `Talk.bind`.
* `Client`, `Client.ask`, `Client.runWords`.
* `Client.IsDocumented`: what a library promises.
-/

namespace TokenBucket

/-- A conversation with a server, which says one command at a time and goes on by the answer. -/
inductive Talk (α : Type) where
  /-- Nothing more is said. -/
  | done (result : α)
  /-- A command in words, and how the conversation goes on. -/
  | send (words : List String) (next : ServerValue → Talk α)

/-- A conversation that goes on with another one. -/
def Talk.bind {α β : Type} : Talk α → (α → Talk β) → Talk β
  | .done result, rest => rest result
  | .send words next, rest => .send words fun answer => (next answer).bind rest

/-- A library through which a store talks to its server. -/
structure Client where
  /-- The fault that an error code stands for. -/
  kindOf : String → RemoteFault
  /-- The value answered to a command, if it counts as a success. -/
  check : ServerValue → Except RemoteFault ServerValue
  /-- Runs a script, given by its source, with keys and arguments. -/
  invoke : (source : String) → (keys arguments : List String) → Talk (Except RemoteFault ServerValue)
  /-- Reads the fields of a key. -/
  readFields : (key : String) → Talk (Except RemoteFault Fields)
  /-- Deletes a key, and tells how many there were. -/
  delete : (key : String) → Talk (Except RemoteFault Int64)

namespace Client

/-- The words that run a loaded script: its digest, the number of the keys, the keys and the arguments. -/
def runWords (source : String) (keys arguments : List String) : List String :=
  "EVALSHA" :: Digest.sha1 source.toUTF8.toList :: toString keys.length :: keys ++ arguments

/-- The words that make a script known. -/
def loadWords (source : String) : List String := ["SCRIPT", "LOAD", source]

/-- One command, and whether it succeeds. -/
def ask (c : Client) (words : List String) : Talk (Except RemoteFault ServerValue) :=
  .send words fun answer => .done (c.check answer)

/-- What a library promises. -/
structure IsDocumented (c : Client) : Prop where
  /-- A value without an error in it is a success and stays what it is. -/
  check_of_isSound {v : ServerValue} : v.IsSound → c.check v = .ok v
  /-- A value with errors in it is a fault, by the code of the first one. -/
  check_of_firstError {v : ServerValue} {code : String} :
    v.FirstError code → c.check v = .error (c.kindOf code)
  /-- A command that ends in a general error has been rejected. -/
  kindOf_err : c.kindOf "ERR" = .rejected
  /-- One code says that a script is not known. -/
  kindOf_noScript : c.kindOf "NOSCRIPT" = .missingScript
  /-- No other code says one or the other, or that a value is not of the type that was asked for. -/
  kindOf_of_ne {code : String} : code ≠ "ERR" → code ≠ "NOSCRIPT" → c.kindOf code = .other
  /-- A script is run by its digest; if it is not known it is loaded, and then run once more. -/
  invoke_eq (source : String) (keys arguments : List String) :
    c.invoke source keys arguments = (c.ask (runWords source keys arguments)).bind fun
      | .error .missingScript => (c.ask (loadWords source)).bind fun
        | .error fault => .done (.error fault)
        | .ok _ => c.ask (runWords source keys arguments)
      | result => .done result
  /-- The fields of a key are read by one command. -/
  readFields_eq (key : String) :
    ∃ read : ServerValue → Except RemoteFault Fields,
      c.readFields key = .send ["HGETALL", key] fun answer => .done (read answer)
  /-- A key is deleted by one command. -/
  delete_eq (key : String) :
    ∃ read : ServerValue → Except RemoteFault Int64,
      c.delete key = .send ["DEL", key] fun answer => .done (read answer)

end Client

end TokenBucket
