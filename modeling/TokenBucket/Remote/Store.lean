import TokenBucket.Remote.Address
import TokenBucket.Remote.Client
import TokenBucket.Store.Basic

/-!
# The remote store

Records lie on a server shared by many processes. The store lets a library talk to the server, for each
operation no longer than its time limit, and the bucket step is a script that the library runs there. The
store itself never repeats an operation.

The server appears here as the list of its answers still to come, one for each command; where it keeps
silent there is none, and it is silent for good once the list is used up.

## Main definitions

* `ServerAnswer`, `Remote`, `Remote.connect`.
* `Remote.converse`, `Remote.bounded`: a conversation with the server, and one that may not take too long.
-/

namespace TokenBucket

/-- What a server answers to a command. There is nothing if it keeps silent. -/
abbrev ServerAnswer := Option ServerValue

/-- A connection to a remote store, through a library. -/
structure Remote (client : Client) where
  /-- How long an operation may wait for its answers. -/
  limit : Duration
  /-- The answers of the server still to come. -/
  answers : List ServerAnswer
  /-- The commands sent so far, in words. -/
  sent : List (List String)
  /-- Whether the connection has been given up. -/
  isClosed : Bool

namespace Remote

variable {client : Client} {α : Type}

/-- The usual time limit. -/
def standardLimit : Duration := .ofMillis 500

/-- Whether the server takes part in the exchange that opens a connection. -/
inductive Opening where
  /-- It does. -/
  | completed
  /-- It does not, in time. -/
  | unanswered
deriving DecidableEq

/-- Opens a connection to an address. -/
def connect (address : String) (limit : Duration) (opening : Opening) :
    Except Failure (Remote client) :=
  match Address.parse? address, opening with
  | none, _ => .error (.settings .malformedUrl)
  | some _, .unanswered => .error (.storeUnavailable (.connectTimedOut limit))
  | some _, .completed => .ok ⟨limit, [], [], false⟩

/-- Carries on a conversation with the server. It comes to nothing where the server keeps silent. -/
def converse : Talk α → Remote client → Option α × Remote client
  | .done result, s => (some result, s)
  | .send words next, s =>
    let heard := { s with answers := s.answers.tail, sent := s.sent ++ [words] }
    match s.answers.headD none with
    | none => (none, heard)
    | some value => converse (next value) heard

/-- Carries on the conversation of an operation, for as long as the time limit allows. -/
def bounded (operation : RemoteOperation) (talk : Talk (Except RemoteFault α)) (s : Remote client) :
    Except Failure α × Remote client :=
  match s.converse talk with
  | (none, s) => (.error (.storeUnavailable (.commandTimedOut operation s.limit)), s)
  | (some result, s) => (result.mapError RemoteFault.failure, s)

/-- Carries out an operation unless the connection has been given up. -/
def whenOpen (s : Remote client) (operation : Remote client → Except Failure α × Remote client) :
    Except Failure α × Remote client :=
  if s.isClosed then (.error (.storeUnavailable .remoteClosed), s) else operation s

/-- Runs the bucket script for a request. -/
def execute (request : Request) (s : Remote client) : Except Failure Reply × Remote client :=
  s.whenOpen fun s =>
    let (value, s) := s.bounded .script (client.invoke Script.source [request.key] request.arguments)
    (value.map ServerValue.reply, s)

/-- Reads the record of a store key. -/
def fetch (storeKey : String) (s : Remote client) : Except Failure (Option Record) × Remote client :=
  s.whenOpen fun s =>
    let (fields, s) := s.bounded .readFields (client.readFields storeKey)
    (fields.bind Fields.record?, s)

/-- Deletes the record of a store key. -/
def delete (storeKey : String) (s : Remote client) : Except Failure Bool × Remote client :=
  s.whenOpen fun s =>
    let (removed, s) := s.bounded .delete (client.delete storeKey)
    (removed.map (0 < ·), s)

/-- Gives the connection up. -/
def close (s : Remote client) : Remote client := { s with isClosed := true }

instance : BucketStore (Remote client) where
  execute _ request s := s.execute request
  fetch _ key s := s.fetch key
  delete _ key s := s.delete key
  close s := (.ok (), s.close)

end Remote

end TokenBucket
