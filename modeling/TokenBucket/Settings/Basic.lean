import TokenBucket.Remote.Store
import TokenBucket.Store.InProcess

/-!
# Settings

What can be configured: which store holds the records and how it is reached, and the parameters of the
buckets. Every setting has a usual value. Settings are only data; whether they describe a policy and a
store is found out when these are made from them.

## Main definitions

* `Settings`, `StoreSettings`, `LimiterSettings`.
* `LimiterSettings.policy`.
* `StoreSettings.check`: what must hold of the settings of a store.
-/

namespace TokenBucket

/-- The kinds of store. -/
inductive Backend where
  /-- In memory. -/
  | inProcess
  /-- On a server. -/
  | remote
deriving DecidableEq

namespace Backend

/-- The name of a kind of store. -/
def name : Backend → String
  | .inProcess => "memory"
  | .remote => "redis"

/-- All kinds of store. -/
def all : List Backend := [.inProcess, .remote]

end Backend

/-- The settings of the store. -/
structure StoreSettings where
  /-- Which kind of store. -/
  backend : Backend := .inProcess
  /-- The address of a store on a server. -/
  url : String := Address.standard
  /-- What every key in the store begins with. -/
  keyBeginning : String := KeySpace.standard.beginning
  /-- For how many milliseconds a server may keep silent. -/
  commandTimeoutMillis : UInt64 := 500
  /-- The form of the replies of a store in memory. -/
  encoding : Encoding := .flag
  /-- The seconds between two sweeps of a store in memory. -/
  sweepSeconds : UInt64 := 60
deriving DecidableEq

/-- The settings of the buckets. -/
structure LimiterSettings where
  /-- Tokens that flow in each second. -/
  rate : Binary64 := Policy.standardRate
  /-- The most tokens a bucket holds. -/
  capacity : Int64 := Policy.standardCapacity
  /-- After how many seconds without use a record may be forgotten. -/
  idleSeconds : UInt64 := 3600
deriving DecidableEq

/-- All settings. -/
structure Settings where
  /-- The settings of the store. -/
  store : StoreSettings := {}
  /-- The settings of the buckets. -/
  limiter : LimiterSettings := {}
deriving DecidableEq

/-- The names of the settings of the store, in their order. -/
def StoreSettings.names : List String :=
  ["backend", "url", "key_prefix", "command_timeout_ms", "reply_encoding", "sweep_interval_secs"]

/-- The names of the settings of the buckets, in their order. -/
def LimiterSettings.names : List String := ["rate", "capacity", "idle_expiration_secs"]

/-- The names of the sections, in their order. -/
def Settings.names : List String := ["store", "limiter"]

/-- The policy that the settings describe. -/
def LimiterSettings.policy (s : LimiterSettings) : Except Failure Policy :=
  Policy.ofParameters s.rate s.capacity (.ofSeconds s.idleSeconds.toNat)

namespace StoreSettings

/-- The time limit of a command. -/
def commandTimeout (s : StoreSettings) : Duration := .ofMillis s.commandTimeoutMillis.toNat

/-- The pause between two sweeps. -/
def sweepInterval (s : StoreSettings) : Duration := .ofSeconds s.sweepSeconds.toNat

/-- Neither the time limit nor, where it matters, the pause between two sweeps may be zero. -/
def check (s : StoreSettings) : Except Failure Unit :=
  if s.commandTimeoutMillis = 0 then .error (.settings .zeroCommandTimeout)
  else if s.backend = .inProcess ∧ s.sweepSeconds = 0 then .error (.settings .zeroSweepInterval)
  else .ok ()

/-- The store in memory that the settings describe, opened at an instant. -/
def openInProcess (s : StoreSettings) (now : Instant) : InProcess :=
  .open now s.encoding s.sweepInterval

/-- A connection to the remote store that the settings describe. -/
def connect {client : Client} (s : StoreSettings) (opening : Remote.Opening) :
    Except Failure (Remote client) :=
  Remote.connect s.url s.commandTimeout opening

/-- Where the keys lie in the store. -/
def keys (s : StoreSettings) : KeySpace := ⟨s.keyBeginning⟩

end StoreSettings

end TokenBucket
