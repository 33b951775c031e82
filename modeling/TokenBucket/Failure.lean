import TokenBucket.Decimal.Shortest
import TokenBucket.Duration
import TokenBucket.Text.Quoted
import TokenBucket.Wire.Reply

/-!
# Failures

Why a call did not give its answer. A failure is a cause; its wording is a function of the cause
(`Failure.message`). Causes come in five kinds: an argument refused before any store was asked, a store
that could not be consulted, a store whose answer makes no sense, settings that cannot be used, and a
file that cannot be read. A denied request is not a failure.

## Main definitions

* `Failure` and the causes it is made of.
* `Failure.Kind`, `Failure.kind`.
* `Failure.message`.
-/

namespace TokenBucket

/-- An argument that is refused. -/
inductive ArgumentFault where
  /-- The refill rate is not finite or not positive. -/
  | rateNotPositive (rate : Binary64)
  /-- The bucket holds less than one token. -/
  | capacityTooSmall (capacity : Int64)
  /-- The idle expiration has no whole millisecond. -/
  | idleTooShort
  /-- The idle expiration exceeds the longest one. -/
  | idleTooLong (longest idle : Duration)
  /-- A negative number of tokens is asked for. -/
  | negativeCount (n : Int64)
  /-- The key is empty. -/
  | emptyKey
deriving DecidableEq

/-- The commands of a remote store, as a time-out names them. -/
inductive RemoteOperation where
  /-- Running the bucket script. -/
  | script
  /-- Reading all fields of a record. -/
  | readFields
  /-- Deleting a record. -/
  | delete
deriving DecidableEq

/-- What a remote store holds against a command. -/
inductive RemoteFault where
  /-- The value answered is not of the type the command gives. -/
  | unexpectedType
  /-- The command was carried out and ended in an error. -/
  | rejected
  /-- The server does not know the script. -/
  | missingScript
  /-- Anything else, from a lost connection to a server that is loading. -/
  | other
deriving DecidableEq

/-- Why a store could not be consulted. -/
inductive Outage where
  /-- The limiter has been closed. -/
  | limiterClosed
  /-- The in-process store has been closed. -/
  | inProcessClosed
  /-- The remote store has been closed. -/
  | remoteClosed
  /-- No connection came about in time. -/
  | connectTimedOut (limit : Duration)
  /-- A command had no answer in time. -/
  | commandTimedOut (operation : RemoteOperation) (limit : Duration)
  /-- The remote store reported a fault. -/
  | remote (fault : RemoteFault)
  /-- The store gave its own account. -/
  | reported (account : String)
deriving DecidableEq

/-- What is wrong with an answer or a stored record. -/
inductive ProtocolFault where
  /-- A pair was expected and another kind came. -/
  | notAPair (got : Reply.Kind)
  /-- A pair was expected and a list of another length came. -/
  | pairLength (length : Nat)
  /-- The count of granted tokens is negative. -/
  | negativeGrant (count : Int64)
  /-- The first item is of a kind that says nothing about a grant. -/
  | grantKind (got : Reply.Kind)
  /-- The text of the balance is no numeral. -/
  | balanceText (text : String)
  /-- The second item is of a kind that says nothing about a balance. -/
  | balanceKind (got : Reply.Kind)
  /-- The balance does not lie between zero and the capacity. -/
  | balanceRange (balance : Binary64) (capacity : Int64)
  /-- One of the two fields of a record is missing. -/
  | recordIncomplete
  /-- The balance field of a record is no numeral. -/
  | recordTokens (text : String)
  /-- The time field of a record is no numeral. -/
  | recordInstant (text : String)
  /-- The remote store reported a fault that means it disagrees about the script. -/
  | remote (fault : RemoteFault)
deriving DecidableEq

/-- Why settings cannot be used. -/
inductive SettingsFault where
  /-- The time limit of a command is zero. -/
  | zeroCommandTimeout
  /-- The pause between two sweeps is zero. -/
  | zeroSweepInterval
  /-- The address of the remote store is malformed. -/
  | malformedUrl
  /-- The document is not a settings document. -/
  | unreadableDocument
  /-- A source of layered settings is missing, unreadable or has a value of the wrong kind. -/
  | unusableSource
deriving DecidableEq

/-- Why a call did not give its answer. -/
inductive Failure where
  /-- An argument was refused; no store was asked. -/
  | invalidArgument (fault : ArgumentFault)
  /-- The store could not be consulted. -/
  | storeUnavailable (outage : Outage)
  /-- The store's answer makes no sense. -/
  | protocol (fault : ProtocolFault)
  /-- The settings cannot be used. -/
  | settings (fault : SettingsFault)
  /-- A file cannot be read. -/
  | unreadableFile
deriving DecidableEq

/-- The five kinds of failure. -/
inductive Failure.Kind where
  | invalidArgument
  | storeUnavailable
  | protocol
  | settings
  | unreadableFile
deriving DecidableEq

/-- The kind of a failure. -/
def Failure.kind : Failure → Failure.Kind
  | .invalidArgument _ => .invalidArgument
  | .storeUnavailable _ => .storeUnavailable
  | .protocol _ => .protocol
  | .settings _ => .settings
  | .unreadableFile => .unreadableFile

/-- The failure of a call whose command met a remote fault: a value of the wrong type or a rejected
command means that the store and the limiter disagree about the script, and anything else that the store
could not be consulted. -/
def RemoteFault.failure : RemoteFault → Failure
  | .unexpectedType => .protocol (.remote .unexpectedType)
  | .rejected => .protocol (.remote .rejected)
  | fault => .storeUnavailable (.remote fault)

/-- What is said of a refused argument. -/
def ArgumentFault.message : ArgumentFault → String
  | .rateNotPositive rate => "rate must be a positive number, got " ++ rate.shortestText
  | .capacityTooSmall capacity => "capacity must be >= 1, got " ++ toString capacity.toInt
  | .idleTooShort => "idle expiration must be at least 1ms"
  | .idleTooLong longest idle =>
    "idle expiration must be at most " ++ toString longest.seconds ++ "s, got " ++
      toString idle.seconds ++ "s"
  | .negativeCount n => "token count must be >= 0, got " ++ toString n.toInt
  | .emptyKey => "rate limit key must not be empty"

/-- How a time-out names a command. -/
def RemoteOperation.name : RemoteOperation → String
  | .script => "script"
  | .readFields => "HGETALL"
  | .delete => "DEL"

/-- What is said of a remote fault. -/
def RemoteFault.message : RemoteFault → String
  | .unexpectedType => "the server answered with a value of another type"
  | .rejected => "the server rejected the command"
  | .missingScript => "the server does not know the script"
  | .other => "the server could not serve the command"

/-- What is said of an outage. -/
def Outage.message : Outage → String
  | .limiterClosed => "limiter is closed"
  | .inProcessClosed => "memory store is closed"
  | .remoteClosed => "redis store is closed"
  | .connectTimedOut limit => "connecting to redis timed out after " ++ limit.text
  | .commandTimedOut operation limit =>
    "redis " ++ operation.name ++ " timed out after " ++ limit.text
  | .remote fault => fault.message
  | .reported account => account

/-- What is said of a senseless answer. -/
def ProtocolFault.message : ProtocolFault → String
  | .notAPair got => "expected a 2-element array reply, got " ++ got.name
  | .pairLength length =>
    "expected a 2-element array reply, got " ++ toString length ++ " elements"
  | .negativeGrant count => "negative granted value " ++ toString count.toInt
  | .grantKind got => "unexpected " ++ got.name ++ " for granted"
  | .balanceText text => "remaining tokens " ++ quoted text.toList ++ " is not a number"
  | .balanceKind got => "unexpected " ++ got.name ++ " for remaining tokens"
  | .balanceRange balance capacity =>
    "remaining tokens " ++ balance.shortestText ++ " outside [0, " ++ toString capacity.toInt ++ "]"
  | .recordIncomplete => "bucket record is missing a field"
  | .recordTokens text => "invalid tokens field " ++ quoted text.toList
  | .recordInstant text => "invalid timestamp field " ++ quoted text.toList
  | .remote fault => fault.message

/-- What is said of unusable settings. -/
def SettingsFault.message : SettingsFault → String
  | .zeroCommandTimeout => "store.command_timeout_ms must be > 0"
  | .zeroSweepInterval => "store.sweep_interval_secs must be > 0"
  | .malformedUrl => "invalid redis url"
  | .unreadableDocument => "Failed to parse configuration"
  | .unusableSource => "a source of settings is missing or has a value of the wrong kind"

/-- The text of a failure: its kind and what is said of its cause. -/
def Failure.message : Failure → String
  | .invalidArgument fault => "Invalid argument: " ++ fault.message
  | .storeUnavailable outage => "Store unavailable: " ++ outage.message
  | .protocol fault => "Protocol error: " ++ fault.message
  | .settings fault => "Configuration error: " ++ fault.message
  | .unreadableFile => "I/O error: the file cannot be read"

end TokenBucket
