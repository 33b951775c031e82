import TokenBucket.Store.Basic
import TokenBucket.Wire.Encoding

/-!
# The in-process store

Records are kept in memory, each with the instant at which it expires: the instant of its last write and
the time to keep it. From that instant on the record counts as absent, whether or not it is still held.
Expired records are dropped in a sweep, at most once per interval and on the occasion of a request; a
look at an expired record drops that record at once.

The store has its own clock, and its readings need not agree with the instants in the requests: the
former decide what has expired, the latter how much flows in.

## Main definitions

* `Held`, `Held.isLive`.
* `InProcess`, `InProcess.open`, `InProcess.purge`.
* `InProcess.sweep`: the sweep on the occasion of a request.
* `InProcess.step`: the bucket step on what is held for a key.
-/

namespace TokenBucket

/-- A record and the instant at which it expires. -/
structure Held where
  /-- The record. -/
  record : Record
  /-- The first instant at which it no longer counts. -/
  expiresAt : Instant
deriving DecidableEq

/-- Whether a held record still counts. -/
def Held.isLive (h : Held) (now : Instant) : Bool := now < h.expiresAt

/-- A store in memory. -/
structure InProcess where
  /-- The records held, expired ones included until they are dropped. -/
  buckets : KeyMap Held
  /-- The form of the replies. -/
  encoding : Encoding
  /-- The least time between two sweeps, in milliseconds. -/
  sweepInterval : Nat
  /-- The first instant at which a request sweeps. -/
  nextSweepAt : Instant
  /-- Whether the store has been closed. -/
  isClosed : Bool

namespace InProcess

/-- The usual pause between two sweeps: one minute. -/
def standardSweepInterval : Duration := .ofSeconds 60

/-- A pause between two sweeps in whole milliseconds: at least one, and at most what an instant can
hold. -/
def intervalMillis (interval : Duration) : Nat := max 1 (min interval.millis Instant.latestMillis)

/-- An empty store, opened at an instant. -/
def «open» (now : Instant) (encoding : Encoding) (interval : Duration) : InProcess where
  buckets := .empty
  encoding := encoding
  sweepInterval := intervalMillis interval
  nextSweepAt := now.after (intervalMillis interval)
  isClosed := false

/-- The store without its expired records. -/
def purge (now : Instant) (s : InProcess) : InProcess :=
  { s with buckets := s.buckets.filter (·.isLive now) }

/-- What a request at `now` sweeps: the expired records, if the time for it has come. One reading of the
clock stands for two, that of the request, by which it is time, and a later one, by which records have
expired; between them no time passes here. -/
def sweep (now : Instant) (s : InProcess) : InProcess :=
  if now < s.nextSweepAt then s
  else { s.purge now with nextSweepAt := now.after s.sweepInterval }

/-- The record held for a store key, if it still counts. -/
def live? (now : Instant) (key : String) (s : InProcess) : Option Record :=
  ((s.buckets.get? key).filter (·.isLive now)).map (·.record)

/-- The bucket step for a request: the settlement, and the store with the record it leaves. A look
leaves no record, and drops one that has expired. -/
def step (now : Instant) (request : Request) (s : InProcess) : Settlement × InProcess :=
  let held := s.live? now request.key
  let settlement := request.settle held
  let buckets := match settlement.record? request.now with
    | some record =>
      s.buckets.insert request.key ⟨record, now.after (min request.ttl.toNat Instant.latestMillis)⟩
    | none => if held.isSome then s.buckets else s.buckets.erase request.key
  (settlement, { s with buckets := buckets })

/-- Runs an operation on a store that is open. -/
def whenOpen {α : Type} (s : InProcess) (operation : InProcess → α × InProcess) :
    Except Failure α × InProcess :=
  if s.isClosed then (.error (.storeUnavailable .inProcessClosed), s)
  else
    let (answer, s) := operation s
    (.ok answer, s)

/-- A request sweeps first, if it is time, and then runs the bucket step. -/
def execute (now : Instant) (request : Request) (s : InProcess) : Except Failure Reply × InProcess :=
  s.whenOpen fun s =>
    let (settlement, s) := (s.sweep now).step now request
    (s.encoding.reply request.requested settlement, s)

/-- The record of a store key, unless it has expired. -/
def fetch (now : Instant) (key : String) (s : InProcess) :
    Except Failure (Option Record) × InProcess :=
  s.whenOpen fun s => (s.live? now key, s)

/-- Forgets the record of a store key. One that has expired does not count as having been there. -/
def delete (now : Instant) (key : String) (s : InProcess) : Except Failure Bool × InProcess :=
  s.whenOpen fun s => ((s.live? now key).isSome, { s with buckets := s.buckets.erase key })

/-- Closes the store. -/
def close (s : InProcess) : InProcess := { s with isClosed := true }

instance : BucketStore InProcess where
  execute := execute
  fetch := fetch
  delete := delete
  close s := (.ok (), s.close)

end InProcess

end TokenBucket
