import TokenBucket.Store.Basic
import TokenBucket.Wire.Outcome

/-!
# Limiters

A limiter answers the question whether some tokens may be taken for a key. It keeps no balance of its
own: each call is checked, turned into one request to the store, and its decision read off the one reply.
Several limiters can share a store, and a bucket if their keys meet there.

A call is refused before the store hears of it if its number of tokens is negative, its key is empty, or
the limiter is closed, in this order. Closing a limiter closes its store; closing it again does nothing.

## Main definitions

* `Limiter`, `Decision`.
* `Limiter.allow`, `Limiter.remaining`, `Limiter.record`, `Limiter.reset`, `Limiter.close`.
* `Limiter.request`: the request for a call, or why it is refused.
-/

namespace TokenBucket

/-- The answer to a call that was made. A denial is an answer like any other. -/
structure Decision where
  /-- Whether the tokens may be taken. -/
  allowed : Bool
  /-- How many whole tokens are left. -/
  remaining : Int64
deriving DecidableEq

/-- A rate limiter over a store that it shares. -/
structure Limiter where
  /-- The parameters of its buckets. -/
  policy : Policy
  /-- Where its keys lie in the store. -/
  keys : KeySpace
  /-- Whether it has been closed. -/
  isClosed : Bool

namespace Limiter

/-- An open limiter. -/
def new (policy : Policy) (keys : KeySpace) : Limiter := ⟨policy, keys, false⟩

/-- The store key for a key, unless the key is empty or the limiter closed. -/
def storeKey (l : Limiter) (key : String) : Except Failure String :=
  if key = "" then .error (.invalidArgument .emptyKey)
  else if l.isClosed then .error (.storeUnavailable .limiterClosed)
  else .ok (l.keys.storeKey key)

/-- The request for `n` tokens of a key, unless the call is refused. -/
def request (l : Limiter) (now : Instant) (key : String) (n : Int64) : Except Failure Request :=
  if n < 0 then .error (.invalidArgument (.negativeCount n))
  else (l.storeKey key).map fun _ => l.keys.request l.policy key now n

/-- The decision on `n` tokens that a reply amounts to. A look is always allowed. -/
def decide (l : Limiter) (n : Int64) (reply : Reply) : Except Failure Decision :=
  (Outcome.ofReply l.policy.capacity reply).map fun outcome =>
    ⟨n == 0 || outcome.granted, outcome.remaining⟩

variable {σ : Type} [BucketStore σ]

/-- Whether `n` tokens may be taken for a key. The limiter's clock shows `now`, that of the store
`storeNow`. -/
def allow (l : Limiter) (now storeNow : Instant) (key : String) (n : Int64) (store : σ) :
    Except Failure Decision × σ :=
  match l.request now key n with
  | .error failure => (.error failure, store)
  | .ok request =>
    let (reply, store) := BucketStore.execute storeNow request store
    (reply.bind (l.decide n), store)

/-- How many whole tokens the bucket of a key holds. Nothing is taken. -/
def remaining (l : Limiter) (now storeNow : Instant) (key : String) (store : σ) :
    Except Failure Int64 × σ :=
  let (decision, store) := l.allow now storeNow key 0 store
  (decision.map (·.remaining), store)

/-- The record of a key as it was last written. -/
def record (l : Limiter) (storeNow : Instant) (key : String) (store : σ) :
    Except Failure (Option Record) × σ :=
  match l.storeKey key with
  | .error failure => (.error failure, store)
  | .ok storeKey => BucketStore.fetch storeNow storeKey store

/-- Forgets the record of a key, so that its bucket is full again, and tells whether there was one. -/
def reset (l : Limiter) (storeNow : Instant) (key : String) (store : σ) : Except Failure Bool × σ :=
  match l.storeKey key with
  | .error failure => (.error failure, store)
  | .ok storeKey => BucketStore.delete storeNow storeKey store

/-- Closes the limiter, and with it the store. -/
def close (l : Limiter) (store : σ) : Except Failure Unit × Limiter × σ :=
  if l.isClosed then (.ok (), l, store)
  else
    let (answer, store) := BucketStore.close store
    (answer, { l with isClosed := true }, store)

end Limiter

end TokenBucket
