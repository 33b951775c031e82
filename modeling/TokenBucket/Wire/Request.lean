import TokenBucket.Bucket.Draw
import TokenBucket.Bucket.Policy

/-!
# Requests

A request is a draw on a named bucket together with the time its record is to be kept. Stores take it as
five positional arguments in text form, in a fixed order: rate, capacity, instant, tokens asked for and
time to keep.

Keys are put under a common beginning, so that several users of one store do not meet. A `KeySpace` is
such a beginning, and turns a draw on a key under a policy into the request for it.

## Main definitions

* `Request`, `Request.arguments`, `Request.text`.
* `KeySpace`, `KeySpace.storeKey`, `KeySpace.request`.
-/

namespace TokenBucket

/-- One run of the bucket step for a named bucket. -/
structure Request extends Draw where
  /-- The key in the store. -/
  key : String
  /-- For how many milliseconds a record written by the step is kept. -/
  ttl : UInt64
deriving DecidableEq

namespace Request

/-- The positional arguments. -/
def arguments (r : Request) : List String :=
  [r.rate.shortestText, toString r.capacity.toInt, toString r.now.toInt, toString r.requested.toInt,
    toString r.ttl.toNat]

/-- A request in one line. -/
def text (r : Request) : String :=
  r.key ++ " rate=" ++ r.rate.shortestText ++ " capacity=" ++ toString r.capacity.toInt ++ " now=" ++
    toString r.now.toInt ++ " n=" ++ toString r.requested.toInt

end Request

/-- The common beginning of the keys of one user of a store. -/
structure KeySpace where
  /-- What every store key begins with. -/
  beginning : String
deriving DecidableEq

namespace KeySpace

/-- The usual beginning of keys. -/
def standard : KeySpace := ⟨"ratelimit:token:bucket:"⟩

/-- The key in the store for a key of the user. -/
def storeKey (s : KeySpace) (key : String) : String := s.beginning ++ key

/-- The request for `n` tokens from the bucket of a key. -/
def request (s : KeySpace) (policy : Policy) (key : String) (now : Instant) (n : Int64) : Request where
  rate := policy.rate
  capacity := policy.capacity
  now := now
  requested := n
  key := s.storeKey key
  ttl := policy.idleMillis

end KeySpace

end TokenBucket
