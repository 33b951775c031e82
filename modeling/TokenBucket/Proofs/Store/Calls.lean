import TokenBucket.Store.Basic

/-!
# Calls of a store

What a store says to a call and what becomes of it, for all of its operations alike. Two stores cannot be
told apart as long as a relation between their states makes them say the same to every call and is kept by
every call. Such a relation may depend on the instant from which the stores are looked at, and has to hold
from any later instant too; so it speaks of calls on a clock that never runs backwards.

## Main definitions

* `StoreAnswer`, `StoreCall.answer`, `StoreCall.perform`.
* `StoreCall.key?`: the store key that a call is about.
* `BucketStore.Simulation`.
-/

namespace TokenBucket

/-- What a store says to a call. -/
inductive StoreAnswer where
  /-- The answer to `StoreCall.execute`. -/
  | reply (answer : Except Failure Reply)
  /-- The answer to `StoreCall.fetch`. -/
  | record (answer : Except Failure (Option Record))
  /-- The answer to `StoreCall.delete`. -/
  | existed (answer : Except Failure Bool)
  /-- The answer to `StoreCall.close`. -/
  | closed (answer : Except Failure Unit)

namespace StoreCall

variable {σ : Type} [BucketStore σ]

/-- The answer of a store to a call. -/
def answer (storeNow : Instant) (store : σ) : StoreCall → StoreAnswer
  | .execute request => .reply (BucketStore.execute storeNow request store).1
  | .fetch key => .record (BucketStore.fetch storeNow key store).1
  | .delete key => .existed (BucketStore.delete storeNow key store).1
  | .close => .closed (BucketStore.close store).1

/-- The store after an operation. -/
def perform (storeNow : Instant) (store : σ) : StoreCall → σ
  | .execute request => (BucketStore.execute storeNow request store).2
  | .fetch key => (BucketStore.fetch storeNow key store).2
  | .delete key => (BucketStore.delete storeNow key store).2
  | .close => (BucketStore.close store).2

/-- The store key that a call is about, if it is about one. -/
def key? : StoreCall → Option String
  | .execute request => some request.key
  | .fetch key => some key
  | .delete key => some key
  | .close => none

end StoreCall

/-- Under the relation `R` two stores say the same to every call, and stay related. -/
structure BucketStore.Simulation {σ τ : Type} [BucketStore σ] [BucketStore τ]
    (R : Instant → σ → τ → Prop) : Prop where
  mono : ∀ {now later : Instant} {s : σ} {t : τ}, R now s t → now ≤ later → R later s t
  answer_eq : ∀ {now : Instant} {s : σ} {t : τ}, R now s t →
    ∀ call : StoreCall, call.answer now s = call.answer now t
  perform : ∀ {now : Instant} {s : σ} {t : τ}, R now s t →
    ∀ call : StoreCall, R now (call.perform now s) (call.perform now t)

end TokenBucket
