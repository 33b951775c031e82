import TokenBucket.Wire.RecordFields
import TokenBucket.Wire.Request

/-!
# Stores

A store keeps the records of many buckets and runs the bucket step on one of them as a single, undivided
operation. Besides that it can hand out a record, forget one, and be closed. Each operation takes the
reading of the store's own clock, which decides what has expired, and gives its answer together with the
store after it.

`Journaled` adds to any store a list of what has reached it. `Canned` is a store without buckets that
gives prepared replies whatever it is asked.

## Main definitions

* `BucketStore`: the operations of a store.
* `StoreCall`, `Journaled`.
* `Canned`.
-/

namespace TokenBucket

/-- The operations of a store whose states are the values of `σ`. -/
class BucketStore (σ : Type) where
  /-- Runs the bucket step for a request. -/
  execute : Instant → Request → σ → Except Failure Reply × σ
  /-- The record held for a store key. -/
  fetch : Instant → String → σ → Except Failure (Option Record) × σ
  /-- Forgets the record of a store key, and tells whether there was one. -/
  delete : Instant → String → σ → Except Failure Bool × σ
  /-- Closes the store. Records are kept, but nothing can be asked any more. -/
  close : σ → Except Failure Unit × σ

/-- What reaches a store. -/
inductive StoreCall where
  /-- A request for the bucket step. -/
  | execute (request : Request)
  /-- A demand for the record of a store key. -/
  | fetch (storeKey : String)
  /-- A demand to forget the record of a store key. -/
  | delete (storeKey : String)
  /-- The order to close. -/
  | close
deriving DecidableEq

/-- A store and the list of what has reached it, the first call first. -/
structure Journaled (σ : Type) where
  /-- The store. -/
  store : σ
  /-- What has reached it. -/
  calls : List StoreCall

/-- Passes a call on to the store and notes it. -/
def Journaled.note {σ α : Type} (j : Journaled σ) (call : StoreCall)
    (operation : σ → Except Failure α × σ) : Except Failure α × Journaled σ :=
  let (answer, store) := operation j.store
  (answer, ⟨store, j.calls ++ [call]⟩)

instance {σ : Type} [BucketStore σ] : BucketStore (Journaled σ) where
  execute at' request j := j.note (.execute request) (BucketStore.execute at' request)
  fetch at' key j := j.note (.fetch key) (BucketStore.fetch at' key)
  delete at' key j := j.note (.delete key) (BucketStore.delete at' key)
  close j := j.note .close BucketStore.close

/-- A store that gives prepared replies in turn, the last one for ever, and knows no records. -/
structure Canned where
  /-- The replies still to come. -/
  replies : List (Except Failure Reply)

namespace Canned

/-- The next reply, and the replies after it. Without any replies the store has nothing to say. -/
def next : Canned → Except Failure Reply × Canned
  | ⟨[]⟩ => (.error (.storeUnavailable (.reported "no replies")), ⟨[]⟩)
  | ⟨[last]⟩ => (last, ⟨[last]⟩)
  | ⟨reply :: rest⟩ => (reply, ⟨rest⟩)

instance : BucketStore Canned where
  execute _ _ store := store.next
  fetch _ _ store := (.ok none, store)
  delete _ _ store := (.ok false, store)
  close store := (.ok (), store)

end Canned

end TokenBucket
