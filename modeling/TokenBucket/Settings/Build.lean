import TokenBucket.Limiter
import TokenBucket.Remote.StandardClient
import TokenBucket.Settings.Basic

/-!
# From settings to a limiter

Settings are made into a limiter and the store it works on: first the policy, whose parameters are
checked before anything is opened, then the store.

## Main definitions

* `AnyStore`: a store of either kind.
* `StoreSettings.openStore`, `Settings.build`.
-/

namespace TokenBucket

/-- A store of either kind. -/
inductive AnyStore where
  /-- In memory. -/
  | inProcess (store : InProcess)
  /-- On a server. -/
  | remote (store : Remote .standard)

namespace AnyStore

instance : BucketStore AnyStore where
  execute now request
    | .inProcess s => Prod.map id .inProcess (BucketStore.execute now request s)
    | .remote s => Prod.map id .remote (BucketStore.execute now request s)
  fetch now key
    | .inProcess s => Prod.map id .inProcess (BucketStore.fetch now key s)
    | .remote s => Prod.map id .remote (BucketStore.fetch now key s)
  delete now key
    | .inProcess s => Prod.map id .inProcess (BucketStore.delete now key s)
    | .remote s => Prod.map id .remote (BucketStore.delete now key s)
  close
    | .inProcess s => Prod.map id .inProcess (BucketStore.close s)
    | .remote s => Prod.map id .remote (BucketStore.close s)

end AnyStore

/-- The store that settings describe, opened at an instant. `opening` tells whether a server takes part
in the opening of a connection. -/
def StoreSettings.openStore (s : StoreSettings) (now : Instant) (opening : Remote.Opening) :
    Except Failure AnyStore := do
  s.check
  match s.backend with
  | .inProcess => return .inProcess (s.openInProcess now)
  | .remote => return .remote (← s.connect opening)

/-- The limiter that settings describe, and its store. -/
def Settings.build (s : Settings) (now : Instant) (opening : Remote.Opening) :
    Except Failure (Limiter × AnyStore) := do
  let policy ← s.limiter.policy
  let store ← s.store.openStore now opening
  return (.new policy s.store.keys, store)

end TokenBucket
