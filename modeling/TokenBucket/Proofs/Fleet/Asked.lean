import TokenBucket.Proofs.Fleet.Basic

/-!
# What limiters ask of their store

A limiter asks its store at most once for each call, and what it asks is settled before the store has said
anything (`Limiter.asks?`). The store changes by what is asked of it and in no other way, and the answer
hangs on nothing but the answer of the store. So over any two stores that answer one question alike, a call
that puts this question is answered alike (`Limiter.perform_fst_congr`); the stores need not be of the same
kind.

## Main definitions

* `Call.key?`, `Visit.storeKey?`: what a call is about.
* `Limiter.asks?`: what a call asks of the store.

## Main results

* `Limiter.key?_of_asks?`: a call asks about its own key.
* `Limiter.perform_store`, `Limiter.perform_fst_congr`.
* `Fleet.store_visit_eq`, `Fleet.visit_fst_congr`, `Fleet.rel_store_visit`.
-/

namespace TokenBucket

/-- The key that a call is about, if it is about one. -/
def Call.key? : Call → Option String
  | .allow key _ => some key
  | .remaining key => some key
  | .record key => some key
  | .reset key => some key
  | .close => none

/-- The store key that a visit is about, if it is about one. -/
def Visit.storeKey? {ι : Type} (limiters : ι → Limiter) (v : Visit ι) : Option String :=
  v.call.key?.map (limiters v.limiter).keys.storeKey

theorem toOption_eq_some {ε α : Type} {answer : Except ε α} {a : α} :
    answer.toOption = some a ↔ answer = .ok a := by
  cases answer <;> simp [Except.toOption]

namespace Limiter

variable {l : Limiter} {now storeNow : Instant} {call : Call} {σ τ : Type} [BucketStore σ] [BucketStore τ]
  {s : σ} {t : τ}

/-- What a call asks of the store, unless it is refused. -/
def asks? (l : Limiter) (now : Instant) : Call → Option StoreCall
  | .allow key n => (l.request now key n).toOption.map .execute
  | .remaining key => (l.request now key 0).toOption.map .execute
  | .record key => (l.storeKey key).toOption.map .fetch
  | .reset key => (l.storeKey key).toOption.map .delete
  | .close => if l.isClosed then none else some .close

theorem asks?_allow {key : String} {n : Int64} {c : StoreCall} :
    l.asks? now (.allow key n) = some c ↔
      ∃ request, l.request now key n = .ok request ∧ .execute request = c := by
  simp only [asks?, Option.map_eq_some_iff, toOption_eq_some]

theorem asks?_record {key : String} {c : StoreCall} :
    l.asks? now (.record key) = some c ↔
      ∃ storeKey, l.storeKey key = .ok storeKey ∧ .fetch storeKey = c := by
  simp only [asks?, Option.map_eq_some_iff, toOption_eq_some]

theorem asks?_reset {key : String} {c : StoreCall} :
    l.asks? now (.reset key) = some c ↔
      ∃ storeKey, l.storeKey key = .ok storeKey ∧ .delete storeKey = c := by
  simp only [asks?, Option.map_eq_some_iff, toOption_eq_some]

/-- A call asks about its own key, and closing a limiter about none. -/
theorem key?_of_asks? {c : StoreCall} (h : l.asks? now call = some c) :
    c.key? = call.key?.map l.keys.storeKey := by
  have hallow {key : String} {n : Int64} (h : l.asks? now (.allow key n) = some c) :
      c.key? = some (l.keys.storeKey key) := by
    obtain ⟨request, hrequest, rfl⟩ := asks?_allow.mp h
    obtain ⟨-, -, -, rfl⟩ := request_eq_ok_iff.mp hrequest
    rfl
  cases call with
  | allow key n => exact hallow h
  | remaining key => exact hallow (n := 0) h
  | record key =>
    obtain ⟨storeKey, hkey, rfl⟩ := asks?_record.mp h
    obtain ⟨-, -, rfl⟩ := storeKey_eq_ok_iff.mp hkey
    rfl
  | reset key =>
    obtain ⟨storeKey, hkey, rfl⟩ := asks?_reset.mp h
    obtain ⟨-, -, rfl⟩ := storeKey_eq_ok_iff.mp hkey
    rfl
  | close =>
    rw [asks?] at h
    split at h
    · cases h
    · cases h
      rfl

/-- A call changes the store by what it asks, if it asks anything. -/
theorem perform_store (l : Limiter) (now storeNow : Instant) (call : Call) (s : σ) :
    (l.perform now storeNow call s).2.2 = (l.asks? now call).elim s (·.perform storeNow s) := by
  cases call with
  | allow key n =>
    simp only [perform, allow, asks?]
    cases l.request now key n <;> rfl
  | remaining key =>
    simp only [perform, remaining, allow, asks?]
    cases l.request now key 0 <;> rfl
  | record key =>
    simp only [perform, record, asks?]
    cases l.storeKey key <;> rfl
  | reset key =>
    simp only [perform, reset, asks?]
    cases l.storeKey key <;> rfl
  | close =>
    simp only [perform, close, asks?]
    split <;> rfl

theorem allow_fst_congr {key : String} {n : Int64}
    (h : ∀ c, l.asks? now (.allow key n) = some c → c.answer storeNow s = c.answer storeNow t) :
    (l.allow now storeNow key n s).1 = (l.allow now storeNow key n t).1 := by
  simp only [allow]
  cases hrequest : l.request now key n with
  | error failure => rfl
  | ok request =>
    have hreply := StoreAnswer.reply.inj (h (.execute request) (asks?_allow.mpr ⟨request, hrequest, rfl⟩))
    exact congrArg (Except.bind · (l.decide n)) hreply

/-- Where two stores answer alike what a call asks of them, the call is answered alike. -/
theorem perform_fst_congr
    (h : ∀ c, l.asks? now call = some c → c.answer storeNow s = c.answer storeNow t) :
    (l.perform now storeNow call s).1 = (l.perform now storeNow call t).1 := by
  cases call with
  | allow key n => exact congrArg Answer.decision (allow_fst_congr h)
  | remaining key =>
    have hdecision : (l.allow now storeNow key 0 s).1 = (l.allow now storeNow key 0 t).1 :=
      allow_fst_congr h
    simp only [perform, remaining]
    rw [hdecision]
  | record key =>
    simp only [perform, record]
    cases hkey : l.storeKey key with
    | error failure => rfl
    | ok storeKey =>
      have hrecord := h (.fetch storeKey) (asks?_record.mpr ⟨storeKey, hkey, rfl⟩)
      exact congrArg Answer.record (StoreAnswer.record.inj hrecord)
  | reset key =>
    simp only [perform, reset]
    cases hkey : l.storeKey key with
    | error failure => rfl
    | ok storeKey =>
      have hexisted := h (.delete storeKey) (asks?_reset.mpr ⟨storeKey, hkey, rfl⟩)
      exact congrArg Answer.existed (StoreAnswer.existed.inj hexisted)
  | close =>
    simp only [perform, close]
    split
    · rfl
    · next hopen => exact congrArg Answer.closed (StoreAnswer.closed.inj (h .close (if_neg hopen)))

end Limiter

namespace Fleet

variable {ι σ τ : Type} [DecidableEq ι] [BucketStore σ] [BucketStore τ] {f : Fleet ι σ} {g : Fleet ι τ}
  {v : Visit ι}

/-- A visit changes the store by what its limiter asks, if it asks anything. -/
theorem store_visit_eq (f : Fleet ι σ) (v : Visit ι) :
    (f.visit v).2.store =
      ((f.limiters v.limiter).asks? v.now v.call).elim f.store (·.perform v.storeNow f.store) := by
  simp only [visit, Limiter.perform_store]

/-- Where two stores answer alike what a visit asks of them, the visit is answered alike. -/
theorem visit_fst_congr (hlimiters : f.limiters = g.limiters)
    (h : ∀ c, (g.limiters v.limiter).asks? v.now v.call = some c →
      c.answer v.storeNow f.store = c.answer v.storeNow g.store) :
    (f.visit v).1 = (g.visit v).1 := by
  simp only [visit, hlimiters]
  exact Limiter.perform_fst_congr h

/-- A relation between two stores that is kept by what a visit asks of them is kept by the visit. -/
theorem rel_store_visit {R : σ → τ → Prop} (hlimiters : f.limiters = g.limiters)
    (hstores : R f.store g.store)
    (h : ∀ c, (g.limiters v.limiter).asks? v.now v.call = some c →
      R (c.perform v.storeNow f.store) (c.perform v.storeNow g.store)) :
    R (f.visit v).2.store (g.visit v).2.store := by
  rw [store_visit_eq, store_visit_eq, hlimiters]
  cases hasks : (g.limiters v.limiter).asks? v.now v.call with
  | none => exact hstores
  | some c => exact h c hasks

/-- The same visit leaves the same limiters, whatever their store. -/
theorem limiters_visit_congr (hlimiters : f.limiters = g.limiters) (v : Visit ι) :
    (f.visit v).2.limiters = (g.visit v).2.limiters := by
  rw [limiters_visit_eq, limiters_visit_eq, hlimiters]

end Fleet

end TokenBucket
