import TokenBucket.Proofs.Fleet.Answers

/-!
# Round trips

A call goes to the store once or not at all, and no reply has a say in it: not in whether the next call goes
there, not in what it asks, and there is no second attempt after a failure or a reply that makes no sense. So
what reaches a store along a run can be read off the calls and the clocks (`Fleet.orders`). A call is left
out if it is refused for its arguments, or if its own limiter has been closed by an earlier call; that the
store has been closed by another limiter holds no call back.

What reaches a store is seen in a store that keeps a journal, and the journal is not noticed by the limiters
(`Fleet.answers_journaled`).

## Main definitions

* `Call.order?`: what a call asks of the store if its limiter is open.
* `Fleet.orders`: what a run of visits asks of the store.

## Main results

* `Limiter.asks?_eq_ite`: what a call asks hangs on the limiter only by its being open.
* `Fleet.calls_visit`, `Fleet.calls_after`: what the journal gains by a visit, and by a run.
* `Fleet.one_round_trip`.
-/

namespace TokenBucket

/-! ### What a call asks of the store -/

section Orders

variable (p : Policy) (space : KeySpace) (now : Instant)

/-- The order for `n` tokens of a key: the parameters of the policy, the reading of the clock, and the
whole milliseconds for which a record may be kept without use. -/
def drawOrder? (key : String) (n : Int64) : Option StoreCall :=
  if 0 ≤ n ∧ key ≠ "" then
    some (.execute {
      rate := p.rate
      capacity := p.capacity
      now := now
      requested := n
      key := space.beginning ++ key
      ttl := .ofNat p.idle.millis })
  else none

/-- What a call asks of the store if its limiter is open: one thing, or nothing if its arguments are
refused. -/
def Call.order? : Call → Option StoreCall
  | .allow key n => drawOrder? p space now key n
  | .remaining key => drawOrder? p space now key 0
  | .record key => if key ≠ "" then some (.fetch (space.beginning ++ key)) else none
  | .reset key => if key ≠ "" then some (.delete (space.beginning ++ key)) else none
  | .close => some .close

end Orders

namespace Limiter

variable (l : Limiter) (now : Instant)

theorem map_toOption_storeKey (key : String) (c : String → StoreCall) :
    (l.storeKey key).toOption.map c =
      if l.isClosed then none else if key ≠ "" then some (c (l.keys.storeKey key)) else none := by
  rw [storeKey]
  by_cases hkey : key = ""
  · simp [hkey, Except.toOption]
  · by_cases hclosed : l.isClosed <;> simp [hkey, hclosed, Except.toOption]

theorem asks?_allow_eq (key : String) (n : Int64) :
    l.asks? now (.allow key n) = if l.isClosed then none else drawOrder? l.policy l.keys now key n := by
  rw [asks?, request, drawOrder?]
  by_cases hn : n < 0
  · have hnot : ¬ 0 ≤ n := Int64.not_le.mpr hn
    simp [hn, hnot, Except.toOption]
  · have hle : 0 ≤ n := Int64.not_lt.mp hn
    simp only [if_neg hn, hle, true_and]
    -- the request is made of the key itself and not of its store key
    have hstoreKey := l.map_toOption_storeKey key fun _ => .execute (l.keys.request l.policy key now n)
    exact Eq.trans (by cases l.storeKey key <;> rfl) hstoreKey

/-- What a call asks hangs on the limiter only by its policy, its key space and its being open. -/
theorem asks?_eq_ite (call : Call) :
    l.asks? now call = if l.isClosed then none else call.order? l.policy l.keys now := by
  cases call with
  | allow key n => exact l.asks?_allow_eq now key n
  | remaining key => exact l.asks?_allow_eq now key 0
  | record key => exact l.map_toOption_storeKey key .fetch
  | reset key => exact l.map_toOption_storeKey key .delete
  | close => rfl

end Limiter

/-! ### Journals -/

namespace Journaled

variable {σ : Type} [BucketStore σ] (at' : Instant) (j : Journaled σ) (c : StoreCall)

/-- What a store with a journal is asked it notes, and it notes nothing else. -/
theorem calls_perform : (c.perform at' j).calls = j.calls ++ [c] := by
  cases c <;> rfl

theorem store_perform : (c.perform at' j).store = c.perform at' j.store := by
  cases c <;> rfl

theorem answer_eq : c.answer at' j = c.answer at' j.store := by
  cases c <;> rfl

end Journaled

/-! ### Runs -/

namespace Fleet

variable {ι σ τ : Type} [DecidableEq ι] [BucketStore σ] [BucketStore τ]

/-- What a run of visits asks of the store after the visits `before`: for each visit its order, unless it
is refused or an earlier visit has closed the limiter. -/
def orders (policies : ι → Policy) (spaces : ι → KeySpace) :
    List (Visit ι) → List (Visit ι) → List StoreCall
  | _, [] => []
  | before, v :: visits =>
    let order? :=
      if ∃ w ∈ before, w.limiter = v.limiter ∧ w.call = .close then none
      else v.call.order? (policies v.limiter) (spaces v.limiter) v.now
    order?.toList ++ orders policies spaces (before ++ [v]) visits

/-- The journal gains by a visit what the limiter asks, if it asks anything. -/
theorem calls_visit (f : Fleet ι (Journaled σ)) (v : Visit ι) :
    (f.visit v).2.store.calls =
      f.store.calls ++ ((f.limiters v.limiter).asks? v.now v.call).toList := by
  rw [store_visit_eq]
  cases (f.limiters v.limiter).asks? v.now v.call with
  | none => exact (List.append_nil _).symm
  | some c => exact Journaled.calls_perform v.storeNow f.store c

/-- The journal gains by a run what the visits order, whatever the store has said to the visits before it
and says to those of the run. -/
theorem calls_after (policies : ι → Policy) (spaces : ι → KeySpace) (j : Journaled σ)
    (before visits : List (Visit ι)) :
    let f : Fleet ι (Journaled σ) := ⟨fun i => .new (policies i) (spaces i), j⟩
    (f.after (before ++ visits)).store.calls =
      (f.after before).store.calls ++ orders policies spaces before visits := by
  intro f
  induction visits generalizing before with
  | nil => simp [orders]
  | cons v visits ih =>
    have hopen : ((f.after before).limiters v.limiter).isClosed = true ↔
        ∃ w ∈ before, w.limiter = v.limiter ∧ w.call = .close := by
      rw [limiters_after, isClosed_limitersAfter]
      exact or_iff_right Bool.false_ne_true
    have hpolicy : ((f.after before).limiters v.limiter).policy = policies v.limiter :=
      policy_after before v.limiter
    have hkeys : ((f.after before).limiters v.limiter).keys = spaces v.limiter :=
      keys_after before v.limiter
    have hvisit : (f.after (before ++ [v])).store.calls = (f.after before).store.calls ++
        (if ∃ w ∈ before, w.limiter = v.limiter ∧ w.call = .close then none
          else v.call.order? (policies v.limiter) (spaces v.limiter) v.now).toList := by
      rw [after_append, after_cons, after_nil, calls_visit, Limiter.asks?_eq_ite, hpolicy, hkeys]
      simp only [hopen]
    rw [List.append_cons, ih, hvisit, orders, List.append_assoc]

/-- The limiters do not notice that a journal is kept. -/
theorem answers_journaled {f : Fleet ι (Journaled σ)} {g : Fleet ι σ} (hlimiters : f.limiters = g.limiters)
    (hstores : f.store.store = g.store) (visits : List (Visit ι)) : f.answers visits = g.answers visits := by
  induction visits generalizing f g with
  | nil => rfl
  | cons v visits ih =>
    have hanswer : (f.visit v).1 = (g.visit v).1 :=
      visit_fst_congr hlimiters fun c _ => (Journaled.answer_eq _ _ c).trans (by rw [hstores])
    have hstores' : (f.visit v).2.store.store = (g.visit v).2.store :=
      rel_store_visit (R := fun j s => j.store = s) hlimiters hstores fun c _ =>
        (Journaled.store_perform _ _ c).trans (by rw [hstores])
    exact congrArg₂ List.cons hanswer (ih (limiters_visit_congr hlimiters v) hstores')

/-- Whatever store limiters share, and whatever it replies, what reaches it along a run is what the calls
order, one after the other, and nothing else. So two stores are asked the same, however much their replies
differ. The journal in which this is read is not noticed. -/
theorem one_round_trip (policies : ι → Policy) (spaces : ι → KeySpace) (s : σ) (t : τ)
    (visits : List (Visit ι)) :
    let limiters : ι → Limiter := fun i => .new (policies i) (spaces i)
    let f : Fleet ι (Journaled σ) := ⟨limiters, ⟨s, []⟩⟩
    let g : Fleet ι (Journaled τ) := ⟨limiters, ⟨t, []⟩⟩
    (f.after visits).store.calls = orders policies spaces [] visits ∧
      (g.after visits).store.calls = (f.after visits).store.calls ∧
      f.answers visits = (⟨limiters, s⟩ : Fleet ι σ).answers visits := by
  intro limiters f g
  have hf : (f.after visits).store.calls = orders policies spaces [] visits :=
    calls_after policies spaces ⟨s, []⟩ [] visits
  have hg : (g.after visits).store.calls = orders policies spaces [] visits :=
    calls_after policies spaces ⟨t, []⟩ [] visits
  exact ⟨hf, hg.trans hf.symm, answers_journaled rfl rfl visits⟩

/-- Of these calls the first is refused and the third comes too late. -/
example : orders (fun _ : Fin 2 => .standard) (fun _ => .standard) []
    [⟨0, 5, 0, .allow "k" (-1)⟩, ⟨1, 6, 0, .close⟩, ⟨1, 7, 0, .remaining "k"⟩,
      ⟨0, 8, 0, .record "k"⟩] = [.close, .fetch "ratelimit:token:bucket:k"] := by decide

end Fleet

end TokenBucket
