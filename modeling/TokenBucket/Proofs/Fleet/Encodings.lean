import TokenBucket.Proofs.Bucket.Whole
import TokenBucket.Proofs.Fleet.Answers
import TokenBucket.Proofs.Fleet.Asked
import TokenBucket.Proofs.Fleet.Soundness

/-!
# The encoding does not matter

A store in memory can answer in three forms that do not tell the same. One of them gives the balance to the
last bit, another only the whole tokens of it, cut off at the end of 64 bits, and a count in place of the
grant. Limiters tell their callers whether tokens were granted and how many whole tokens are left, and that
much every form carries. So a run of limiters over one store is answered in the same way whatever form the
store was given (`Fleet.encoding_not_noticed`), failures included, and wherever the clocks move.

The form does not touch what the store holds either: two stores that differ in it alone still do so after
any call (`InProcess.perform_answeringIn`).

## Main definitions

* `InProcess.answeringIn`: the same store with another form of reply.

## Main results

* `InProcess.perform_answeringIn`: no call depends on the form for what it leaves.
* `Limiter.allow_fst_answeringIn`, `Limiter.perform_fst_answeringIn`.
* `Fleet.encoding_not_noticed`.
-/

namespace TokenBucket

/-! ### The same store with another form of reply -/

namespace InProcess

variable {s : InProcess} {e : Encoding} {now : Instant} {key : String} {request : Request}

/-- The store, had it been given another form of reply. -/
def answeringIn (e : Encoding) (s : InProcess) : InProcess := { s with encoding := e }

@[simp] theorem answeringIn_isClosed : (s.answeringIn e).isClosed = s.isClosed := rfl

@[simp] theorem live?_answeringIn : (s.answeringIn e).live? now key = s.live? now key := rfl

theorem step_answeringIn :
    ((s.answeringIn e).step now request).2 = (s.step now request).2.answeringIn e := rfl

theorem sweep_answeringIn : (s.answeringIn e).sweep now = (s.sweep now).answeringIn e := by
  simp only [sweep, apply_ite (answeringIn e)]
  rfl

theorem HoldsUnsigned.answeringIn (hs : s.HoldsUnsigned) : (s.answeringIn e).HoldsUnsigned := hs

/-- What an operation leaves does not depend on the form, as long as what it does to an open store does
not. -/
theorem whenOpen_snd_answeringIn {α : Type} {operation : InProcess → α × InProcess}
    (h : (operation (s.answeringIn e)).2 = (operation s).2.answeringIn e) :
    ((s.answeringIn e).whenOpen operation).2 = (s.whenOpen operation).2.answeringIn e := by
  rw [whenOpen, whenOpen, answeringIn_isClosed]
  split
  · rfl
  · exact h

theorem execute_snd_answeringIn :
    ((s.answeringIn e).execute now request).2 = (s.execute now request).2.answeringIn e := by
  refine whenOpen_snd_answeringIn ?_
  simp only [sweep_answeringIn, step_answeringIn]

/-- No call depends on the form of reply for what it leaves. -/
theorem perform_answeringIn (call : StoreCall) :
    call.perform now (s.answeringIn e) = (call.perform now s).answeringIn e := by
  cases call with
  | execute request => exact execute_snd_answeringIn
  | fetch key => exact whenOpen_snd_answeringIn rfl
  | delete key => exact whenOpen_snd_answeringIn rfl
  | close => rfl

/-- Only a request is answered in the form of the store. -/
theorem answer_answeringIn {call : StoreCall} (h : ∀ request, call ≠ .execute request) :
    call.answer now (s.answeringIn e) = call.answer now s := by
  have hopen {α : Type} (answer : InProcess → α) (after : InProcess → InProcess)
      (hanswer : answer (s.answeringIn e) = answer s) :
      ((s.answeringIn e).whenOpen fun s => (answer s, after s)).1 =
        (s.whenOpen fun s => (answer s, after s)).1 := by
    rw [whenOpen, whenOpen, answeringIn_isClosed]
    split
    · rfl
    · exact congrArg Except.ok hanswer
  cases call with
  | execute request => exact absurd rfl (h request)
  | fetch key => exact congrArg StoreAnswer.record (hopen _ _ rfl)
  | delete key => exact congrArg StoreAnswer.existed (hopen _ _ rfl)
  | close => rfl

end InProcess

/-! ### What limiters say over it -/

namespace Limiter

variable {l : Limiter} {now storeNow : Instant} {key : String} {n : Int64} {s : InProcess} {e : Encoding}

/-- Whether tokens are granted, and how many whole tokens are left, is told in every form. -/
theorem allow_fst_answeringIn (hs : s.HoldsUnsigned) :
    (l.allow now storeNow key n (s.answeringIn e)).1 = (l.allow now storeNow key n s).1 := by
  cases hrequest : l.request now key n with
  | error failure => rw [allow_of_error hrequest, allow_of_error hrequest]
  | ok request =>
    cases hclosed : s.isClosed with
    | true =>
      have hclosed' : (s.answeringIn e).isClosed = true := hclosed
      rw [allow_of_isClosed hclosed hrequest, allow_of_isClosed hclosed' hrequest]
    | false =>
      have hclosed' : (s.answeringIn e).isClosed = false := hclosed
      obtain ⟨r, htokens, -⟩ := hs.settle_isBalance storeNow (request_isValid hrequest)
      rw [allow_eq hs.live? hclosed hrequest, allow_eq hs.answeringIn.live? hclosed' hrequest,
        InProcess.live?_answeringIn, htokens, Encoding.saturateInt64_truncate_carried,
        Encoding.saturateInt64_truncate_carried]

/-- A limiter says the same to every call, whatever the form of reply. -/
theorem perform_fst_answeringIn (hs : s.HoldsUnsigned) (call : Call) :
    (l.perform now storeNow call (s.answeringIn e)).1 = (l.perform now storeNow call s).1 := by
  have hsilent (h : ∀ request, l.asks? now call ≠ some (.execute request)) :
      (l.perform now storeNow call (s.answeringIn e)).1 = (l.perform now storeNow call s).1 := by
    refine perform_fst_congr fun c hasks => InProcess.answer_answeringIn ?_
    rintro request rfl
    exact h request hasks
  cases call with
  | allow key n => exact congrArg Answer.decision (allow_fst_answeringIn hs)
  | remaining key =>
    simp only [perform, remaining]
    rw [allow_fst_answeringIn hs]
  | record key =>
    refine hsilent fun request hasks => ?_
    obtain ⟨_, -, hcall⟩ := asks?_record.mp hasks
    cases hcall
  | reset key =>
    refine hsilent fun request hasks => ?_
    obtain ⟨_, -, hcall⟩ := asks?_reset.mp hasks
    cases hcall
  | close =>
    refine hsilent fun request hasks => ?_
    rw [asks?] at hasks
    split at hasks <;> cases hasks

end Limiter

/-! ### Runs -/

namespace Fleet

variable {ι : Type} [DecidableEq ι] {f : Fleet ι InProcess} {e : Encoding}

/-- The limiters over the same store with another form of reply. -/
def answeringIn (e : Encoding) (f : Fleet ι InProcess) : Fleet ι InProcess :=
  ⟨f.limiters, f.store.answeringIn e⟩

/-- A visit leaves the same limiters, and stores that still differ in their form of reply alone. -/
theorem visit_snd_answeringIn (v : Visit ι) :
    ((f.answeringIn e).visit v).2 = (f.visit v).2.answeringIn e := by
  have hstore : ((f.answeringIn e).visit v).2.store = (f.visit v).2.store.answeringIn e :=
    rel_store_visit (f := f.answeringIn e) (g := f) (R := fun s t => s = t.answeringIn e) rfl rfl
      fun c _ => InProcess.perform_answeringIn c
  have hlimiters : ((f.answeringIn e).visit v).2.limiters = (f.visit v).2.limiters :=
    limiters_visit_congr (f := f.answeringIn e) (g := f) rfl v
  exact congrArg₂ Fleet.mk hlimiters hstore

theorem visit_fst_answeringIn (hf : f.store.HoldsUnsigned) (v : Visit ι) :
    ((f.answeringIn e).visit v).1 = (f.visit v).1 :=
  (f.limiters v.limiter).perform_fst_answeringIn hf v.call

/-- Over a store whose records carry no sign, a run is answered alike in every form of reply. -/
theorem answers_answeringIn (hf : f.store.HoldsUnsigned) (visits : List (Visit ι)) :
    (f.answeringIn e).answers visits = f.answers visits := by
  induction visits generalizing f with
  | nil => rfl
  | cons v visits ih =>
    rw [answers, answers, visit_fst_answeringIn hf, visit_snd_answeringIn, ih (holdsUnsigned_visit hf v)]

/-- Whatever is asked of limiters over a store in memory, and wherever their clocks and that of the store
move, the answers are the same in every form of reply. -/
theorem encoding_not_noticed (limiters : ι → Limiter) (opened : Instant) (encoding encoding' : Encoding)
    (interval : Duration) (visits : List (Visit ι)) :
    (Fleet.fresh limiters opened encoding interval).answers visits =
      (Fleet.fresh limiters opened encoding' interval).answers visits :=
  answers_answeringIn (f := Fleet.fresh limiters opened encoding' interval)
    (InProcess.holdsUnsigned_open opened encoding' interval) visits

end Fleet

end TokenBucket
