import TokenBucket.Proofs.Fleet.Answers
import TokenBucket.Proofs.Fleet.Soundness
import TokenBucket.Proofs.Store.Ledger

/-!
# Looks are not noticed

Asking for no tokens, for the balance or for the record of a key is a look. In memory a look is not without
effect: it can set off a sweep, put off the next one, and drop the dead record that it meets. But over a
ledger it changes nothing at all (`Fleet.visit_of_isLook`), and limiters over a store in memory say what they
say over the ledger, as long as the clock of the store does not run backwards. So looks can be inserted
into a run anywhere: the other visits are answered as before (`Fleet.looks_not_noticed`).

## Main definitions

* `Call.IsLook`.

## Main results

* `Fleet.answers_over_ledger`: limiters over a store in memory say what they say over the ledger.
* `Fleet.ownAnswers_ledger`: over a ledger looks are not noticed.
* `Fleet.held_of_isLook`: a look brings about no record, and leaves no other expiration to one.
* `Fleet.looks_not_noticed`.
-/

namespace TokenBucket

/-- A call that only looks. -/
def Call.IsLook : Call → Prop
  | .allow _ n => n = 0
  | .remaining _ => True
  | .record _ => True
  | .reset _ => False
  | .close => False

instance (call : Call) : Decidable call.IsLook := by
  cases call <;> unfold Call.IsLook <;> infer_instance

/-! ### Looks over a ledger -/

namespace Ledger

variable {l : Ledger} {now : Instant}

theorem execute_snd_of_look {request : Request} (hlook : request.requested = 0) :
    (l.execute now request).2 = l := by
  rw [execute, whenOpen_snd, if_pos hlook, ite_self]

theorem fetch_snd (key : String) : (l.fetch now key).2 = l := by
  rw [fetch, whenOpen_snd, ite_self]

end Ledger

namespace Limiter

variable (l : Limiter) (now storeNow : Instant) (key : String)

/-- Asking for no tokens leaves a ledger as it is. -/
theorem allow_zero_ledger (ledger : Ledger) : (l.allow now storeNow key 0 ledger).2 = ledger := by
  rw [allow]
  cases hrequest : l.request now key 0 with
  | error failure => rfl
  | ok request =>
    obtain ⟨-, -, -, rfl⟩ := request_eq_ok_iff.mp hrequest
    exact Ledger.execute_snd_of_look rfl

variable {l now storeNow key}

/-- A decision on no tokens allows them. -/
theorem allowed_of_decide_zero {reply : Reply} {d : Decision} (h : l.decide 0 reply = .ok d) :
    d.allowed = true := by
  rw [Limiter.decide] at h
  cases houtcome : Outcome.ofReply l.policy.capacity reply with
  | error failure =>
    rw [houtcome] at h
    cases h
  | ok outcome =>
    rw [houtcome] at h
    obtain rfl := Except.ok.inj h
    rfl

/-- Where asking for no tokens succeeds it is allowed. -/
theorem allowed_of_allow_zero {σ : Type} [BucketStore σ] {s : σ} {d : Decision}
    (h : (l.allow now storeNow key 0 s).1 = .ok d) : d.allowed = true := by
  rw [allow] at h
  cases hrequest : l.request now key 0 with
  | error failure =>
    rw [hrequest] at h
    cases h
  | ok request =>
    rw [hrequest] at h
    change Except.bind (BucketStore.execute storeNow request s).1 (l.decide 0) = .ok d at h
    cases hreply : (BucketStore.execute storeNow request s).1 with
    | error failure =>
      rw [hreply] at h
      cases h
    | ok reply =>
      rw [hreply] at h
      exact allowed_of_decide_zero h

end Limiter

namespace Fleet

variable {ι : Type} [DecidableEq ι]

/-- A look changes nothing of limiters over a ledger. -/
theorem visit_of_isLook {g : Fleet ι Ledger} {v : Visit ι} (hlook : v.call.IsLook) :
    (g.visit v).2 = g := by
  obtain ⟨i, now, storeNow, call⟩ := v
  have hstore : ((g.limiters i).perform now storeNow call g.store).2 = (g.limiters i, g.store) := by
    cases call with
    | allow key n =>
      obtain rfl : n = 0 := hlook
      exact congrArg (Prod.mk _) ((g.limiters i).allow_zero_ledger now storeNow key g.store)
    | remaining key =>
      exact congrArg (Prod.mk _) ((g.limiters i).allow_zero_ledger now storeNow key g.store)
    | record key =>
      simp only [Limiter.perform, Limiter.record]
      cases (g.limiters i).storeKey key with
      | error failure => rfl
      | ok storeKey => exact congrArg (Prod.mk _) (Ledger.fetch_snd storeKey)
    | reset key => cases hlook
    | close => cases hlook
  simp only [visit, hstore, Function.update_eq_self]

/-- Looks inserted into a run of limiters over a ledger are not noticed. -/
theorem ownAnswers_ledger (g : Fleet ι Ledger) {run : List (Marked ι)}
    (hlooks : ∀ m ∈ run, m.isInserted = true → m.visit.call.IsLook) :
    Marked.ownAnswers run (g.answers (Marked.all run)) = g.answers (Marked.own run) := by
  induction run generalizing g with
  | nil => rfl
  | cons m run ih =>
    obtain ⟨hm, hrest⟩ := List.forall_mem_cons.mp hlooks
    change Marked.ownAnswers (m :: run)
      ((g.visit m.visit).1 :: (g.visit m.visit).2.answers (Marked.all run)) = _
    cases hinserted : m.isInserted with
    | false =>
      rw [Marked.ownAnswers_cons_own hinserted, Marked.own_cons_own hinserted, ih _ hrest]
      rfl
    | true =>
      rw [Marked.ownAnswers_cons_inserted hinserted, Marked.own_cons_inserted hinserted, ih _ hrest,
        visit_of_isLook (hm hinserted)]

/-! ### Looks over a store in memory -/

/-- Limiters over a store in memory say what they say over the ledger. -/
theorem answers_over_ledger (limiters : ι → Limiter) (opened : Instant) (encoding : Encoding)
    (interval : Duration) {visits : List (Visit ι)}
    (hclock : visits.Pairwise fun v v' => v.storeNow ≤ v'.storeNow) :
    (Fleet.fresh limiters opened encoding interval).answers visits =
      (⟨limiters, .empty encoding⟩ : Fleet ι Ledger).answers visits :=
  answers_eq_of_simulation InProcess.simulation_follows rfl
    (.opened opened Int64.minValue encoding interval) (fun v _ => Int64.minValue_le v.storeNow) hclock

/-- After a look nothing is held, and until no other instant, than what has been held before. -/
theorem held_of_isLook {f : Fleet ι InProcess} {v : Visit ι} (hlook : v.call.IsLook) {key : String}
    {h : Held} (hheld : (f.visit v).2.store.buckets.get? key = some h) :
    f.store.buckets.get? key = some h := by
  rcases held_visit hheld with hold | ⟨request, hsent, -, -, r, hr, -⟩
  · exact hold
  · -- a look leaves no record that could have been written
    obtain ⟨name, n, -, rfl, hcall⟩ := Limiter.sent?_eq_some hsent
    have hzero : n = 0 := by
      rcases hcall with hcall | ⟨-, hzero⟩
      · rw [hcall] at hlook
        exact hlook
      · exact hzero
    cases hr.symm.trans (Draw.record?_settle_of_look hzero)

/-- Looks can be inserted into a run anywhere, as long as the clock of the store does not run backwards:
the other visits are answered as they were without them. Asking for no tokens is allowed wherever it
succeeds, and no look brings about a record or leaves another expiration to one. -/
theorem looks_not_noticed (limiters : ι → Limiter) (opened : Instant) (encoding : Encoding)
    (interval : Duration) (run : List (Marked ι))
    (hclock : (Marked.all run).Pairwise fun v v' => v.storeNow ≤ v'.storeNow)
    (hlooks : ∀ m ∈ run, m.isInserted = true → m.visit.call.IsLook) :
    let f := Fleet.fresh limiters opened encoding interval
    Marked.ownAnswers run (f.answers (Marked.all run)) = f.answers (Marked.own run) ∧
    ∀ (before : List (Marked ι)) (m : Marked ι) (rest : List (Marked ι)),
      run = before ++ m :: rest → m.isInserted = true →
      (∀ key d, m.visit.call = .allow key 0 →
        ((f.after (Marked.all before)).visit m.visit).1 = .decision (.ok d) → d.allowed = true) ∧
      ∀ key h, ((f.after (Marked.all before)).visit m.visit).2.store.buckets.get? key = some h →
        (f.after (Marked.all before)).store.buckets.get? key = some h := by
  intro f
  constructor
  · rw [answers_over_ledger limiters opened encoding interval hclock,
      answers_over_ledger limiters opened encoding interval (Marked.pairwise_own hclock)]
    exact ownAnswers_ledger _ hlooks
  · intro before m rest hrun hinserted
    have hmem : m ∈ run := by
      rw [hrun]
      exact List.mem_append_right before List.mem_cons_self
    refine ⟨?_, fun key h hheld => held_of_isLook (hlooks m hmem hinserted) hheld⟩
    intro key d hcall hanswer
    simp only [visit, hcall, Limiter.perform] at hanswer
    exact Limiter.allowed_of_allow_zero (Answer.decision.inj hanswer)

/-- Two looks at a bucket whose record has just expired, in a store that sweeps at every request: the
first drops the record, and the call after them is answered as it is without them. -/
theorem looks_not_noticed_standard :
    let f := Fleet.fresh (fun _ : Fin 2 => Limiter.new .standard .standard) 0 .count ⟨0⟩
    let before : List (Marked (Fin 2)) :=
      [⟨⟨0, 0, 0, .allow "k" 5⟩, false⟩, ⟨⟨1, 500, 3600000, .remaining "k"⟩, true⟩]
    let look : Marked (Fin 2) := ⟨⟨1, 700, 3600000, .allow "k" 0⟩, true⟩
    let last : Marked (Fin 2) := ⟨⟨0, 600, 3600000, .allow "k" 20⟩, false⟩
    let run := before ++ look :: [last]
    (∀ m ∈ run, m.isInserted = true → m.visit.call.IsLook) ∧
      Marked.ownAnswers run (f.answers (Marked.all run)) = f.answers (Marked.own run) ∧
      ∀ key h, ((f.after (Marked.all before)).visit look.visit).2.store.buckets.get? key = some h →
        (f.after (Marked.all before)).store.buckets.get? key = some h := by
  intro f before look last run
  have hlooks : ∀ m ∈ run, m.isInserted = true → m.visit.call.IsLook := by decide
  have h := looks_not_noticed (fun _ : Fin 2 => Limiter.new .standard .standard) 0 .count ⟨0⟩ run
    (by decide) hlooks
  refine ⟨hlooks, h.1, ?_⟩
  unfold f
  exact (h.2 before look [last] rfl rfl).2

end Fleet

end TokenBucket
