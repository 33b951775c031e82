import TokenBucket.Proofs.Fleet.Basic
import TokenBucket.Proofs.Store.Served
import TokenBucket.Proofs.Wire.Replies

/-!
# Balances stay sound

Limiters with different parameters can meet in one bucket, their clocks can run backwards, and the inflow
of a long pause overflows. None of this ever takes a balance below zero or above the capacity of the
limiter that writes it: a settlement leaves such a balance whatever record without a sign it has met. The
invariant of a run is therefore that no record of the store carries a sign
(`InProcess.HoldsUnsigned`), and it makes every reply mean something to the limiter that asked.

Differences of instants are those of integers here; they never come round at the end of a range.

## Main definitions

* `Event.IsValid`: what may happen to the store besides visits.

## Main results

* `Limiter.allow_eq`: the decision of a limiter, with the store after it.
* `Limiter.request_of_allow_eq_ok`: which calls end in a decision.
* `Fleet.holdsUnsigned_step`, `Fleet.holdsUnsigned_run`: the invariant holds along every run.
* `Fleet.sound_after`: the balances held, the failures and the answers after a run.
-/

namespace TokenBucket

open Binary64

/-! ### Limiters over such a store -/

namespace Limiter

variable {l : Limiter} {now storeNow : Instant} {key : String} {n : Int64} {s : InProcess}
  {request : Request}

theorem storeKey_failure {failure : Failure} (h : l.storeKey key = .error failure) :
    failure.kind ≠ .protocol := by
  rw [Limiter.storeKey] at h
  split at h
  · cases h
    decide
  · split at h
    · cases h
      decide
    · cases h

theorem request_failure {failure : Failure} (h : l.request now key n = .error failure) :
    failure.kind ≠ .protocol := by
  rw [Limiter.request] at h
  split at h
  · cases h
    rintro ⟨⟩
  · cases hkey : l.storeKey key with
    | error failure' =>
      rw [hkey] at h
      cases h
      exact storeKey_failure hkey
    | ok storeKey =>
      rw [hkey] at h
      cases h

theorem record_failure {failure : Failure} (h : (l.record storeNow key s).1 = .error failure) :
    failure.kind ≠ .protocol := by
  rw [Limiter.record] at h
  cases hkey : l.storeKey key with
  | error failure' =>
    rw [hkey] at h
    cases h
    exact storeKey_failure hkey
  | ok storeKey =>
    rw [hkey] at h
    exact InProcess.fetch_failure h

theorem reset_failure {failure : Failure} (h : (l.reset storeNow key s).1 = .error failure) :
    failure.kind ≠ .protocol := by
  rw [Limiter.reset] at h
  cases hkey : l.storeKey key with
  | error failure' =>
    rw [hkey] at h
    cases h
    exact storeKey_failure hkey
  | ok storeKey =>
    rw [hkey] at h
    exact InProcess.delete_failure h

theorem request_isValid (h : l.request now key n = .ok request) : request.IsValid := by
  obtain ⟨hn, -, -, rfl⟩ := request_eq_ok_iff.mp h
  exact l.keys.request_isValid l.policy key now hn

/-- The decision of a limiter, with the store after it. -/
theorem allow_eq (hs : ∀ r ∈ s.live? storeNow request.key, r.IsUnsigned) (hopen : s.isClosed = false)
    (hrequest : l.request now key n = .ok request) :
    l.allow now storeNow key n s =
      (.ok ⟨n == 0 || (request.settle (s.live? storeNow request.key)).isGranted,
          saturateInt64
            (s.encoding.carried (request.settle (s.live? storeNow request.key)).tokens).truncate⟩,
        ((s.sweep storeNow).step storeNow request).2) := by
  have hbalance := Draw.settle_isBalance (request_isValid hrequest) hs
  obtain ⟨-, -, -, rfl⟩ := request_eq_ok_iff.mp hrequest
  have hreply := l.decide_reply s.encoding n hbalance
  simp only [allow, hrequest]
  change (Except.bind (s.execute _ _).1 _, (s.execute _ _).2) = _
  rw [InProcess.execute_eq hopen]
  exact congrArg (·, _) hreply

/-- A closed store answers no call for tokens. -/
theorem allow_of_isClosed (hclosed : s.isClosed = true)
    (hrequest : l.request now key n = .ok request) :
    l.allow now storeNow key n s = (.error (.storeUnavailable .inProcessClosed), s) := by
  simp only [allow, hrequest]
  change (Except.bind (s.execute _ _).1 _, (s.execute _ _).2) = _
  rw [InProcess.execute_of_isClosed hclosed]
  rfl

/-- A call for tokens that ends in a decision has passed the checks and reached an open store. -/
theorem request_of_allow_eq_ok {d : Decision} (h : (l.allow now storeNow key n s).1 = .ok d) :
    l.request now key n = .ok (l.keys.request l.policy key now n) ∧ s.isClosed = false := by
  cases hrequest : l.request now key n with
  | error failure =>
    rw [allow_of_error hrequest] at h
    cases h
  | ok request =>
    obtain ⟨-, -, -, rfl⟩ := request_eq_ok_iff.mp hrequest
    cases hclosed : s.isClosed with
    | true =>
      rw [allow_of_isClosed hclosed hrequest] at h
      cases h
    | false => exact ⟨rfl, rfl⟩

/-- The tokens left are those of the settlement, so they lie between zero and the capacity. -/
theorem carried_bounds (e : Encoding) {x : Binary64} (hx : x.IsBalance l.policy.capacity) :
    0 ≤ saturateInt64 (e.carried x).truncate ∧
      saturateInt64 (e.carried x).truncate ≤
        saturateInt64 (Binary64.ofInt l.policy.capacity.toInt).truncate := by
  obtain ⟨r, rfl, hr⟩ := hx
  obtain ⟨q, hq, hqr⟩ := e.exists_carried r
  rw [hq, ofInt_capacity l.policy.one_le_capacity]
  exact ⟨saturateInt64_nonneg (truncate_number_nonneg q),
    saturateInt64_le_saturateInt64 (truncate_number_le (hqr.trans hr))⟩

/-- A call for tokens ends in a decision within the bounds or in a failure that blames no reply. -/
theorem allow_sound (l : Limiter) (now storeNow : Instant) (key : String) (n : Int64)
    (hs : s.HoldsUnsigned) :
    (∃ failure, (l.allow now storeNow key n s).1 = .error failure ∧ failure.kind ≠ .protocol) ∨
    ∃ d, (l.allow now storeNow key n s).1 = .ok d ∧ 0 ≤ d.remaining ∧
      d.remaining ≤ saturateInt64 (Binary64.ofInt l.policy.capacity.toInt).truncate := by
  cases hrequest : l.request now key n with
  | error failure =>
    rw [allow_of_error hrequest]
    exact Or.inl ⟨failure, rfl, request_failure hrequest⟩
  | ok request =>
    cases hclosed : s.isClosed with
    | true =>
      rw [allow_of_isClosed hclosed hrequest]
      exact Or.inl ⟨_, rfl, by decide⟩
    | false =>
      rw [allow_eq hs.live? hclosed hrequest]
      have hbalance := hs.settle_isBalance storeNow (request_isValid hrequest)
      obtain ⟨-, -, -, rfl⟩ := request_eq_ok_iff.mp hrequest
      exact Or.inr ⟨_, rfl, l.carried_bounds s.encoding hbalance⟩

end Limiter

/-! ### Runs -/

/-- A request that reaches the store past all limiters is a valid one. -/
def Event.IsValid {ι : Type} : Event ι → Prop
  | .direct _ (.execute request) => request.IsValid
  | _ => True

namespace Fleet

variable {ι : Type} [DecidableEq ι] {f : Fleet ι InProcess} {v : Visit ι} {e : Event ι}
  {events : List (Event ι)}

omit [DecidableEq ι] in
/-- What a visit writes is a balance of the limiter that was called. -/
theorem Writes.isBalance (hf : f.store.HoldsUnsigned) {key : String} {h : Held}
    (hw : f.Writes v key h) :
    h.record.tokens.IsBalance (f.limiters v.limiter).policy.capacity := by
  obtain ⟨request, hsent, rfl, -, r, hr, rfl⟩ := hw
  obtain ⟨key, n, hn, rfl, -⟩ := Limiter.sent?_eq_some hsent
  have hbalance := hf.settle_isBalance v.storeNow
    ((f.limiters v.limiter).keys.request_isValid (f.limiters v.limiter).policy key v.now hn)
  rwa [← Settlement.tokens_of_record? hr] at hbalance

theorem holdsUnsigned_visit (hf : f.store.HoldsUnsigned) (v : Visit ι) :
    (f.visit v).2.store.HoldsUnsigned := by
  intro key h hheld
  rcases held_visit hheld with hold | hw
  · exact hf key h hold
  · exact Record.isUnsigned_of_isBalance (hw.isBalance hf)

theorem holdsUnsigned_step (hf : f.store.HoldsUnsigned) (he : e.IsValid) :
    (f.step e).store.HoldsUnsigned := by
  cases e with
  | visit v => exact holdsUnsigned_visit hf v
  | direct storeNow call =>
    cases call with
    | execute request => exact InProcess.holdsUnsigned_execute hf he
    | fetch key =>
      change (f.store.fetch storeNow key).2.HoldsUnsigned
      rwa [InProcess.fetch_snd]
    | delete key => exact fun name h hheld => hf name h (InProcess.held_delete hheld)
    | close => exact hf
  | purge storeNow => exact fun name h hheld => hf name h (InProcess.held_purge hheld)

theorem holdsUnsigned_run (hf : f.store.HoldsUnsigned) (hevents : ∀ e ∈ events, e.IsValid) :
    (f.run events).store.HoldsUnsigned := by
  induction events generalizing f with
  | nil => exact hf
  | cons e events ih =>
    obtain ⟨he, hrest⟩ := List.forall_mem_cons.mp hevents
    exact ih (holdsUnsigned_step hf he) hrest

/-- No run of visits brings a record with a sign into the store. -/
theorem holdsUnsigned_after (hf : f.store.HoldsUnsigned) (visits : List (Visit ι)) :
    (f.after visits).store.HoldsUnsigned := by
  rw [after_eq_run]
  refine holdsUnsigned_run hf fun e he => ?_
  obtain ⟨v, -, rfl⟩ := List.mem_map.mp he
  trivial

/-- Asking for the balance is asking for no tokens: the same failures, the same tokens left. -/
theorem visit_remaining (f : Fleet ι InProcess) (i : ι) (now storeNow : Instant) (key : String) :
    (f.visit ⟨i, now, storeNow, .remaining key⟩).1.failure? =
        (f.visit ⟨i, now, storeNow, .allow key 0⟩).1.failure? ∧
      (f.visit ⟨i, now, storeNow, .remaining key⟩).1.remaining? =
        (f.visit ⟨i, now, storeNow, .allow key 0⟩).1.remaining? := by
  simp only [visit, Limiter.perform, Limiter.remaining]
  cases ((f.limiters i).allow now storeNow key 0 f.store).1 with
  | error failure => exact ⟨rfl, rfl⟩
  | ok d => exact ⟨rfl, rfl⟩

/-- An answer blames no reply, and the tokens it says are left lie between zero and the capacity. -/
theorem answer_sound (hf : f.store.HoldsUnsigned) (v : Visit ι) :
    (∀ fault, (f.visit v).1.failure? ≠ some (.protocol fault)) ∧
      ∀ r ∈ (f.visit v).1.remaining?, 0 ≤ r ∧
        r ≤ saturateInt64 (Binary64.ofInt (f.limiters v.limiter).policy.capacity.toInt).truncate := by
  obtain ⟨i, now, storeNow, call⟩ := v
  have hallow (key : String) (n : Int64) :
      (∀ fault, (f.visit ⟨i, now, storeNow, .allow key n⟩).1.failure? ≠ some (.protocol fault)) ∧
        ∀ r ∈ (f.visit ⟨i, now, storeNow, .allow key n⟩).1.remaining?, 0 ≤ r ∧
          r ≤ saturateInt64 (Binary64.ofInt (f.limiters i).policy.capacity.toInt).truncate := by
    simp only [visit, Limiter.perform]
    rcases (f.limiters i).allow_sound now storeNow key n hf with
      ⟨failure, heq, hkind⟩ | ⟨d, heq, hbounds⟩
    · rw [heq]
      constructor
      · rintro fault ⟨⟩
        exact hkind rfl
      · rintro r ⟨⟩
    · rw [heq]
      constructor
      · rintro fault ⟨⟩
      · rintro r ⟨⟩
        exact hbounds
  cases call with
  | allow key n => exact hallow key n
  | remaining key =>
    rw [(f.visit_remaining i now storeNow key).1, (f.visit_remaining i now storeNow key).2]
    exact hallow key 0
  | record key =>
    constructor
    · intro fault hfault
      exact Limiter.record_failure (failureOf?_eq_some.mp hfault) rfl
    · rintro r ⟨⟩
  | reset key =>
    constructor
    · intro fault hfault
      exact Limiter.reset_failure (failureOf?_eq_some.mp hfault) rfl
    · rintro r ⟨⟩
  | close =>
    constructor
    · intro fault hfault
      simp only [visit, Limiter.perform, Limiter.close] at hfault
      split at hfault <;> cases hfault
    · rintro r ⟨⟩

/-- Whatever limiters have shared a store and whatever clocks they had: every record that the store
holds was written by one of the visits, and its balance is finite and lies between zero and the capacity
of the limiter that was visited; and no answer blames a reply or tells of tokens beyond these bounds. -/
theorem sound_after (limiters : ι → Limiter) (opened : Instant) (encoding : Encoding)
    (interval : Duration) (visits : List (Visit ι)) :
    let f := (Fleet.fresh limiters opened encoding interval).after
    (∀ key h, (f visits).store.buckets.get? key = some h →
      ∃ before v rest, visits = before ++ v :: rest ∧ (f before).Writes v key h ∧
        h.record.tokens.isFinite = true ∧ Binary64.zero ≤ h.record.tokens ∧
          h.record.tokens ≤ .ofInt (limiters v.limiter).policy.capacity.toInt) ∧
    ∀ v, (∀ fault, ((f visits).visit v).1.failure? ≠ some (.protocol fault)) ∧
      ∀ r ∈ ((f visits).visit v).1.remaining?, 0 ≤ r ∧
        r ≤ saturateInt64 (Binary64.ofInt (limiters v.limiter).policy.capacity.toInt).truncate := by
  intro f
  have hfresh : (Fleet.fresh limiters opened encoding interval).store.HoldsUnsigned :=
    InProcess.holdsUnsigned_open opened encoding interval
  have hpolicy (visits : List (Visit ι)) (v : Visit ι) :
      ((f visits).limiters v.limiter).policy = (limiters v.limiter).policy :=
    policy_after visits v.limiter
  constructor
  · intro key h hheld
    rcases held_after hheld with hold | ⟨before, v, rest, hvisits, hw⟩
    · cases hold
    · have hbalance := hw.isBalance (holdsUnsigned_after hfresh before)
      have hbounds := hbalance.bounds ((f before).limiters v.limiter).policy.one_le_capacity
      rw [hpolicy] at hbounds
      exact ⟨before, v, rest, hvisits, hw, hbounds⟩
  · intro v
    rw [← hpolicy visits v]
    exact answer_sound (holdsUnsigned_after hfresh visits) v

end Fleet

end TokenBucket
