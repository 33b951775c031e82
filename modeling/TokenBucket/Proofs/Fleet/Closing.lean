import TokenBucket.Proofs.Fleet.Asked
import TokenBucket.Proofs.Fleet.Soundness

/-!
# Failed calls and closed stores

A call that fails has changed nothing. Most calls fail before the store hears of them, or because the store
is closed and does nothing any more. A request is carried out before its reply is read, so a reply that
made no sense would come too late; but over records without a sign every reply makes sense
(`Limiter.allow_eq`), and such are all records as long as every request is a valid one.

Closing is told in two places. A limiter remembers that it was closed itself, and the store, which all of
them share, that any of them was. A limiter is closed only together with its store (`Fleet.ClosesTogether`),
and no store is opened again; so once one limiter has been closed, or the store past all of them, every
later call fails, and a call with a fault of its own for that fault (`Limiter.failure?_perform_of_isClosed`).

## Main definitions

* `Call.fault?`, `Call.failureOnceClosed`: how a call fails if nothing can be asked any more.
* `Fleet.ClosesTogether`: where a limiter is closed the store is.
* `Event.Closes`.

## Main results

* `Fleet.visit_of_failure`: a visit that fails leaves everything as it was.
* `Fleet.ClosesTogether.closed_visit`, `Fleet.ClosesTogether.foldl`: what closes a store, in a visit and in
  any run.
* `Fleet.closed_for_good`.
-/

namespace TokenBucket

/-! ### Faults of calls -/

/-- What is wrong with the arguments of a call, if anything is. -/
def Call.fault? : Call → Option ArgumentFault
  | .allow key n =>
    if n < 0 then some (.negativeCount n) else if key = "" then some .emptyKey else none
  | .remaining key => if key = "" then some .emptyKey else none
  | .record key => if key = "" then some .emptyKey else none
  | .reset key => if key = "" then some .emptyKey else none
  | .close => none

/-- How a call fails if nothing can be asked any more: for a fault of its own if it has one, and else
because its limiter is closed or, if that is still open, the store. -/
def Call.failureOnceClosed (limiterIsClosed : Bool) (call : Call) : Failure :=
  match call.fault? with
  | some fault => .invalidArgument fault
  | none => .storeUnavailable (if limiterIsClosed then .limiterClosed else .inProcessClosed)

/-! ### Who is told to close -/

theorem StoreCall.key?_eq_none_iff {call : StoreCall} : call.key? = none ↔ call = .close := by
  cases call <;> simp [key?]

theorem Call.key?_eq_none_iff {call : Call} : call.key? = none ↔ call = .close := by
  cases call <;> simp [key?]

/-- A store is closed after a call if it was before, or if this is what it was told to do. -/
theorem InProcess.isClosed_perform {now : Instant} {s : InProcess} {call : StoreCall} :
    (call.perform now s).isClosed = true ↔ s.isClosed = true ∨ call = .close := by
  have hkept {s' : InProcess} (hs : s'.isClosed = s.isClosed) (hcall : call ≠ .close) :
      s'.isClosed = true ↔ s.isClosed = true ∨ call = .close := by
    rw [hs, or_iff_left hcall]
  cases call with
  | execute request => exact hkept execute_isClosed (by simp)
  | fetch key => exact hkept (congrArg isClosed (fetch_snd now key s)) (by simp)
  | delete key => exact hkept delete_isClosed (by simp)
  | close => exact iff_of_true rfl (Or.inr rfl)

namespace Limiter

variable {l : Limiter} {now storeNow : Instant} {key : String} {n : Int64} {call : Call} {s : InProcess}

/-- A limiter tells its store to close only where it is told so itself. -/
theorem eq_close_iff_of_asks? {c : StoreCall} (h : l.asks? now call = some c) :
    c = .close ↔ call = .close := by
  rw [← StoreCall.key?_eq_none_iff, key?_of_asks? h, Option.map_eq_none_iff, Call.key?_eq_none_iff]

/-- For a close nothing is asked where the limiter is closed already. -/
theorem isClosed_of_asks?_close (h : l.asks? now .close = none) : l.isClosed = true := by
  rw [asks?] at h
  split at h
  · assumption
  · cases h

/-! ### Calls that are refused -/

/-- A key has a store key unless it is empty or, if it is not, the limiter is closed. -/
theorem storeKey_eq (l : Limiter) (key : String) :
    l.storeKey key =
      match (Call.record key).fault? with
      | some fault => .error (.invalidArgument fault)
      | none =>
        if l.isClosed then .error (.storeUnavailable .limiterClosed) else .ok (l.keys.storeKey key) := by
  rw [storeKey, Call.fault?]
  by_cases hkey : key = "" <;> simp [hkey]

/-- A call for tokens is refused for a fault of its own, and else if the limiter is closed. -/
theorem request_eq (l : Limiter) (now : Instant) (key : String) (n : Int64) :
    l.request now key n =
      match (Call.allow key n).fault? with
      | some fault => .error (.invalidArgument fault)
      | none =>
        if l.isClosed then .error (.storeUnavailable .limiterClosed)
        else .ok (l.keys.request l.policy key now n) := by
  rw [request, Call.fault?]
  by_cases hn : n < 0
  · simp [hn]
  · by_cases hkey : key = ""
    · simp [hn, hkey, storeKey, Except.map]
    · by_cases hclosed : l.isClosed <;> simp [hn, hkey, hclosed, storeKey, Except.map]

/-! ### Calls that fail -/

/-- Where a call for tokens fails, it leaves the store as it was. -/
theorem allow_snd_of_error (hs : s.HoldsUnsigned) {failure : Failure}
    (h : (l.allow now storeNow key n s).1 = .error failure) : (l.allow now storeNow key n s).2 = s := by
  cases hrequest : l.request now key n with
  | error refusal => rw [allow_of_error hrequest]
  | ok request =>
    cases hclosed : s.isClosed with
    | true => rw [allow_of_isClosed hclosed hrequest]
    | false =>
      -- the request has been carried out, and its reply is understood
      rw [allow_eq hs.live? hclosed hrequest] at h
      cases h

/-- Asking for a record leaves the store as it was. -/
theorem record_snd : (l.record storeNow key s).2 = s := by
  rw [record]
  cases l.storeKey key with
  | error failure => rfl
  | ok storeKey => exact InProcess.fetch_snd _ _ _

/-- Where a reset fails, it leaves the store as it was. -/
theorem reset_snd_of_error {failure : Failure} (h : (l.reset storeNow key s).1 = .error failure) :
    (l.reset storeNow key s).2 = s := by
  rw [reset] at h ⊢
  cases hkey : l.storeKey key with
  | error refusal => rfl
  | ok storeKey =>
    rw [hkey] at h
    change (s.delete storeNow storeKey).1 = .error failure at h
    change (s.delete storeNow storeKey).2 = s
    cases hclosed : s.isClosed with
    | true => rw [InProcess.delete_of_isClosed hclosed]
    | false =>
      rw [InProcess.delete_eq hclosed] at h
      cases h

/-! ### Calls on a closed store -/

theorem allow_fst_of_isClosed (hclosed : s.isClosed = true) :
    (l.allow now storeNow key n s).1 =
      .error ((Call.allow key n).failureOnceClosed l.isClosed) := by
  have hrequest := l.request_eq now key n
  rw [Call.failureOnceClosed]
  cases hfault : (Call.allow key n).fault? with
  | some fault =>
    rw [hfault] at hrequest
    rw [allow_of_error hrequest]
  | none =>
    rw [hfault] at hrequest
    cases hopen : l.isClosed with
    | true =>
      rw [hopen, if_pos rfl] at hrequest
      rw [allow_of_error hrequest, if_pos rfl]
    | false =>
      rw [hopen, if_neg Bool.false_ne_true] at hrequest
      rw [allow_of_isClosed hclosed hrequest, if_neg Bool.false_ne_true]

theorem record_fst_of_isClosed (hclosed : s.isClosed = true) :
    (l.record storeNow key s).1 = .error ((Call.record key).failureOnceClosed l.isClosed) := by
  rw [record, storeKey_eq, Call.failureOnceClosed]
  cases (Call.record key).fault? with
  | some fault => rfl
  | none =>
    cases l.isClosed with
    | true => rfl
    | false => exact congrArg Prod.fst (if_pos hclosed)

theorem reset_fst_of_isClosed (hclosed : s.isClosed = true) :
    (l.reset storeNow key s).1 = .error ((Call.reset key).failureOnceClosed l.isClosed) := by
  rw [reset, storeKey_eq, show (Call.record key).fault? = (Call.reset key).fault? from rfl,
    Call.failureOnceClosed]
  cases (Call.reset key).fault? with
  | some fault => rfl
  | none =>
    cases l.isClosed with
    | true => rfl
    | false => exact congrArg Prod.fst (if_pos hclosed)

/-- On a closed store every call fails but a close. -/
theorem failure?_perform_of_isClosed (hclosed : s.isClosed = true) (hcall : call ≠ .close) :
    (l.perform now storeNow call s).1.failure? = some (call.failureOnceClosed l.isClosed) := by
  cases call with
  | allow key n => exact failureOf?_eq_some.mpr (allow_fst_of_isClosed hclosed)
  | remaining key =>
    refine failureOf?_eq_some.mpr ?_
    change Except.map _ (l.allow now storeNow key 0 s).1 = _
    rw [allow_fst_of_isClosed hclosed]
    rfl
  | record key => exact failureOf?_eq_some.mpr (record_fst_of_isClosed hclosed)
  | reset key => exact failureOf?_eq_some.mpr (reset_fst_of_isClosed hclosed)
  | close => exact absurd rfl hcall

end Limiter

/-! ### Visits -/

namespace Fleet

variable {ι : Type} [DecidableEq ι] {f : Fleet ι InProcess} {v : Visit ι} {i : ι}

/-- Asking for the balance does to a fleet what asking for no tokens does. -/
theorem visit_remaining_snd (f : Fleet ι InProcess) (i : ι) (now storeNow : Instant) (key : String) :
    (f.visit ⟨i, now, storeNow, .remaining key⟩).2 = (f.visit ⟨i, now, storeNow, .allow key 0⟩).2 := rfl

/-- A visit that fails leaves everything as it was. -/
theorem visit_of_failure (hf : f.store.HoldsUnsigned) {failure : Failure}
    (h : (f.visit v).1.failure? = some failure) : (f.visit v).2 = f := by
  obtain ⟨i, now, storeNow, call⟩ := v
  have hallow {key : String} {n : Int64}
      (h : (f.visit ⟨i, now, storeNow, .allow key n⟩).1.failure? = some failure) :
      (f.visit ⟨i, now, storeNow, .allow key n⟩).2 = f := by
    rw [visit_allow] at h ⊢
    rw [Limiter.allow_snd_of_error hf (failureOf?_eq_some.mp h)]
  cases call with
  | allow key n => exact hallow h
  | remaining key =>
    rw [(f.visit_remaining i now storeNow key).1] at h
    rw [visit_remaining_snd]
    exact hallow h
  | record key => simp only [visit, Limiter.perform, Limiter.record_snd, Function.update_eq_self]
  | reset key =>
    have herror := failureOf?_eq_some.mp h
    simp only [visit, Limiter.perform, Limiter.reset_snd_of_error herror, Function.update_eq_self]
  | close =>
    simp only [visit, Limiter.perform, Limiter.close] at h
    split at h <;> cases h

/-- A close succeeds, and touches neither the records nor the time of the next sweep. -/
theorem visit_of_close (f : Fleet ι InProcess) (hcall : v.call = .close) :
    (f.visit v).1 = .closed (.ok ()) ∧ (f.visit v).2.store.buckets = f.store.buckets ∧
      (f.visit v).2.store.nextSweepAt = f.store.nextSweepAt := by
  simp only [visit, hcall, Limiter.perform, Limiter.close]
  split <;> exact ⟨rfl, rfl, rfl⟩

end Fleet

/-! ### Limiters that close together with their store -/

namespace Fleet

variable {ι σ ε : Type} {closed : σ → Bool} {f : Fleet ι σ}

/-- Where a limiter is closed its store is; `closed` tells which stores are. -/
def ClosesTogether (closed : σ → Bool) (f : Fleet ι σ) : Prop :=
  ∀ i, (f.limiters i).isClosed = true → closed f.store = true

variable [DecidableEq ι]

namespace ClosesTogether

/-- A visit closes the store if it is a close, provided that the store closes when it is told so and not
otherwise. -/
theorem closed_visit [BucketStore σ]
    (hperform : ∀ (call : StoreCall) now s,
      closed (call.perform now s) = true ↔ closed s = true ∨ call = .close)
    (hf : f.ClosesTogether closed) (v : Visit ι) :
    closed (f.visit v).2.store = true ↔ closed f.store = true ∨ v.call = .close := by
  rw [store_visit_eq]
  cases hasks : (f.limiters v.limiter).asks? v.now v.call with
  | some c => rw [Option.elim_some, hperform, Limiter.eq_close_iff_of_asks? hasks]
  | none =>
    -- nothing is asked for a close where the limiter is closed, and the store with it
    refine ⟨Or.inl, ?_⟩
    rintro (hclosed | hcall)
    · exact hclosed
    · exact hf v.limiter (Limiter.isClosed_of_asks?_close (hcall ▸ hasks))

/-- Whatever can happen to limiters and their store, they close together and the store is closed by what is
a close, if the visits to limiters are among it and each single thing closes the store only as a close. -/
theorem foldl {step : Fleet ι σ → ε → Fleet ι σ} {visit? : ε → Option (Visit ι)} {closes : ε → Prop}
    (hlimiters : ∀ f e, (step f e).limiters = limitersAfter f.limiters (visit? e).toList)
    (hvisit : ∀ e, ∀ v ∈ visit? e, v.call = .close → closes e)
    (hstore : ∀ f e, f.ClosesTogether closed →
      (closed (step f e).store = true ↔ closed f.store = true ∨ closes e))
    (hf : f.ClosesTogether closed) (events : List ε) :
    (events.foldl step f).ClosesTogether closed ∧
      (closed (events.foldl step f).store = true ↔
        closed f.store = true ∨ ∃ e ∈ events, closes e) := by
  induction events generalizing f with
  | nil => simpa using hf
  | cons e events ih =>
    have hstep : (step f e).ClosesTogether closed := by
      intro i hi
      rw [hlimiters, isClosed_limitersAfter] at hi
      rw [hstore f e hf]
      rcases hi with hi | ⟨v, hv, -, hcall⟩
      · exact Or.inl (hf i hi)
      · exact Or.inr (hvisit e v (Option.mem_toList.mp hv) hcall)
    obtain ⟨htogether, hclosed⟩ := ih hstep
    refine ⟨htogether, ?_⟩
    rw [List.foldl_cons, hclosed, hstore f e hf, or_assoc, List.exists_mem_cons_iff]

end ClosesTogether

end Fleet

/-! ### Runs -/

/-- The event closes a limiter, or the store past all of them. -/
def Event.Closes {ι : Type} : Event ι → Prop
  | .visit v => v.call = .close
  | .direct _ call => call = .close
  | .purge _ => False

namespace Fleet

variable {ι : Type} [DecidableEq ι] {f : Fleet ι InProcess} {e : Event ι} {events : List (Event ι)} {i : ι}

/-- The store is closed after an event if it was before, or if the event is a close. -/
theorem store_isClosed_step (hf : f.ClosesTogether InProcess.isClosed) (e : Event ι) :
    (f.step e).store.isClosed = true ↔ f.store.isClosed = true ∨ e.Closes := by
  cases e with
  | visit v => exact hf.closed_visit (fun _ _ _ => InProcess.isClosed_perform) v
  | direct storeNow call => exact InProcess.isClosed_perform
  | purge storeNow => exact (or_iff_left id).symm

/-- The store is closed after a run if it was before, or if one of the events is a close. -/
theorem store_isClosed_run (hf : f.ClosesTogether InProcess.isClosed) :
    (f.run events).store.isClosed = true ↔
      f.store.isClosed = true ∨ ∃ e ∈ events, e.Closes := by
  refine (hf.foldl limiters_step ?_ (fun f e hf => store_isClosed_step hf e) events).2
  rintro (v | _ | _) w hw hcall
  · obtain rfl := Option.some.inj hw
    exact hcall
  · cases hw
  · cases hw

/-- Whatever limiters have shared a store, and whatever has happened to them: a call that fails changes
nothing, neither a record nor its expiration nor the time of the next sweep. As soon as one limiter has been
closed, or the store past all of them, every call fails, for a fault of its own or for being too late. A
close succeeds and leaves the records and the time of the next sweep alone, and the limiters that are closed
are those that have been closed themselves. -/
theorem closed_for_good (policies : ι → Policy) (spaces : ι → KeySpace) (opened : Instant)
    (encoding : Encoding) (interval : Duration) (hevents : ∀ e ∈ events, e.IsValid) :
    let f := (Fleet.fresh (fun i => Limiter.new (policies i) (spaces i)) opened encoding interval).run
      events
    (∀ v failure, (f.visit v).1.failure? = some failure → (f.visit v).2 = f) ∧
    ((∃ e ∈ events, e.Closes) → ∀ v, v.call ≠ .close →
      (f.visit v).1.failure? = some (v.call.failureOnceClosed (f.limiters v.limiter).isClosed)) ∧
    (∀ v, v.call = .close → (f.visit v).1 = .closed (.ok ()) ∧
      (f.visit v).2.store.buckets = f.store.buckets ∧
      (f.visit v).2.store.nextSweepAt = f.store.nextSweepAt) ∧
    ∀ i, (f.limiters i).isClosed = true ↔
      ∃ v, .visit v ∈ events ∧ v.limiter = i ∧ v.call = .close := by
  intro f
  have hunsigned : f.store.HoldsUnsigned :=
    holdsUnsigned_run (InProcess.holdsUnsigned_open opened encoding interval) hevents
  have htogether : (Fleet.fresh (fun i => Limiter.new (policies i) (spaces i)) opened encoding
      interval).ClosesTogether InProcess.isClosed := by
    rintro i ⟨⟩
  refine ⟨fun v failure => visit_of_failure hunsigned, ?_, fun v => visit_of_close f, ?_⟩
  · intro hcloses v hcall
    have hclosed : f.store.isClosed = true := (store_isClosed_run htogether).mpr (Or.inr hcloses)
    exact Limiter.failure?_perform_of_isClosed hclosed hcall
  · intro i
    rw [limiters_run, isClosed_limitersAfter]
    refine (or_iff_right Bool.false_ne_true).trans (exists_congr fun v => and_congr_left' ?_)
    exact Event.mem_visits

/-- Two limiters of which the second is closed after the first has drawn. A later call of the first finds
the store closed, and leaves the record of the draw where it is. -/
theorem closed_for_good_second_limiter :
    let events : List (Event (Fin 2)) := [.visit ⟨0, 0, 0, .allow "k" 5⟩, .visit ⟨1, 0, 0, .close⟩]
    let f := (Fleet.fresh (fun _ => Limiter.new .standard .standard) 0 .flag ⟨0⟩).run events
    let late : Visit (Fin 2) := ⟨0, 100, 100, .allow "k" 1⟩
    (∀ e ∈ events, e.IsValid) ∧ (∃ e ∈ events, e.Closes) ∧
      (f.visit late).1.failure? = some (.storeUnavailable .inProcessClosed) ∧ (f.visit late).2 = f ∧
      (f.limiters 0).isClosed = false ∧ (f.limiters 1).isClosed = true := by
  intro events f late
  have hvalid : ∀ e ∈ events, e.IsValid := by
    intro e he
    rcases List.mem_cons.mp he with rfl | he
    · trivial
    · obtain rfl := List.mem_singleton.mp he
      trivial
  have hcloses : ∃ e ∈ events, e.Closes :=
    ⟨_, List.mem_cons_of_mem _ (List.mem_singleton.mpr rfl), rfl⟩
  obtain ⟨hunchanged, hfails, -, hclosed⟩ :=
    closed_for_good (fun _ => .standard) (fun _ => .standard) 0 .flag ⟨0⟩ hvalid
  have hopen : (f.limiters 0).isClosed = false := by
    rw [← Bool.not_eq_true, hclosed 0]
    simp [events]
  have hfailure : (f.visit late).1.failure? = some (.storeUnavailable .inProcessClosed) := by
    have hlate := hfails hcloses late (by decide)
    rwa [show (f.limiters late.limiter).isClosed = false from hopen] at hlate
  have hsecond : (f.limiters 1).isClosed = true := (hclosed 1).mpr ⟨⟨1, 0, 0, .close⟩, by simp [events]⟩
  exact ⟨hvalid, hcloses, hfailure, hunchanged late _ hfailure, hopen, hsecond⟩

end Fleet

end TokenBucket
