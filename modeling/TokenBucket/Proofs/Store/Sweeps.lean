import TokenBucket.Proofs.Store.Ledger

/-!
# Sweeps come in time and not too often

A store in memory sweeps on the occasion of a request, and then not again until its interval has passed.
Both halves of this are promises: no record outlives its expiration by a whole interval as long as requests
keep coming, and the price of a sweep is paid once for each interval (`InProcess.swept_in_time`). A request
that sweeps drops what has expired, and one that does not drops nothing but, at most, the record that it is
about (`InProcess.get?_afterEvent_of_ne`).

What ties them together is the instant of the last sweep, or of the opening if there has been none
(`InProcess.SweptAt`). An interval later the next sweep is due, and nothing that is held has expired before
that instant: the sweep has dropped what had, and what is written later expires later still. Purges drop
records without moving the next sweep, so they do no harm to either half. At the end of the range the next
sweep stops at the latest instant, and from then on every request sweeps.

## Main definitions

* `InProcess.sweptBy?`, `InProcess.sweeps`: when a request sweeps, and all such instants of a run.
* `InProcess.SweptAt`: the last sweep was at an instant.

## Main results

* `InProcess.SweptAt.afterEvent`, `InProcess.SweptAt.run`: the instant of the last sweep along a run.
* `InProcess.sweep_eq_ite`, `InProcess.get?_afterEvent_of_ne`: what a request drops.
* `InProcess.nextSweepAt_le_of_mem_sweeps`, `InProcess.pairwise_sweeps`.
* `InProcess.swept_in_time`.
-/

namespace TokenBucket

/-- Some milliseconds later is not earlier. -/
theorem Instant.le_after (now : Instant) (millis : ℕ) : now ≤ now.after millis := by
  have hlatest : latestMillis = 2 ^ 63 - 1 := by decide
  have hlt := now.toInt_lt
  rw [Int64.le_iff_toInt_le, toInt_after]
  omega

/-- What is at least some milliseconds later is so by the clock, or it is the latest instant. -/
theorem Instant.le_sub_or_eq_latest {now later : Instant} {millis : ℕ} (h : now.after millis ≤ later) :
    (millis : ℤ) ≤ later.toInt - now.toInt ∨ later = latest := by
  have hlatest : latest.toInt = latestMillis := by decide
  have hlater := Int64.le_iff_toInt_le.mp (Int64.le_maxValue later)
  rw [Int64.le_iff_toInt_le, toInt_after] at h
  rcases min_le_iff.mp h with h | h
  · exact Or.inl (by omega)
  · exact Or.inr (Int64.toInt_inj.mp (le_antisymm hlater (hlatest ▸ h)))

namespace InProcess

variable {s s' : InProcess} {last now later : Instant} {request : Request} {e : StoreEvent}
  {events : List StoreEvent}

/-! ### When a request sweeps -/

/-- The instant at which an event sweeps: that of a request to an open store for which the time has
come. -/
def sweptBy? (s : InProcess) : StoreEvent → Option Instant
  | .asked now (.execute _) => if s.isClosed ∨ now < s.nextSweepAt then none else some now
  | _ => none

/-- The instants at which the requests of a run sweep, the first one first. -/
def sweeps (s : InProcess) : List StoreEvent → List Instant
  | [] => []
  | e :: events => (s.sweptBy? e).toList ++ (s.afterEvent e).sweeps events

/-- A sweep is set off by a request, to an open store, for which the time has come. -/
theorem sweptBy?_eq_some {t : Instant} (h : s.sweptBy? e = some t) :
    ∃ request, e = .asked t (.execute request) ∧ s.isClosed = false ∧ s.nextSweepAt ≤ t := by
  match e, h with
  | .asked now (.execute request), h =>
    simp only [sweptBy?] at h
    split at h
    · cases h
    · next hdue =>
      rw [not_or, Bool.not_eq_true] at hdue
      obtain rfl := Option.some.inj h
      exact ⟨request, rfl, hdue.1, Int64.not_lt.mp hdue.2⟩

theorem sweep_of_le (hdue : s.nextSweepAt ≤ now) :
    s.sweep now = { s.purge now with nextSweepAt := now.after s.sweepInterval } :=
  if_neg (Int64.not_lt.mpr hdue)

theorem sweep_of_sweptBy?_eq_none (hopen : s.isClosed = false)
    (h : s.sweptBy? (.asked now (.execute request)) = none) :
    now < s.nextSweepAt ∧ s.sweep now = s := by
  simp only [sweptBy?, hopen, Bool.false_eq_true, false_or] at h
  split at h
  · next hearly => exact ⟨hearly, if_pos hearly⟩
  · cases h

/-- A request to an open store drops what has expired and puts off the next sweep, or changes nothing
before its draw. -/
theorem sweep_eq_ite (hopen : s.isClosed = false) (now : Instant) (request : Request) :
    s.sweep now =
      if s.sweptBy? (.asked now (.execute request)) = none then s
      else { s.purge now with nextSweepAt := now.after s.sweepInterval } := by
  split
  · next hnone => exact (sweep_of_sweptBy?_eq_none hopen hnone).2
  · next hsome =>
    obtain ⟨t, hswept⟩ := Option.ne_none_iff_exists'.mp hsome
    obtain ⟨_, ⟨⟩, -, hdue⟩ := sweptBy?_eq_some hswept
    exact sweep_of_le hdue

/-- Of the records that it is not about, a request drops those that have expired if it sweeps, and none if
it does not. -/
theorem get?_afterEvent_of_ne (hopen : s.isClosed = false) {key : String} (hne : request.key ≠ key) :
    (s.afterEvent (.asked now (.execute request))).buckets.get? key =
      if s.sweptBy? (.asked now (.execute request)) = none then s.buckets.get? key
      else (s.buckets.get? key).filter (·.isLive now) := by
  change (s.execute now request).2.buckets.get? key = _
  rw [execute_eq hopen]
  change ((s.sweep now).step now request).2.buckets.get? key = _
  rw [get?_step_of_ne hne, sweep_eq_ite hopen now request]
  split
  · rfl
  · exact get?_purge

/-- Only a request moves the next sweep, and only if it sweeps. -/
theorem nextSweepAt_afterEvent (s : InProcess) (e : StoreEvent) :
    (s.afterEvent e).nextSweepAt =
      ((s.sweptBy? e).map (·.after s.sweepInterval)).getD s.nextSweepAt := by
  cases e with
  | purge now => rfl
  | asked now call =>
    cases call with
    | execute request =>
      change (s.execute now request).2.nextSweepAt = _
      cases hclosed : s.isClosed with
      | true => simp [execute_of_isClosed hclosed, sweptBy?, hclosed]
      | false =>
        rw [execute_eq hclosed]
        change (s.sweep now).nextSweepAt = _
        rw [sweep_eq_ite hclosed now request]
        cases hswept : s.sweptBy? (.asked now (.execute request)) with
        | none => rfl
        | some t =>
          obtain ⟨_, ⟨⟩, -⟩ := sweptBy?_eq_some hswept
          rfl
    | fetch key => exact congrArg nextSweepAt (fetch_snd now key s)
    | delete key =>
      change (s.delete now key).2.nextSweepAt = _
      rw [delete, whenOpen]
      split <;> rfl
    | close => rfl

theorem sweepInterval_afterEvent (s : InProcess) (e : StoreEvent) :
    (s.afterEvent e).sweepInterval = s.sweepInterval := by
  cases e with
  | purge now => rfl
  | asked now call =>
    cases call with
    | execute request =>
      change (s.execute now request).2.sweepInterval = _
      cases hclosed : s.isClosed with
      | true => rw [execute_of_isClosed hclosed]
      | false =>
        rw [execute_eq hclosed]
        change (s.sweep now).sweepInterval = _
        rw [sweep]
        split <;> rfl
    | fetch key => exact congrArg sweepInterval (fetch_snd now key s)
    | delete key =>
      change (s.delete now key).2.sweepInterval = _
      rw [delete, whenOpen]
      split <;> rfl
    | close => rfl

theorem sweepInterval_run (s : InProcess) (events : List StoreEvent) :
    (s.run events).sweepInterval = s.sweepInterval := by
  induction events generalizing s with
  | nil => rfl
  | cons e events ih => exact (ih (s.afterEvent e)).trans (s.sweepInterval_afterEvent e)

/-! ### Not too often -/

/-- The next sweep is never brought forward. -/
theorem nextSweepAt_le_afterEvent (s : InProcess) (e : StoreEvent) :
    s.nextSweepAt ≤ (s.afterEvent e).nextSweepAt := by
  rw [nextSweepAt_afterEvent]
  cases hswept : s.sweptBy? e with
  | none => exact Int64.le_refl _
  | some now =>
    obtain ⟨-, -, -, hdue⟩ := sweptBy?_eq_some hswept
    exact Int64.le_trans hdue (now.le_after s.sweepInterval)

/-- Along a run nothing is swept before it is time. -/
theorem nextSweepAt_le_of_mem_sweeps (h : now ∈ s.sweeps events) : s.nextSweepAt ≤ now := by
  induction events generalizing s with
  | nil => cases h
  | cons e events ih =>
    rcases List.mem_append.mp h with hhead | hrest
    · obtain ⟨-, -, -, hdue⟩ := sweptBy?_eq_some (Option.mem_toList.mp hhead)
      exact hdue
    · exact Int64.le_trans (s.nextSweepAt_le_afterEvent e) (ih hrest)

/-- Between two sweeps of a run the interval passes, unless the second is at the latest instant. -/
theorem pairwise_sweeps (s : InProcess) (events : List StoreEvent) :
    (s.sweeps events).Pairwise fun t t' =>
      (s.sweepInterval : ℤ) ≤ t'.toInt - t.toInt ∨ t' = Instant.latest := by
  induction events generalizing s with
  | nil => exact .nil
  | cons e events ih =>
    have hrest := ih (s.afterEvent e)
    rw [sweepInterval_afterEvent] at hrest
    rw [sweeps]
    cases hswept : s.sweptBy? e with
    | none => exact hrest
    | some t =>
      refine List.Pairwise.cons (fun t' ht' => Instant.le_sub_or_eq_latest ?_) hrest
      -- the sweep has put off the next one by the interval
      have hnext := nextSweepAt_le_of_mem_sweeps ht'
      rwa [nextSweepAt_afterEvent, hswept] at hnext

/-! ### In time -/

/-- The last sweep was at an instant, or else the store was opened then: the next sweep is due an interval
later, and no record that is held has expired before. -/
structure SweptAt (s : InProcess) (last : Instant) : Prop where
  nextSweepAt_eq : s.nextSweepAt = last.after s.sweepInterval
  le_expiresAt : ∀ key h, s.buckets.get? key = some h → last ≤ h.expiresAt

theorem sweptAt_open (opened : Instant) (encoding : Encoding) (interval : Duration) :
    (InProcess.open opened encoding interval).SweptAt opened where
  nextSweepAt_eq := rfl
  le_expiresAt := by rintro key h ⟨⟩

/-- A record does not expire before it is written. -/
theorem le_deadline (now : Instant) (request : Request) : now ≤ deadline now request :=
  now.le_after (min request.ttl.toNat Instant.latestMillis)

/-- What is held after an event was held before it and outlasts what the event has swept, or it has just
been written. -/
theorem held_afterEvent {key : String} {h : Held} (hheld : (s.afterEvent e).buckets.get? key = some h) :
    (s.buckets.get? key = some h ∧ ∀ t ∈ s.sweptBy? e, t ≤ h.expiresAt) ∨
      e.instant ≤ h.expiresAt := by
  cases e with
  | purge now => exact Or.inl ⟨held_purge hheld, by rintro t ⟨⟩⟩
  | asked now call =>
    cases call with
    | execute request =>
      change (s.execute now request).2.buckets.get? key = some h at hheld
      cases hclosed : s.isClosed with
      | true =>
        rw [execute_of_isClosed hclosed] at hheld
        exact Or.inl ⟨hheld, by simp [sweptBy?, hclosed]⟩
      | false =>
        rw [execute_eq hclosed] at hheld
        rcases held_step hheld with hold | ⟨-, r, -, rfl⟩
        · refine Or.inl ⟨held_sweep hold, fun t ht => ?_⟩
          obtain ⟨_, ⟨⟩, -, hdue⟩ := sweptBy?_eq_some ht
          rw [sweep_of_le hdue] at hold
          -- the sweep has kept what is still live
          have hlive := (Option.filter_eq_some_iff.mp (get?_purge.symm.trans hold)).2
          exact Int64.le_of_lt (of_decide_eq_true hlive)
        · exact Or.inr (le_deadline now request)
    | fetch name =>
      change (s.fetch now name).2.buckets.get? key = some h at hheld
      rw [fetch_snd] at hheld
      exact Or.inl ⟨hheld, by rintro t ⟨⟩⟩
    | delete name => exact Or.inl ⟨held_delete hheld, by rintro t ⟨⟩⟩
    | close => exact Or.inl ⟨hheld, by rintro t ⟨⟩⟩

/-- The last sweep is the one of the event, or the one before it. -/
theorem SweptAt.afterEvent (h : s.SweptAt last) (hle : last ≤ e.instant) :
    (s.afterEvent e).SweptAt ((s.sweptBy? e).getD last) ∧ (s.sweptBy? e).getD last ≤ e.instant := by
  have hswept : (s.sweptBy? e).getD last ≤ e.instant := by
    cases hs : s.sweptBy? e with
    | none => exact hle
    | some t =>
      obtain ⟨_, rfl, -⟩ := sweptBy?_eq_some hs
      exact Int64.le_refl t
  refine ⟨⟨?_, ?_⟩, hswept⟩
  · rw [nextSweepAt_afterEvent, sweepInterval_afterEvent]
    cases s.sweptBy? e with
    | none => exact h.nextSweepAt_eq
    | some t => rfl
  · intro key held hheld
    rcases held_afterEvent hheld with ⟨hold, hkept⟩ | hnew
    · cases hs : s.sweptBy? e with
      | none => exact h.le_expiresAt key held hold
      | some t => exact hkept t hs
    · exact Int64.le_trans hswept hnew

/-- Along a run on a clock that does not run backwards there is a last sweep, which is not later than
whatever follows the run. -/
theorem SweptAt.run (h : s.SweptAt last) (hfrom : ∀ e ∈ events, last ≤ e.instant)
    (hto : ∀ e ∈ events, e.instant ≤ later) (hle : last ≤ later)
    (hclock : events.Pairwise fun e e' => e.instant ≤ e'.instant) :
    ∃ last', (s.run events).SweptAt last' ∧ last' ≤ later := by
  induction events generalizing s last with
  | nil => exact ⟨last, h, hle⟩
  | cons e events ih =>
    obtain ⟨hfirst, -⟩ := List.forall_mem_cons.mp hfrom
    obtain ⟨hlater, htoRest⟩ := List.forall_mem_cons.mp hto
    obtain ⟨hfromRest, hclockRest⟩ := List.pairwise_cons.mp hclock
    obtain ⟨hafter, hswept⟩ := h.afterEvent hfirst
    exact ih hafter (fun e' he' => Int64.le_trans hswept (hfromRest e' he')) htoRest
      (Int64.le_trans hswept hlater) hclockRest

/-- Before an event of a run there is a last sweep, or else the opening of the store. -/
theorem exists_sweptAt {opened : Instant} {before rest : List StoreEvent} (encoding : Encoding)
    (interval : Duration) (hfrom : ∀ e' ∈ before ++ e :: rest, opened ≤ e'.instant)
    (hclock : (before ++ e :: rest).Pairwise fun e e' => e.instant ≤ e'.instant) :
    ∃ last, ((InProcess.open opened encoding interval).run before).SweptAt last ∧ last ≤ e.instant := by
  obtain ⟨hfromBefore, hfromRest⟩ := List.forall_mem_append.mp hfrom
  obtain ⟨hclockBefore, -, hcross⟩ := List.pairwise_append.mp hclock
  exact (sweptAt_open opened encoding interval).run hfromBefore
    (fun e' he' => hcross e' he' e List.mem_cons_self) (hfromRest e List.mem_cons_self) hclockBefore

/-- After a request nothing is held that has expired an interval ago. -/
theorem SweptAt.lt_expiresAt (h : s.SweptAt last) (hopen : s.isClosed = false) (hle : last ≤ now)
    (hinterval : 0 < s.sweepInterval) {key : String} {held : Held}
    (hheld : (s.afterEvent (.asked now (.execute request))).buckets.get? key = some held) :
    now.toInt - s.sweepInterval < held.expiresAt.toInt := by
  obtain ⟨hafter, -⟩ := h.afterEvent (e := .asked now (.execute request)) hle
  have hexpires := Int64.le_iff_toInt_le.mp (hafter.le_expiresAt key held hheld)
  cases hswept : s.sweptBy? (.asked now (.execute request)) with
  | some t =>
    obtain ⟨_, ⟨⟩, -⟩ := sweptBy?_eq_some hswept
    rw [hswept, Option.getD_some] at hexpires
    omega
  | none =>
    -- the next sweep is not due yet, so the last one is less than an interval ago
    obtain ⟨hearly, -⟩ := sweep_of_sweptBy?_eq_none hopen hswept
    rw [h.nextSweepAt_eq, Int64.lt_iff_toInt_lt, Instant.toInt_after] at hearly
    rw [hswept, Option.getD_none] at hexpires
    omega

/-- The interval of a store has the milliseconds that it was opened with, but at least one, and no more than
64 bits hold. -/
theorem intervalMillis_eq (interval : Duration) :
    intervalMillis interval = min (max 1 interval.millis) (2 ^ 63 - 1) := by
  have hlatest : Instant.latestMillis = 2 ^ 63 - 1 := by decide
  rw [intervalMillis]
  omega

theorem intervalMillis_pos (interval : Duration) : 0 < intervalMillis interval :=
  Nat.lt_of_lt_of_le Nat.zero_lt_one (Nat.le_max_left 1 _)

/-- A store whose answer to a request is no failure is open. -/
theorem isClosed_of_execute_eq_ok {reply : Reply} (h : (s.execute now request).1 = .ok reply) :
    s.isClosed = false := by
  by_contra hclosed
  rw [execute_of_isClosed (eq_true_of_ne_false hclosed)] at h
  cases h

/-- In a store in memory whose clock does not run backwards, after a request that is answered nothing is
held that has expired an interval before, or even earlier. And between two requests that sweep at least the
interval passes, unless the later one comes at the latest instant. That is all the sweeping there is: a
request that is not among them finds the store as it is and leaves every record but its own, and one that is
among them first drops all that has expired and puts off the next sweep by the interval. -/
theorem swept_in_time (opened : Instant) (encoding : Encoding) (interval : Duration)
    (events : List StoreEvent) (hfrom : ∀ e ∈ events, opened ≤ e.instant)
    (hclock : events.Pairwise fun e e' => e.instant ≤ e'.instant) :
    let s := InProcess.open opened encoding interval
    let pause := min (max 1 interval.millis) (2 ^ 63 - 1)
    (∀ (before : List StoreEvent) (now : Instant) (request : Request) (rest : List StoreEvent),
      events = before ++ .asked now (.execute request) :: rest →
      ∀ reply, ((s.run before).execute now request).1 = .ok reply →
      ∀ key held, (s.run (before ++ [.asked now (.execute request)])).buckets.get? key = some held →
        now.toInt - pause < held.expiresAt.toInt) ∧
    ((s.sweeps events).Pairwise fun t t' =>
      (pause : ℤ) ≤ t'.toInt - t.toInt ∨ t' = Instant.latest) ∧
    ∀ (before : List StoreEvent) (now : Instant) (request : Request),
      (s.run before).isClosed = false →
      let e := StoreEvent.asked now (.execute request)
      let found := s.run before
      let left := s.run (before ++ [e])
      (found.sweptBy? e = none → found.sweep now = found ∧
        ∀ key, request.key ≠ key → left.buckets.get? key = found.buckets.get? key) ∧
      (found.sweptBy? e = some now →
        found.sweep now = { found.purge now with nextSweepAt := now.after pause } ∧
        ∀ key, request.key ≠ key →
          left.buckets.get? key = (found.buckets.get? key).filter (·.isLive now)) := by
  intro s pause
  have hinterval (before : List StoreEvent) : (s.run before).sweepInterval = pause :=
    (s.sweepInterval_run before).trans (intervalMillis_eq interval)
  refine ⟨?_, ?_, ?_⟩
  · intro before now request rest hevents reply hreply key held hheld
    obtain ⟨last, hswept, hle⟩ := exists_sweptAt encoding interval (hevents ▸ hfrom) (hevents ▸ hclock)
    have hpos : 0 < (s.run before).sweepInterval := by
      rw [s.sweepInterval_run before]
      exact intervalMillis_pos interval
    rw [run, List.foldl_append] at hheld
    rw [← hinterval before]
    exact hswept.lt_expiresAt (isClosed_of_execute_eq_ok hreply) hle hpos hheld
  · have hpairwise := s.pairwise_sweeps events
    rwa [show s.sweepInterval = pause from hinterval []] at hpairwise
  · intro before now request hopen e found left
    have hsweep := sweep_eq_ite hopen now request
    have hrun : left = found.afterEvent e := List.foldl_append
    have hleft {key : String} (hne : request.key ≠ key) : left.buckets.get? key =
        if found.sweptBy? e = none then found.buckets.get? key
        else (found.buckets.get? key).filter (·.isLive now) := by
      rw [hrun]
      exact get?_afterEvent_of_ne hopen hne
    rw [hinterval before] at hsweep
    constructor
    · intro hnone
      rw [hsweep, if_pos hnone]
      exact ⟨rfl, fun key hne => (hleft hne).trans (if_pos hnone)⟩
    · intro hsome
      have hnot : ¬ found.sweptBy? e = none := by
        rw [hsome]
        exact Option.some_ne_none now
      rw [hsweep, if_neg hnot]
      exact ⟨rfl, fun key hne => (hleft hne).trans (if_neg hnot)⟩

/-- A store that is opened eight milliseconds before the latest instant and sweeps every five. After the
first sweep the next one cannot be put off by the whole interval any more, and each request of the last
instant sweeps. A record that has expired as soon as it was written is left alone by the request that does
not sweep, and dropped by the next one that does. -/
theorem swept_in_time_saturated :
    let latest := Instant.latest
    let draw (now : Instant) (key : String) : StoreEvent :=
      .asked now (.execute { KeySpace.standard.request .standard key now 1 with ttl := 0 })
    let before := [draw (latest - 6) "a", draw (latest - 3) "b"]
    let late := before ++ [draw (latest - 1) "c"]
    let events := late ++ [.purge latest, draw latest "d", draw latest "e"]
    let s := InProcess.open (latest - 8) .flag (.ofMillis 5)
    let b := KeySpace.standard.storeKey "b"
    (∀ e ∈ events, latest - 8 ≤ e.instant) ∧
      events.Pairwise (fun e e' => e.instant ≤ e'.instant) ∧
      s.sweeps events = [latest - 3, latest, latest] ∧
      (∀ key held, (s.run late).buckets.get? key = some held →
        (latest - 1).toInt - 5 < held.expiresAt.toInt) ∧
      ((s.sweeps events).Pairwise fun t t' => (5 : ℤ) ≤ t'.toInt - t.toInt ∨ t' = latest) ∧
      (s.run before).buckets.get? b ≠ none ∧
      (s.run late).buckets.get? b = (s.run before).buckets.get? b ∧
      (s.run (late ++ [draw latest "d"])).buckets.get? b = none := by
  intro latest draw before late events s b
  have hfrom : ∀ e ∈ events, latest - 8 ≤ e.instant := by decide
  have hclock : events.Pairwise fun e e' => e.instant ≤ e'.instant := by decide
  obtain ⟨hheld, hpairwise, hdropped⟩ :=
    swept_in_time (latest - 8) .flag (.ofMillis 5) events hfrom hclock
  have hopen : (s.run before).isClosed = false := by decide +kernel
  have hkept : (s.run late).buckets.get? b = (s.run before).buckets.get? b :=
    ((hdropped before (latest - 1) _ hopen).1 (by decide +kernel)).2 b (by decide)
  have hgone : (s.run (late ++ [draw latest "d"])).buckets.get? b = none := by
    rw [((hdropped late latest _ (by decide +kernel)).2 (by decide +kernel)).2 b (by decide)]
    decide +kernel
  exact ⟨hfrom, hclock, by decide +kernel,
    hheld before (latest - 1) _ _ rfl _ (congrArg Prod.fst (execute_eq hopen)), hpairwise,
    by decide +kernel, hkept, hgone⟩

end InProcess

end TokenBucket
