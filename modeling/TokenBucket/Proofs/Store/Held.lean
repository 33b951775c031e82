import TokenBucket.Store.InProcess
import Mathlib.Tactic.Common

/-!
# What a store in memory holds

Two views of a store in memory. `buckets.get?` is what it holds, expired records included; every
operation leaves an entry alone, drops it, or replaces it by what a settled draw has written
(`InProcess.held_execute`). `InProcess.live?` is what it answers from: an entry that has not expired.
Seen from the present on, the second view does not notice purges and sweeps
(`InProcess.live?_purge`, `InProcess.live?_sweep`), and a request changes it for its own key only, by
the record that its settlement leaves (`InProcess.live?_execute`).

## Main definitions

* `InProcess.deadline`: when a record written now expires.
* `InProcess.Untouched`: nothing has happened to a key.

## Main results

* `InProcess.execute_eq`: a request is settled against the live record of its key.
* `InProcess.held_execute`, `InProcess.live?_execute`.
* `InProcess.untouched_execute`, `InProcess.untouched_purge`, `InProcess.untouched_delete`.
-/

namespace TokenBucket

/-- What has not expired later has not expired now. -/
theorem Held.isLive_of_le {h : Held} {now later : Instant} (hle : now ≤ later)
    (hlive : h.isLive later = true) : h.isLive now = true := by
  rw [isLive, decide_eq_true_eq, Int64.lt_iff_toInt_lt] at hlive ⊢
  rw [Int64.le_iff_toInt_le] at hle
  omega

/-- An instant some milliseconds later stops at the latest one. -/
theorem Instant.toInt_after (now : Instant) (millis : ℕ) :
    (now.after millis).toInt = min (now.toInt + millis) latestMillis := by
  have hmillis : latestMillis = 2 ^ 63 - 1 := by decide
  have hlatest : latest.toInt = latestMillis := by decide
  have hmin := now.le_toInt
  rw [after]
  split
  · next h => rw [Int64.toInt_ofInt_of_le (by omega) (by omega), Int.min_eq_left h]
  · next h => rw [hlatest, Int.min_eq_right (by omega)]

namespace InProcess

variable {now later : Instant} {key : String} {request : Request} {s : InProcess} {h : Held}

/-- When a record that a request writes now expires. -/
def deadline (now : Instant) (request : Request) : Instant :=
  now.after (min request.ttl.toNat Instant.latestMillis)

/-! ### Purges and sweeps -/

theorem live?_eq_some_iff {r : Record} :
    s.live? now key = some r ↔
      ∃ h, s.buckets.get? key = some h ∧ h.isLive now = true ∧ h.record = r := by
  simp only [live?, Option.map_eq_some_iff, Option.filter_eq_some_iff, and_assoc]

theorem live?_congr {s s' : InProcess} (h : s'.buckets.get? key = s.buckets.get? key) :
    s'.live? now key = s.live? now key := by
  rw [live?, h, live?]

theorem get?_purge :
    (s.purge now).buckets.get? key = (s.buckets.get? key).filter (·.isLive now) :=
  KeyMap.get?_filter _ _ _

/-- From the present on, a purge is not noticed. -/
theorem live?_purge (hle : now ≤ later) : (s.purge now).live? later key = s.live? later key := by
  have hlive (h : Held) : (h.isLive now && h.isLive later) = h.isLive later := by
    by_cases hl : h.isLive later
    · rw [hl, Held.isLive_of_le hle hl]
      rfl
    · simp [hl]
  rw [live?, get?_purge, Option.filter_filter]
  simp only [hlive]
  rfl

theorem get?_sweep (now : Instant) (key : String) (s : InProcess) :
    (s.sweep now).buckets.get? key = s.buckets.get? key ∨
      (s.sweep now).buckets.get? key = (s.purge now).buckets.get? key := by
  rw [sweep]
  split
  · exact Or.inl rfl
  · exact Or.inr rfl

/-- From the present on, a sweep is not noticed. -/
theorem live?_sweep (hle : now ≤ later) : (s.sweep now).live? later key = s.live? later key := by
  rcases get?_sweep now key s with h | h
  · exact live?_congr h
  · rw [live?_congr h, live?_purge hle]

/-- A purge only drops entries. -/
theorem held_purge (hheld : (s.purge now).buckets.get? key = some h) :
    s.buckets.get? key = some h := by
  rw [get?_purge, Option.filter_eq_some_iff] at hheld
  exact hheld.1

/-- A sweep only drops entries. -/
theorem held_sweep (hheld : (s.sweep now).buckets.get? key = some h) :
    s.buckets.get? key = some h := by
  rcases get?_sweep now key s with heq | heq
  · rwa [heq] at hheld
  · exact held_purge (heq ▸ hheld)

@[simp] theorem sweep_encoding : (s.sweep now).encoding = s.encoding := by
  rw [sweep]
  split <;> rfl

@[simp] theorem sweep_isClosed : (s.sweep now).isClosed = s.isClosed := by
  rw [sweep]
  split <;> rfl

/-! ### Requests -/

theorem step_fst : (s.step now request).1 = request.settle (s.live? now request.key) := rfl

@[simp] theorem step_isClosed : (s.step now request).2.isClosed = s.isClosed := rfl

@[simp] theorem step_encoding : (s.step now request).2.encoding = s.encoding := rfl

/-- A request is settled against the live record of its key, which the sweep before does not touch. -/
theorem execute_eq (hopen : s.isClosed = false) :
    s.execute now request =
      (.ok (s.encoding.reply request.requested (request.settle (s.live? now request.key))),
        ((s.sweep now).step now request).2) := by
  have hsettle : ((s.sweep now).step now request).1 = request.settle (s.live? now request.key) := by
    rw [step_fst, live?_sweep (Int64.le_refl now)]
  rw [execute, whenOpen]
  simp only [hopen, Bool.false_eq_true, if_false, sweep_encoding, step_encoding, hsettle]

theorem execute_of_isClosed (hclosed : s.isClosed = true) :
    s.execute now request = (.error (.storeUnavailable .inProcessClosed), s) := by
  simp [execute, whenOpen, hclosed]

theorem get?_step_of_ne (hne : request.key ≠ key) :
    (s.step now request).2.buckets.get? key = s.buckets.get? key := by
  simp only [step]
  split
  · rw [KeyMap.get?_insert, if_neg hne]
  · split
    · rfl
    · rw [KeyMap.get?_erase, if_neg hne]

theorem get?_step_of_record {r : Record}
    (hr : (request.settle (s.live? now request.key)).record? request.now = some r) :
    (s.step now request).2.buckets.get? request.key = some ⟨r, deadline now request⟩ := by
  simp only [step, hr]
  rw [KeyMap.get?_insert, if_pos rfl]
  rfl

/-- After a look the entry is still there, unless it has expired. -/
theorem get?_step_of_looked
    (hr : (request.settle (s.live? now request.key)).record? request.now = none) :
    (s.step now request).2.buckets.get? request.key =
      if (s.live? now request.key).isSome then s.buckets.get? request.key else none := by
  simp only [step, hr]
  split
  · rfl
  · rw [KeyMap.get?_erase, if_pos rfl]

/-- What is held after a request was held before, or is what the request has written. -/
theorem held_step (hheld : (s.step now request).2.buckets.get? key = some h) :
    s.buckets.get? key = some h ∨ request.key = key ∧ ∃ r,
      (request.settle (s.live? now request.key)).record? request.now = some r ∧
        h = ⟨r, deadline now request⟩ := by
  by_cases hkey : request.key = key
  · subst hkey
    cases hr : (request.settle (s.live? now request.key)).record? request.now with
    | none =>
      rw [get?_step_of_looked hr] at hheld
      split at hheld
      · exact Or.inl hheld
      · cases hheld
    | some r =>
      rw [get?_step_of_record hr] at hheld
      exact Or.inr ⟨rfl, r, rfl, (Option.some.inj hheld).symm⟩
  · rw [get?_step_of_ne hkey] at hheld
    exact Or.inl hheld

@[simp] theorem execute_isClosed : (s.execute now request).2.isClosed = s.isClosed := by
  cases hclosed : s.isClosed with
  | true => rw [execute_of_isClosed hclosed, hclosed]
  | false => rw [execute_eq hclosed, step_isClosed, sweep_isClosed, hclosed]

@[simp] theorem execute_encoding : (s.execute now request).2.encoding = s.encoding := by
  cases hclosed : s.isClosed with
  | true => rw [execute_of_isClosed hclosed]
  | false => rw [execute_eq hclosed, step_encoding, sweep_encoding]

/-- What is held after a request was held before, or is what the request has written. -/
theorem held_execute (hheld : (s.execute now request).2.buckets.get? key = some h) :
    s.buckets.get? key = some h ∨ request.key = key ∧ s.isClosed = false ∧ ∃ r,
      (request.settle (s.live? now request.key)).record? request.now = some r ∧
        h = ⟨r, deadline now request⟩ := by
  cases hclosed : s.isClosed with
  | true =>
    rw [execute_of_isClosed hclosed] at hheld
    exact Or.inl hheld
  | false =>
    rw [execute_eq hclosed] at hheld
    rcases held_step hheld with hold | ⟨hkey, r, hr, rfl⟩
    · exact Or.inl (held_sweep hold)
    · rw [live?_sweep (Int64.le_refl now)] at hr
      exact Or.inr ⟨hkey, rfl, r, hr, rfl⟩

/-- Seen from the present on, a request that leaves no record changes nothing. -/
theorem live?_step_of_looked (hle : now ≤ later)
    (hr : (request.settle (s.live? now request.key)).record? request.now = none) :
    (s.step now request).2.live? later key = s.live? later key := by
  by_cases hkey : request.key = key
  · subst hkey
    cases hlive : s.live? now request.key with
    | some r =>
      apply live?_congr
      rw [get?_step_of_looked hr, hlive]
      rfl
    | none =>
      -- what has expired by now has expired later
      have hdead : s.live? later request.key = none := by
        rw [Option.eq_none_iff_forall_ne_some] at hlive ⊢
        intro r hr
        obtain ⟨h, hget, hl, rfl⟩ := live?_eq_some_iff.mp hr
        exact hlive h.record (live?_eq_some_iff.mpr ⟨h, hget, Held.isLive_of_le hle hl, rfl⟩)
      rw [hdead, live?, get?_step_of_looked hr, hlive]
      rfl
  · exact live?_congr (get?_step_of_ne hkey)

/-- Seen from the present on, a request changes its own key only, and that by the record it leaves. -/
theorem live?_execute (hopen : s.isClosed = false) (hle : now ≤ later) :
    (s.execute now request).2.live? later key =
      match (request.settle (s.live? now request.key)).record? request.now with
      | some r =>
        if request.key = key then if later < deadline now request then some r else none
        else s.live? later key
      | none => s.live? later key := by
  have hsweep : (s.sweep now).live? now request.key = s.live? now request.key :=
    live?_sweep (Int64.le_refl now)
  rw [execute_eq hopen]
  cases hr : (request.settle (s.live? now request.key)).record? request.now with
  | none =>
    rw [← hsweep] at hr
    rw [live?_step_of_looked hle hr, live?_sweep hle]
  | some r =>
    rw [← hsweep] at hr
    simp only
    split
    · next hkey =>
      subst hkey
      rw [live?, get?_step_of_record hr]
      simp only [Held.isLive, Option.filter_some, decide_eq_true_eq]
      split <;> rfl
    · next hkey =>
      rw [live?_congr (get?_step_of_ne hkey), live?_sweep hle]

theorem live?_execute_of_look (hopen : s.isClosed = false) (hle : now ≤ later)
    (hr : (request.settle (s.live? now request.key)).record? request.now = none) :
    (s.execute now request).2.live? later key = s.live? later key := by
  rw [live?_execute hopen hle, hr]

/-! ### The other operations -/

theorem fetch_eq (hopen : s.isClosed = false) : s.fetch now key = (.ok (s.live? now key), s) := by
  simp [fetch, whenOpen, hopen]

/-- Handing out a record changes nothing. -/
theorem fetch_snd (now : Instant) (key : String) (s : InProcess) : (s.fetch now key).2 = s := by
  rw [fetch, whenOpen]
  split <;> rfl

/-- Nothing goes wrong with an operation of the store but that it has been closed. -/
theorem whenOpen_failure {α : Type} {operation : InProcess → α × InProcess} {failure : Failure}
    (h : (s.whenOpen operation).1 = .error failure) :
    failure = .storeUnavailable .inProcessClosed := by
  rw [whenOpen] at h
  split at h
  · exact (Except.error.inj h).symm
  · cases h

theorem delete_eq (hopen : s.isClosed = false) :
    s.delete now key =
      (.ok (s.live? now key).isSome, { s with buckets := s.buckets.erase key }) := by
  simp [delete, whenOpen, hopen]

theorem delete_of_isClosed (hclosed : s.isClosed = true) :
    s.delete now key = (.error (.storeUnavailable .inProcessClosed), s) := by
  simp [delete, whenOpen, hclosed]

@[simp] theorem delete_isClosed : (s.delete now key).2.isClosed = s.isClosed := by
  rw [delete, whenOpen]
  split <;> rfl

/-- A key that has been forgotten is not live, and the others are not touched. -/
theorem live?_delete (hopen : s.isClosed = false) (erased : String) :
    (s.delete now erased).2.live? later key = if erased = key then none else s.live? later key := by
  rw [delete_eq hopen, live?, live?, KeyMap.get?_erase]
  split <;> rfl

theorem fetch_failure {failure : Failure} (h : (s.fetch now key).1 = .error failure) :
    failure.kind ≠ .protocol := by
  rw [whenOpen_failure h]
  decide

theorem delete_failure {failure : Failure} (h : (s.delete now key).1 = .error failure) :
    failure.kind ≠ .protocol := by
  rw [whenOpen_failure h]
  decide

/-- Forgetting a record only drops entries. -/
theorem held_delete {erased : String}
    (hheld : (s.delete now erased).2.buckets.get? key = some h) :
    s.buckets.get? key = some h := by
  rw [delete, whenOpen] at hheld
  split at hheld
  · exact hheld
  · simp only [KeyMap.get?_erase] at hheld
    split at hheld
    · cases hheld
    · exact hheld

/-! ### What leaves a key alone -/

/-- From one state of a store to another nothing has happened to a key, but that an expired record may be
gone. -/
structure Untouched (s s' : InProcess) (key : String) (now : Instant) : Prop where
  isClosed_eq : s'.isClosed = s.isClosed
  held : ∀ h, s'.buckets.get? key = some h → s.buckets.get? key = some h
  live?_eq : ∀ later, now ≤ later → s'.live? later key = s.live? later key

theorem untouched_self (s : InProcess) (key : String) (now : Instant) : s.Untouched s key now :=
  ⟨rfl, fun _ hheld => hheld, fun _ _ => rfl⟩

theorem untouched_purge (s : InProcess) (key : String) (now : Instant) :
    s.Untouched (s.purge now) key now :=
  ⟨rfl, fun _ => held_purge, fun _ => live?_purge⟩

theorem untouched_execute (hne : request.key ≠ key) :
    s.Untouched (s.execute now request).2 key now := by
  refine ⟨execute_isClosed, ?_, ?_⟩
  · intro h hheld
    rcases held_execute hheld with hold | ⟨hkey, -⟩
    · exact hold
    · exact absurd hkey hne
  · intro later hle
    cases hclosed : s.isClosed with
    | true => rw [execute_of_isClosed hclosed]
    | false =>
      rw [live?_execute hclosed hle]
      split
      · rw [if_neg hne]
      · rfl

theorem untouched_delete {erased : String} (hne : erased ≠ key) :
    s.Untouched (s.delete now erased).2 key now := by
  rw [delete, whenOpen]
  split
  · exact untouched_self s key now
  · have hget : (s.buckets.erase erased).get? key = s.buckets.get? key := by
      rw [KeyMap.get?_erase, if_neg hne]
    refine ⟨rfl, ?_, ?_⟩
    · intro h hheld
      exact hget ▸ hheld
    · intro later _
      exact live?_congr hget

end InProcess

end TokenBucket
