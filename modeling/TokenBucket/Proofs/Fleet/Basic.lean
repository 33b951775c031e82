import TokenBucket.Limiter
import TokenBucket.Proofs.Store.Calls
import TokenBucket.Proofs.Store.Held
import Mathlib.Logic.Function.Basic

/-!
# Fleets of limiters

Any number of limiters can share one store. A `Visit` is one call of one of them, together with what its
own clock and the clock of the store show at that moment; neither clock is part of the state, so both may
stand, jump or run backwards between two visits. A run of a fleet is a list of visits.

To a store in memory more can happen than visits. An `Event` is a visit, an operation that reaches the
store past all limiters, or a purge.

The limiters themselves are changed by visits alone, whatever else happens and whatever their store answers
(`Fleet.limiters_foldl`), and only by being closed. A visit touches the store in few ways too: a call for
tokens sends one request, a reset forgets a key, a close closes. So a record that is held after a run was
held before it or was written by one of its visits (`Fleet.held_after`).

## Main definitions

* `Call`, `Answer`, `Limiter.perform`.
* `Visit`, `Fleet`, `Fleet.fresh`, `Fleet.visit`, `Fleet.after`.
* `Event`, `Fleet.step`, `Fleet.run`.
* `Limiter.sent?`: the request that a call sends; `Fleet.Writes`: the record that a visit writes.
* `Limiter.next`, `Fleet.limitersAfter`: a limiter after a call, and limiters after some visits.

## Main results

* `Limiter.request_eq_ok_iff`: which calls reach the store, and with which request.
* `Fleet.limiters_visit_eq`, `Fleet.limiters_foldl`: what a visit and a run do to the limiters.
* `Fleet.store_visit`: what a visit does to the store.
* `Fleet.held_visit`, `Fleet.held_after`.
-/

namespace TokenBucket

/-- A call of a limiter. -/
inductive Call where
  /-- May so many tokens be taken for the key? -/
  | allow (key : String) (n : Int64)
  /-- How many whole tokens does the key have? -/
  | remaining (key : String)
  /-- What was last written for the key? -/
  | record (key : String)
  /-- Forget the key. -/
  | reset (key : String)
  /-- Close the limiter. -/
  | close
deriving DecidableEq

/-- What a limiter says to a call. -/
inductive Answer where
  /-- The answer to `Call.allow`. -/
  | decision (answer : Except Failure Decision)
  /-- The answer to `Call.remaining`. -/
  | balance (answer : Except Failure Int64)
  /-- The answer to `Call.record`. -/
  | record (answer : Except Failure (Option Record))
  /-- The answer to `Call.reset`. -/
  | existed (answer : Except Failure Bool)
  /-- The answer to `Call.close`. -/
  | closed (answer : Except Failure Unit)

/-- The failure of an operation, if it failed. -/
def failureOf? {α : Type} : Except Failure α → Option Failure
  | .ok _ => none
  | .error failure => some failure

theorem failureOf?_eq_some {α : Type} {answer : Except Failure α} {failure : Failure} :
    failureOf? answer = some failure ↔ answer = .error failure := by
  cases answer <;> simp [failureOf?]

/-- The failure that an answer reports, if it reports one. -/
def Answer.failure? : Answer → Option Failure
  | .decision answer => failureOf? answer
  | .balance answer => failureOf? answer
  | .record answer => failureOf? answer
  | .existed answer => failureOf? answer
  | .closed answer => failureOf? answer

/-- The whole tokens that an answer says are left, if it says so. -/
def Answer.remaining? : Answer → Option Int64
  | .decision (.ok d) => some d.remaining
  | .balance (.ok n) => some n
  | _ => none

/-- One call of one of several limiters. -/
structure Visit (ι : Type) where
  /-- The limiter that is called. -/
  limiter : ι
  /-- What its clock shows. -/
  now : Instant
  /-- What the clock of the store shows. -/
  storeNow : Instant
  /-- The call. -/
  call : Call
deriving DecidableEq

/-- Limiters that share a store. -/
structure Fleet (ι σ : Type) where
  /-- The limiters. -/
  limiters : ι → Limiter
  /-- Their store. -/
  store : σ

/-- Limiters over an empty store in memory, opened at an instant. -/
def Fleet.fresh {ι : Type} (limiters : ι → Limiter) (now : Instant) (encoding : Encoding)
    (interval : Duration) : Fleet ι InProcess :=
  ⟨limiters, .open now encoding interval⟩

/-- What can happen to limiters and the store in memory that they share. -/
inductive Event (ι : Type) where
  /-- A limiter is called. -/
  | visit (v : Visit ι)
  /-- The store is asked past all limiters. -/
  | direct (storeNow : Instant) (call : StoreCall)
  /-- Expired records are dropped. -/
  | purge (storeNow : Instant)
deriving DecidableEq

section Store

variable {σ : Type} [BucketStore σ]

/-- The answer of a limiter to a call, with the limiter and the store after it. -/
def Limiter.perform (l : Limiter) (now storeNow : Instant) (call : Call) (store : σ) :
    Answer × Limiter × σ :=
  match call with
  | .allow key n =>
    let (answer, store) := l.allow now storeNow key n store
    (.decision answer, l, store)
  | .remaining key =>
    let (answer, store) := l.remaining now storeNow key store
    (.balance answer, l, store)
  | .record key =>
    let (answer, store) := l.record storeNow key store
    (.record answer, l, store)
  | .reset key =>
    let (answer, store) := l.reset storeNow key store
    (.existed answer, l, store)
  | .close =>
    let (answer, l, store) := l.close store
    (.closed answer, l, store)

namespace Fleet

variable {ι : Type} [DecidableEq ι]

/-- The answer to a visit, and the fleet after it. -/
def visit (f : Fleet ι σ) (v : Visit ι) : Answer × Fleet ι σ :=
  let (answer, limiter, store) := (f.limiters v.limiter).perform v.now v.storeNow v.call f.store
  (answer, ⟨Function.update f.limiters v.limiter limiter, store⟩)

/-- The fleet after a run of visits. -/
def after (f : Fleet ι σ) (visits : List (Visit ι)) : Fleet ι σ :=
  visits.foldl (fun f v => (f.visit v).2) f

@[simp] theorem after_nil (f : Fleet ι σ) : f.after [] = f := rfl

@[simp] theorem after_cons (f : Fleet ι σ) (v : Visit ι) (visits : List (Visit ι)) :
    f.after (v :: visits) = (f.visit v).2.after visits := rfl

@[simp] theorem after_append (f : Fleet ι σ) (visits visits' : List (Visit ι)) :
    f.after (visits ++ visits') = (f.after visits).after visits' := List.foldl_append

end Fleet

end Store

namespace Fleet

variable {ι : Type} [DecidableEq ι]

/-- The fleet after an event. -/
def step (f : Fleet ι InProcess) : Event ι → Fleet ι InProcess
  | .visit v => (f.visit v).2
  | .direct storeNow call => { f with store := call.perform storeNow f.store }
  | .purge storeNow => { f with store := f.store.purge storeNow }

/-- The fleet after a run of events. -/
def run (f : Fleet ι InProcess) (events : List (Event ι)) : Fleet ι InProcess := events.foldl step f

@[simp] theorem run_nil (f : Fleet ι InProcess) : f.run [] = f := rfl

@[simp] theorem run_cons (f : Fleet ι InProcess) (e : Event ι) (events : List (Event ι)) :
    f.run (e :: events) = (f.step e).run events := rfl

@[simp] theorem run_append (f : Fleet ι InProcess) (events events' : List (Event ι)) :
    f.run (events ++ events') = (f.run events).run events' := List.foldl_append

/-- A run of visits is a run of events. -/
theorem after_eq_run (f : Fleet ι InProcess) (visits : List (Visit ι)) :
    f.after visits = f.run (visits.map .visit) := by
  rw [run, List.foldl_map]
  rfl

/-- A condition on every event of a run, in the state that the event meets. -/
def Along (P : Fleet ι InProcess → Event ι → Prop) : Fleet ι InProcess → List (Event ι) → Prop
  | _, [] => True
  | f, e :: events => P f e ∧ Along P (f.step e) events

theorem along_append {P : Fleet ι InProcess → Event ι → Prop} {f : Fleet ι InProcess}
    {events events' : List (Event ι)} :
    Along P f (events ++ events') ↔ Along P f events ∧ Along P (f.run events) events' := by
  induction events generalizing f with
  | nil => simp [Along]
  | cons e events ih => simp [Along, ih, and_assoc]

end Fleet

/-! ### Calls and requests -/

/-- Different keys of one key space are different in the store. -/
theorem KeySpace.storeKey_injective (space : KeySpace) : Function.Injective space.storeKey := by
  intro key key' h
  exact (String.append_right_inj space.beginning).mp h

namespace Limiter

variable {l : Limiter} {now : Instant} {key : String} {n : Int64} {request : Request} {call : Call}

theorem storeKey_eq_ok_iff {storeKey : String} :
    l.storeKey key = .ok storeKey ↔
      key ≠ "" ∧ l.isClosed = false ∧ storeKey = l.keys.storeKey key := by
  rw [Limiter.storeKey]
  by_cases hkey : key = ""
  · simp [hkey]
  · by_cases hclosed : l.isClosed
    · simp [hkey, hclosed]
    · simp [hkey, hclosed, eq_comm]

/-- A call for tokens reaches the store if it passes the three checks, and always as the same request. -/
theorem request_eq_ok_iff :
    l.request now key n = .ok request ↔
      0 ≤ n ∧ key ≠ "" ∧ l.isClosed = false ∧ request = l.keys.request l.policy key now n := by
  rw [Limiter.request]
  by_cases hn : n < 0
  · have hnot : ¬ 0 ≤ n := by rwa [Int64.not_le]
    simp [hn, hnot]
  · have hle : 0 ≤ n := Int64.not_lt.mp hn
    rw [if_neg hn]
    cases hkey : l.storeKey key with
    | error failure =>
      have hrefused : l.storeKey key ≠ .ok (l.keys.storeKey key) := by simp [hkey]
      rw [Ne, storeKey_eq_ok_iff] at hrefused
      simp only [Except.map, reduceCtorEq, hle, true_and, false_iff]
      rintro ⟨hne, hopen, -⟩
      exact hrefused ⟨hne, hopen, rfl⟩
    | ok storeKey =>
      obtain ⟨hne, hopen, -⟩ := storeKey_eq_ok_iff.mp hkey
      simp [Except.map, hle, hne, hopen, eq_comm]

/-- A call that is refused leaves the store alone. -/
theorem allow_of_error {σ : Type} [BucketStore σ] {s : σ} {storeNow : Instant} {failure : Failure}
    (hrequest : l.request now key n = .error failure) :
    l.allow now storeNow key n s = (.error failure, s) := by
  simp only [allow, hrequest]

/-- A call without a key is refused, whether or not the limiter is closed. -/
theorem request_of_empty (hn : 0 ≤ n) : l.request now "" n = .error (.invalidArgument .emptyKey) := by
  rw [request, if_neg (Int64.not_lt.mpr hn)]
  rfl

theorem request_of_isClosed (hn : 0 ≤ n) (hkey : key ≠ "") (hclosed : l.isClosed = true) :
    l.request now key n = .error (.storeUnavailable .limiterClosed) := by
  rw [request, if_neg (Int64.not_lt.mpr hn), storeKey, if_neg hkey, if_pos hclosed]
  rfl

/-- A call for tokens that passes the checks does to the store what its request does. -/
theorem allow_snd {storeNow : Instant} {s : InProcess} (hrequest : l.request now key n = .ok request) :
    (l.allow now storeNow key n s).2 = (s.execute storeNow request).2 := by
  rw [allow, hrequest]
  rfl

/-- The request that a call sends, if it sends one. -/
def sent? (l : Limiter) (now : Instant) : Call → Option Request
  | .allow key n => (l.request now key n).toOption
  | .remaining key => (l.request now key 0).toOption
  | .record _ => none
  | .reset _ => none
  | .close => none

theorem sent?_allow : l.sent? now (.allow key n) = some request ↔ l.request now key n = .ok request := by
  cases h : l.request now key n <;> simp [sent?, h, Except.toOption]

theorem sent?_remaining :
    l.sent? now (.remaining key) = some request ↔ l.request now key 0 = .ok request := by
  cases h : l.request now key 0 <;> simp [sent?, h, Except.toOption]

theorem sent?_eq_some (h : l.sent? now call = some request) :
    ∃ key n, 0 ≤ n ∧ request = l.keys.request l.policy key now n ∧
      (call = .allow key n ∨ call = .remaining key ∧ n = 0) := by
  cases call with
  | allow key n =>
    obtain ⟨hn, -, -, hrequest⟩ := request_eq_ok_iff.mp (sent?_allow.mp h)
    exact ⟨key, n, hn, hrequest, Or.inl rfl⟩
  | remaining key =>
    obtain ⟨hn, -, -, hrequest⟩ := request_eq_ok_iff.mp (sent?_remaining.mp h)
    exact ⟨key, 0, hn, hrequest, Or.inr ⟨rfl, rfl⟩⟩
  | record key => cases h
  | reset key => cases h
  | close => cases h

/-- The limiter after a call. -/
def next (l : Limiter) : Call → Limiter
  | .close => { l with isClosed := true }
  | _ => l

/-- A call leaves the limiter as it is, but that it may close it. -/
theorem next_eq :
    l.next call = { l with isClosed := l.isClosed || Decidable.decide (call = .close) } := by
  cases call <;> simp [next]

theorem next_of_ne_close (hcall : call ≠ .close) : l.next call = l := by
  cases call with
  | close => exact absurd rfl hcall
  | _ => rfl

/-- A call changes the limiter as the call alone determines. -/
theorem perform_limiter {σ : Type} [BucketStore σ] (l : Limiter) (now storeNow : Instant) (call : Call)
    (s : σ) :
    (l.perform now storeNow call s).2.1 = l.next call := by
  cases call with
  | close =>
    obtain ⟨policy, keys, isClosed⟩ := l
    cases isClosed <;> rfl
  | _ => rfl

end Limiter

/-! ### What visits do to limiters -/

namespace Fleet

variable {ι : Type} [DecidableEq ι] {v : Visit ι} {i : ι}

/-- Limiters after some visits. -/
def limitersAfter (limiters : ι → Limiter) (visits : List (Visit ι)) : ι → Limiter :=
  visits.foldl (fun limiters v =>
    Function.update limiters v.limiter ((limiters v.limiter).next v.call)) limiters

/-- A limiter stays what it is, but that a visit may close it. -/
theorem limitersAfter_apply (limiters : ι → Limiter) (visits : List (Visit ι)) (i : ι) :
    limitersAfter limiters visits i = { limiters i with
      isClosed := (limiters i).isClosed || decide (∃ v ∈ visits, v.limiter = i ∧ v.call = .close) } := by
  induction visits generalizing limiters with
  | nil => simp [limitersAfter]
  | cons v visits ih =>
    rw [show limitersAfter limiters (v :: visits) = limitersAfter _ visits from rfl, ih]
    by_cases hi : v.limiter = i
    · subst hi
      simp [Limiter.next_eq, Bool.or_assoc]
    · simp [hi, Ne.symm hi]

/-- No visit changes the parameters of a limiter. -/
@[simp] theorem policy_limitersAfter (limiters : ι → Limiter) (visits : List (Visit ι)) (i : ι) :
    (limitersAfter limiters visits i).policy = (limiters i).policy := by
  rw [limitersAfter_apply]

/-- No visit changes where the keys of a limiter lie. -/
@[simp] theorem keys_limitersAfter (limiters : ι → Limiter) (visits : List (Visit ι)) (i : ι) :
    (limitersAfter limiters visits i).keys = (limiters i).keys := by
  rw [limitersAfter_apply]

/-- A limiter is closed after some visits if it was before, or if one of the visits has closed it. -/
theorem isClosed_limitersAfter {limiters : ι → Limiter} {visits : List (Visit ι)} :
    (limitersAfter limiters visits i).isClosed = true ↔
      (limiters i).isClosed = true ∨ ∃ v ∈ visits, v.limiter = i ∧ v.call = .close := by
  rw [limitersAfter_apply, Bool.or_eq_true, decide_eq_true_iff]

variable {σ : Type} [BucketStore σ] {f : Fleet ι σ}

/-- A visit changes the limiters as the visit alone determines. -/
theorem limiters_visit_eq (f : Fleet ι σ) (v : Visit ι) :
    (f.visit v).2.limiters =
      Function.update f.limiters v.limiter ((f.limiters v.limiter).next v.call) := by
  simp only [visit, Limiter.perform_limiter]

/-- No visit changes the parameters of a limiter or where its keys lie. -/
theorem policy_visit (i : ι) :
    ((f.visit v).2.limiters i).policy = (f.limiters i).policy ∧
      ((f.visit v).2.limiters i).keys = (f.limiters i).keys := by
  rw [show (f.visit v).2.limiters = limitersAfter f.limiters [v] from limiters_visit_eq f v]
  exact ⟨policy_limitersAfter _ _ i, keys_limitersAfter _ _ i⟩

/-- A call for tokens changes the store only. -/
theorem visit_allow (f : Fleet ι σ) (i : ι) (now storeNow : Instant) (key : String) (n : Int64) :
    f.visit ⟨i, now, storeNow, .allow key n⟩ =
      (.decision ((f.limiters i).allow now storeNow key n f.store).1,
        ⟨f.limiters, ((f.limiters i).allow now storeNow key n f.store).2⟩) := by
  simp only [visit, Limiter.perform, Function.update_eq_self]

/-- Only a close changes a limiter. -/
theorem limiters_visit (hcall : v.call ≠ .close) : (f.visit v).2.limiters = f.limiters := by
  rw [limiters_visit_eq, Limiter.next_of_ne_close hcall, Function.update_eq_self]

omit [BucketStore σ] in
/-- Whatever can happen to limiters and their store, the limiters are changed by the visits among it. -/
theorem limiters_foldl {ε : Type} {step : Fleet ι σ → ε → Fleet ι σ} {visit? : ε → Option (Visit ι)}
    (hstep : ∀ f e, (step f e).limiters = limitersAfter f.limiters (visit? e).toList)
    (f : Fleet ι σ) (events : List ε) :
    (events.foldl step f).limiters = limitersAfter f.limiters (events.filterMap visit?) := by
  induction events generalizing f with
  | nil => rfl
  | cons e events ih =>
    rw [List.foldl_cons, ih, hstep, List.filterMap_cons]
    cases visit? e <;> rfl

theorem limiters_after (f : Fleet ι σ) (visits : List (Visit ι)) :
    (f.after visits).limiters = limitersAfter f.limiters visits := by
  have hstep (f : Fleet ι σ) (v : Visit ι) :
      (f.visit v).2.limiters = limitersAfter f.limiters (some v).toList := limiters_visit_eq f v
  rw [after, limiters_foldl hstep, List.filterMap_some]

theorem policy_after (visits : List (Visit ι)) (i : ι) :
    ((f.after visits).limiters i).policy = (f.limiters i).policy := by
  rw [limiters_after, policy_limitersAfter]

theorem keys_after (visits : List (Visit ι)) (i : ι) :
    ((f.after visits).limiters i).keys = (f.limiters i).keys := by
  rw [limiters_after, keys_limitersAfter]

end Fleet

namespace Event

variable {ι : Type}

/-- The visit that an event is, if it is one. -/
def visit? : Event ι → Option (Visit ι)
  | .visit v => some v
  | .direct _ _ => none
  | .purge _ => none

/-- The visits among some events. -/
def visits (events : List (Event ι)) : List (Visit ι) := events.filterMap visit?

theorem mem_visits {events : List (Event ι)} {v : Visit ι} : v ∈ visits events ↔ .visit v ∈ events := by
  rw [visits, List.mem_filterMap]
  constructor
  · rintro ⟨_ | _ | _, he, hv⟩
    · obtain rfl := Option.some.inj hv
      exact he
    · cases hv
    · cases hv
  · exact fun he => ⟨_, he, rfl⟩

end Event

namespace Fleet

variable {ι : Type} [DecidableEq ι]

/-- An event changes the limiters only as a visit. -/
theorem limiters_step (f : Fleet ι InProcess) (e : Event ι) :
    (f.step e).limiters = limitersAfter f.limiters e.visit?.toList := by
  cases e with
  | visit v => exact limiters_visit_eq f v
  | direct storeNow call => rfl
  | purge storeNow => rfl

theorem limiters_run (f : Fleet ι InProcess) (events : List (Event ι)) :
    (f.run events).limiters = limitersAfter f.limiters (Event.visits events) :=
  limiters_foldl limiters_step f events

end Fleet

/-! ### What a visit does to a store in memory -/

namespace Fleet

variable {ι : Type} [DecidableEq ι] {f : Fleet ι InProcess} {v : Visit ι} {key : String} {h : Held}

/-- A visit sends one request, forgets one key, closes the store or leaves it alone. -/
theorem store_visit (f : Fleet ι InProcess) (v : Visit ι) :
    (∃ request, (f.limiters v.limiter).sent? v.now v.call = some request ∧
      (f.visit v).2.store = (f.store.execute v.storeNow request).2) ∨
    (∃ key, v.call = .reset key ∧ (f.visit v).2.store =
      (f.store.delete v.storeNow ((f.limiters v.limiter).keys.storeKey key)).2) ∨
    (v.call = .close ∧ (f.visit v).2.store = f.store.close) ∨
    ((f.limiters v.limiter).sent? v.now v.call = none ∧ (f.visit v).2.store = f.store) := by
  obtain ⟨i, now, storeNow, call⟩ := v
  cases call with
  | allow key n =>
    simp only [visit, Limiter.perform, Limiter.allow, Limiter.sent?]
    cases (f.limiters i).request now key n with
    | ok request => exact Or.inl ⟨request, rfl, rfl⟩
    | error failure => exact Or.inr (Or.inr (Or.inr ⟨rfl, rfl⟩))
  | remaining key =>
    simp only [visit, Limiter.perform, Limiter.remaining, Limiter.allow, Limiter.sent?]
    cases (f.limiters i).request now key 0 with
    | ok request => exact Or.inl ⟨request, rfl, rfl⟩
    | error failure => exact Or.inr (Or.inr (Or.inr ⟨rfl, rfl⟩))
  | record key =>
    refine Or.inr (Or.inr (Or.inr ⟨rfl, ?_⟩))
    simp only [visit, Limiter.perform, Limiter.record]
    cases (f.limiters i).storeKey key with
    | ok storeKey => exact InProcess.fetch_snd _ _ _
    | error failure => rfl
  | reset key =>
    simp only [visit, Limiter.perform, Limiter.reset]
    cases hkey : (f.limiters i).storeKey key with
    | ok storeKey =>
      obtain ⟨-, -, rfl⟩ := Limiter.storeKey_eq_ok_iff.mp hkey
      exact Or.inr (Or.inl ⟨key, rfl, rfl⟩)
    | error failure => exact Or.inr (Or.inr (Or.inr ⟨rfl, rfl⟩))
  | close =>
    simp only [visit, Limiter.perform, Limiter.close]
    split
    · exact Or.inr (Or.inr (Or.inr ⟨rfl, rfl⟩))
    · exact Or.inr (Or.inr (Or.inl ⟨trivial, rfl⟩))

/-- The visit writes the record `h` under a store key: its request reaches the store, and `h` is what
the settlement of that request leaves. -/
def Writes (f : Fleet ι InProcess) (v : Visit ι) (key : String) (h : Held) : Prop :=
  ∃ request, (f.limiters v.limiter).sent? v.now v.call = some request ∧ request.key = key ∧
    f.store.isClosed = false ∧ ∃ r,
      (request.settle (f.store.live? v.storeNow key)).record? v.now = some r ∧
        h = ⟨r, InProcess.deadline v.storeNow request⟩

/-- What is held after a visit was held before it, or the visit has written it. -/
theorem held_visit (hheld : (f.visit v).2.store.buckets.get? key = some h) :
    f.store.buckets.get? key = some h ∨ f.Writes v key h := by
  rcases store_visit f v with ⟨request, hsent, hstore⟩ | ⟨name, -, hstore⟩ | ⟨-, hstore⟩ |
    ⟨-, hstore⟩
  · rw [hstore] at hheld
    rcases InProcess.held_execute hheld with hold | ⟨rfl, hopen, r, hr, rfl⟩
    · exact Or.inl hold
    · obtain ⟨_, _, -, rfl, -⟩ := Limiter.sent?_eq_some hsent
      exact Or.inr ⟨_, hsent, rfl, hopen, r, hr, rfl⟩
  · rw [hstore] at hheld
    exact Or.inl (InProcess.held_delete hheld)
  · rw [hstore] at hheld
    exact Or.inl hheld
  · rw [hstore] at hheld
    exact Or.inl hheld

/-- What is held after a run was held before it, or one of its visits has written it. -/
theorem held_after {visits : List (Visit ι)}
    (hheld : (f.after visits).store.buckets.get? key = some h) :
    f.store.buckets.get? key = some h ∨ ∃ before v rest, visits = before ++ v :: rest ∧
      (f.after before).Writes v key h := by
  induction visits generalizing f with
  | nil => exact Or.inl hheld
  | cons v visits ih =>
    rcases ih hheld with hold | ⟨before, w, rest, rfl, hw⟩
    · rcases held_visit hold with hold | hv
      · exact Or.inl hold
      · exact Or.inr ⟨[], v, visits, rfl, hv⟩
    · exact Or.inr ⟨v :: before, w, rest, rfl, hw⟩

end Fleet

end TokenBucket
