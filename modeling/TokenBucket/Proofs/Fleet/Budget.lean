import TokenBucket.Proofs.Fleet.Soundness
import TokenBucket.Proofs.Store.Level

/-!
# The budget of a window

Limiters of one policy share a store, its keys and its clock, which never runs backwards. Whatever else
happens in the store, in any part of a run the calls on one key together take no more tokens than a full
bucket holds and the rate lets in meanwhile (`Fleet.granted_le`). This holds where no operation rounds and
the idle time is long enough to fill the bucket.

The level of the bucket serves as a potential. An event at some instant lowers it by what it takes
(`Fleet.level_step`), and between two events it rises by no more than what flows in. Along a run these
steps add up (`Fleet.granted_add_level_le`); the level is never above the capacity at the beginning, and
never below zero at the end.

## Main definitions

* `Visit.charge`, `Fleet.granted`: what the calls on a key take.
* `Event.Spares`: an event that is no more than a call on the key.
* `Fleet.IsExactFor`: no operation of a draw on the key rounds.
* `Fleet.IsCommon`: limiters of one policy over an open store with timely records.

## Main results

* `Fleet.level_step`, `Fleet.granted_add_level_le`, `Fleet.granted_le`.
-/

namespace TokenBucket

open Binary64

variable {ι : Type}

/-- The tokens that a call takes from a key, by the answer it gets: those it asks for, if it is
allowed. -/
def Visit.charge (key : String) (v : Visit ι) (answer : Answer) : ℤ :=
  match v.call, answer with
  | .allow name n, .decision (.ok d) => if name = key ∧ d.allowed = true then n.toInt else 0
  | _, _ => 0

namespace Event

/-- The instant of an event on the clock of the store. -/
def instant : Event ι → Instant
  | .visit v => v.storeNow
  | .direct storeNow _ => storeNow
  | .purge storeNow => storeNow

/-- The event leaves a key to the calls on it: a call reads the clock of the store, closes nothing and
does not reset the key, and a call for tokens of the key has room for its expiration; past the limiters no
request and no deletion reaches the key, and the store is not closed. -/
def Spares (p : Policy) (space : KeySpace) (key : String) : Event ι → Prop
  | .visit v => v.now = v.storeNow ∧ v.call ≠ .close ∧ v.call ≠ .reset key ∧
      ∀ n, v.call = .allow key n → v.now.toInt + p.idle.millis ≤ Instant.latestMillis
  | .direct _ call => call ≠ .close ∧ call ≠ .delete (space.storeKey key) ∧
      ∀ request, call = .execute request → request.key ≠ space.storeKey key
  | .purge _ => True

end Event

namespace Fleet

variable [DecidableEq ι]

/-- The tokens that an event takes from a key. -/
def charge (key : String) (f : Fleet ι InProcess) : Event ι → ℤ
  | .visit v => v.charge key (f.visit v).1
  | .direct _ _ => 0
  | .purge _ => 0

/-- The tokens that the events of a run take from a key. -/
def granted (key : String) : Fleet ι InProcess → List (Event ι) → ℤ
  | _, [] => 0
  | f, e :: events => f.charge key e + granted key (f.step e) events

/-- No operation of the draw of an event on a key rounds. -/
def IsExactFor (space : KeySpace) (key : String) (f : Fleet ι InProcess) : Event ι → Prop
  | .visit v => ∀ request, (f.limiters v.limiter).sent? v.now v.call = some request →
      request.key = space.storeKey key → request.IsExact (f.store.live? v.storeNow request.key)
  | .direct _ _ => True
  | .purge _ => True

/-- Limiters of one policy and one space of keys over an open store, in which the records of a key are
timely. -/
structure IsCommon (f : Fleet ι InProcess) (p : Policy) (space : KeySpace) (key : String)
    (now : Instant) : Prop where
  limiters_eq : f.limiters = fun _ => Limiter.new p space
  isOpen : f.store.isClosed = false
  isTimely : f.store.IsTimely p (space.storeKey key) now

variable {f : Fleet ι InProcess} {p : Policy} {space : KeySpace} {key : String} {now : Instant}
  {v : Visit ι}

omit [DecidableEq ι] in
theorem isCommon_fresh (p : Policy) (space : KeySpace) (key : String) (opened now : Instant)
    (encoding : Encoding) (interval : Duration) :
    (Fleet.fresh (fun _ : ι => Limiter.new p space) opened encoding interval).IsCommon p space key
      now :=
  ⟨rfl, rfl, InProcess.isTimely_open opened encoding interval⟩

omit [DecidableEq ι] in
theorem IsCommon.mono {later : Instant} (hf : f.IsCommon p space key now) (hle : now ≤ later) :
    f.IsCommon p space key later :=
  ⟨hf.limiters_eq, hf.isOpen, hf.isTimely.mono hle⟩

/-! ### One event -/

/-- A call that sends no request takes nothing. -/
theorem charge_of_sent?_eq_none (hsent : (f.limiters v.limiter).sent? v.now v.call = none) :
    f.charge key (.visit v) = 0 := by
  obtain ⟨i, now, storeNow, call⟩ := v
  cases call with
  | allow name n =>
    cases hrequest : (f.limiters i).request now name n with
    | ok request =>
      rw [Limiter.sent?_allow.mpr hrequest] at hsent
      cases hsent
    | error failure =>
      simp only [charge, visit, Limiter.perform, Limiter.allow_of_error hrequest, Visit.charge]
  | _ => rfl

/-- A call on another key takes nothing. -/
theorem charge_of_ne {name : String} {n : Int64} (hcall : v.call = .allow name n) (hne : name ≠ key) :
    f.charge key (.visit v) = 0 := by
  simp only [charge, Visit.charge, hcall]
  split
  · next hname _ =>
    obtain ⟨rfl, -⟩ := Call.allow.inj hname
    rw [if_neg]
    exact fun h => hne h.1
  · rfl

/-- A call for tokens of the key takes them if the settlement grants them. -/
theorem charge_allow (hf : f.IsCommon p space key now) {i : ι} {storeNow : Instant} {n : Int64}
    {request : Request}
    (hrequest : (f.limiters i).request storeNow key n = .ok request) :
    f.charge key (.visit ⟨i, storeNow, storeNow, .allow key n⟩) =
      if (request.settle (f.store.live? storeNow request.key)).isGranted then n.toInt else 0 := by
  have hkey : request.key = space.storeKey key := by
    obtain ⟨-, -, -, rfl⟩ := Limiter.request_eq_ok_iff.mp hrequest
    rw [hf.limiters_eq]
    rfl
  have hlive : ∀ r ∈ f.store.live? storeNow request.key, r.IsUnsigned := by
    rw [hkey]
    exact hf.isTimely.live?
  simp only [charge, visit, Limiter.perform, Limiter.allow_eq hlive hf.isOpen hrequest, Visit.charge]
  by_cases hzero : n = 0
  · simp [hzero]
  · simp [hzero]

omit [DecidableEq ι] in
/-- Where nothing happens to the key and nothing is taken, all is as it should be. -/
theorem level_of_untouched (f' : Fleet ι InProcess) (hf : f.IsCommon p space key now)
    (hlimiters : f'.limiters = f.limiters)
    (hstore : f.store.Untouched f'.store (space.storeKey key) now) {taken : ℤ} (htaken : taken = 0) :
    f'.IsCommon p space key now ∧
      f'.store.level p (space.storeKey key) now + taken ≤
        f.store.level p (space.storeKey key) now := by
  refine ⟨⟨hlimiters.trans hf.limiters_eq, hstore.isClosed_eq.trans hf.isOpen,
    hstore.isTimely hf.isTimely⟩, ?_⟩
  rw [hstore.level_eq, htaken, Int.cast_zero, add_zero]

/-- A call for tokens of the key lowers the level by what it takes. -/
theorem level_visit_of_sent {i : ι} {call : Call} {n : Int64} (hf : f.IsCommon p space key now)
    (hn : 0 ≤ n)
    (hsent : (f.limiters i).sent? now call = some (space.request p key now n))
    (hcall : call = .allow key n ∨ call = .remaining key ∧ n = 0)
    (hroom : n ≠ 0 → now.toInt + p.idle.millis ≤ Instant.latestMillis)
    (hexact : (space.request p key now n).IsExact (f.store.live? now (space.storeKey key))) :
    (f.store.execute now (space.request p key now n)).2.level p (space.storeKey key) now +
        f.charge key (.visit ⟨i, now, now, call⟩) ≤
      f.store.level p (space.storeKey key) now := by
  have hlevel := InProcess.level_execute hf.isOpen hf.isTimely hn hroom hexact
  rcases hcall with rfl | ⟨rfl, rfl⟩
  · rw [charge_allow hf (Limiter.sent?_allow.mp hsent)]
    push_cast
    exact hlevel
  · change _ + ((0 : ℤ) : ℚ) ≤ _
    simpa using hlevel

/-- A call on the clock of the store, neither a close nor a reset of the key, lowers the level of the key
by what it takes. -/
theorem level_visit {i : ι} {call : Call} (hf : f.IsCommon p space key now) (hclose : call ≠ .close)
    (hreset : call ≠ .reset key)
    (hroom : ∀ n, call = .allow key n → now.toInt + p.idle.millis ≤ Instant.latestMillis)
    (hexact : f.IsExactFor space key (.visit ⟨i, now, now, call⟩)) :
    (f.visit ⟨i, now, now, call⟩).2.IsCommon p space key now ∧
      (f.visit ⟨i, now, now, call⟩).2.store.level p (space.storeKey key) now +
          f.charge key (.visit ⟨i, now, now, call⟩) ≤
        f.store.level p (space.storeKey key) now := by
  have hlimiters : (f.visit ⟨i, now, now, call⟩).2.limiters = f.limiters := limiters_visit hclose
  rcases store_visit f ⟨i, now, now, call⟩ with ⟨request, hsent, hstore⟩ | ⟨name, rfl, hstore⟩ |
    ⟨rfl, -⟩ | ⟨hsent, hstore⟩
  · obtain ⟨name, n, hn, hrequest, hcall⟩ := Limiter.sent?_eq_some hsent
    rw [hf.limiters_eq] at hrequest
    change request = space.request p name now n at hrequest
    subst hrequest
    by_cases hname : name = key
    · subst hname
      have hroomed : n ≠ 0 → now.toInt + p.idle.millis ≤ Instant.latestMillis := by
        intro hne
        rcases hcall with hcall | ⟨-, hzero⟩
        · exact hroom n hcall
        · exact absurd hzero hne
      rw [hstore]
      refine ⟨⟨hlimiters.trans hf.limiters_eq, ?_, ?_⟩,
        level_visit_of_sent hf hn hsent hcall hroomed (hexact _ hsent rfl)⟩
      · rw [hstore, InProcess.execute_isClosed, hf.isOpen]
      · rw [hstore]
        exact InProcess.isTimely_execute hf.isTimely hn hroomed
    · refine level_of_untouched _ hf hlimiters ?_ ?_
      · rw [hstore]
        exact InProcess.untouched_execute fun h => hname (space.storeKey_injective h)
      · rcases hcall with hcall | ⟨hcall, -⟩
        · exact charge_of_ne hcall hname
        · subst hcall
          rfl
  · refine level_of_untouched _ hf hlimiters ?_ rfl
    rw [hstore, hf.limiters_eq]
    exact InProcess.untouched_delete fun h => hreset (congrArg _ (space.storeKey_injective h))
  · exact absurd rfl hclose
  · refine level_of_untouched _ hf hlimiters ?_ (charge_of_sent?_eq_none hsent)
    rw [hstore]
    exact InProcess.untouched_self _ _ _

/-- An event that spares the key lowers the level of the key by what it takes. -/
theorem level_step {e : Event ι} (hf : f.IsCommon p space key e.instant)
    (hspares : e.Spares p space key) (hexact : f.IsExactFor space key e) :
    (f.step e).IsCommon p space key e.instant ∧
      (f.step e).store.level p (space.storeKey key) e.instant + f.charge key e ≤
        f.store.level p (space.storeKey key) e.instant := by
  cases e with
  | visit v =>
    obtain ⟨i, now, storeNow, call⟩ := v
    obtain ⟨hclock, hclose, hreset, hroom⟩ := hspares
    obtain rfl : now = storeNow := hclock
    exact level_visit hf hclose hreset hroom hexact
  | direct storeNow call =>
    obtain ⟨hclose, hdelete, hexecute⟩ := hspares
    refine level_of_untouched (f.step (.direct storeNow call)) hf rfl ?_ rfl
    cases call with
    | execute request => exact InProcess.untouched_execute (hexecute request rfl)
    | fetch name =>
      change InProcess.Untouched _ (f.store.fetch storeNow name).2 _ _
      rw [InProcess.fetch_snd]
      exact InProcess.untouched_self _ _ _
    | delete name => exact InProcess.untouched_delete fun h => hdelete (congrArg _ h)
    | close => exact absurd rfl hclose
  | purge storeNow =>
    exact level_of_untouched (f.step (.purge storeNow)) hf rfl (InProcess.untouched_purge _ _ _) rfl

omit [DecidableEq ι] in
/-- A call for tokens of the key is exact if its draw is. -/
theorem isExactFor_allow {i : ι} {n : Int64} (hlimiter : f.limiters i = Limiter.new p space)
    (hexact : (space.request p key now n).IsExact (f.store.live? now (space.storeKey key))) :
    f.IsExactFor space key (.visit ⟨i, now, now, .allow key n⟩) := by
  intro request hsent _
  obtain ⟨-, -, -, rfl⟩ := Limiter.request_eq_ok_iff.mp (Limiter.sent?_allow.mp hsent)
  rw [hlimiter]
  exact hexact

/-! ### Runs -/

/-- Along a run what is taken and the level at the end are no more than the level at the beginning and
what flows in. -/
theorem granted_add_level_le
    (hidle : 1000 * (p.capacity.toInt : ℚ) ≤ p.rate.worth * p.idle.millis) {later : Instant}
    {events : List (Event ι)} (hf : f.IsCommon p space key now) (hle : now ≤ later)
    (hfrom : ∀ e ∈ events, now ≤ e.instant) (hto : ∀ e ∈ events, e.instant ≤ later)
    (hclock : events.Pairwise fun e e' => e.instant ≤ e'.instant)
    (hspares : ∀ e ∈ events, e.Spares p space key)
    (hexact : Along (IsExactFor space key) f events) :
    (f.run events).IsCommon p space key later ∧
      granted key f events + (f.run events).store.level p (space.storeKey key) later ≤
        f.store.level p (space.storeKey key) now + p.inflowBetween now later := by
  induction events generalizing f now with
  | nil =>
    refine ⟨hf.mono hle, ?_⟩
    rw [granted, Int.cast_zero, zero_add]
    exact InProcess.level_le_add hidle hf.isTimely hle
  | cons e events ih =>
    have hnow : now ≤ e.instant := hfrom e List.mem_cons_self
    obtain ⟨hlater, htoRest⟩ := List.forall_mem_cons.mp hto
    obtain ⟨hfromRest, hclockRest⟩ := List.pairwise_cons.mp hclock
    obtain ⟨hspare, hsparesRest⟩ := List.forall_mem_cons.mp hspares
    obtain ⟨hcommon, hstep⟩ := level_step (hf.mono hnow) hspare hexact.1
    obtain ⟨hend, hrun⟩ := ih hcommon hlater hfromRest htoRest hclockRest hsparesRest hexact.2
    refine ⟨hend, ?_⟩
    have hrise := InProcess.level_le_add hidle hf.isTimely hnow
    have hflow := p.inflowBetween_add now e.instant later
    rw [run_cons, granted, Int.cast_add]
    linarith

/-- Limiters of one policy over one store, on one clock that never runs backwards: in any part of a run,
from some event to a later one, the allowed calls on a key take no more tokens than the capacity and what
flows in between the two. -/
theorem granted_le (p : Policy) (space : KeySpace) (key : String)
    (hidle : 1000 * (p.capacity.toInt : ℚ) ≤ p.rate.worth * p.idle.millis) (opened : Instant)
    (encoding : Encoding) (interval : Duration) (before : List (Event ι)) (first : Event ι)
    (rest : List (Event ι))
    (hclock : (before ++ first :: rest).Pairwise fun e e' => e.instant ≤ e'.instant)
    (hspares : ∀ e ∈ before ++ first :: rest, e.Spares p space key)
    (hexact : Along (IsExactFor space key)
      (Fleet.fresh (fun _ : ι => Limiter.new p space) opened encoding interval)
      (before ++ first :: rest)) :
    let f := (Fleet.fresh (fun _ : ι => Limiter.new p space) opened encoding interval).run before
    let last := (first :: rest).getLast (List.cons_ne_nil first rest)
    (granted key f (first :: rest) : ℚ) ≤ p.capacity.toInt +
      p.rate.worth * ((last.instant.toInt : ℚ) - first.instant.toInt) / 1000 := by
  intro f last
  obtain ⟨hbefore, hwindow, hcross⟩ := List.pairwise_append.mp hclock
  obtain ⟨hsparesBefore, hsparesWindow⟩ := List.forall_mem_append.mp hspares
  obtain ⟨hexactBefore, hexactWindow⟩ := along_append.mp hexact
  -- the run before the window
  obtain ⟨hcommon, -⟩ := granted_add_level_le hidle
    (isCommon_fresh p space key opened Int64.minValue encoding interval)
    (Int64.minValue_le first.instant) (fun e _ => Int64.minValue_le e.instant)
    (fun e he => hcross e he first List.mem_cons_self) hbefore hsparesBefore hexactBefore
  -- the window
  have hlast : ∀ e ∈ first :: rest, e.instant ≤ last.instant := fun e he =>
    hwindow.rel_getLast_of_rel_getLast_getLast he (Int64.le_refl _)
  have hfirst : ∀ e ∈ first :: rest, first.instant ≤ e.instant := by
    intro e he
    rcases List.mem_cons.mp he with rfl | he
    · exact Int64.le_refl _
    · exact (List.pairwise_cons.mp hwindow).1 e he
  obtain ⟨hend, hrun⟩ := granted_add_level_le hidle hcommon (hlast first List.mem_cons_self) hfirst hlast
    hwindow hsparesWindow hexactWindow
  have hnonneg : 0 ≤ (f.run (first :: rest)).store.level p (space.storeKey key) last.instant :=
    hend.isTimely.level_nonneg
  have hfull := InProcess.level_le f.store p (space.storeKey key) first.instant
  change _ ≤ (p.capacity.toInt : ℚ) + p.inflowBetween first.instant last.instant
  linarith

/-- Two limiters of the usual policy take 23 tokens within half a second, where 25 would be the most. -/
theorem granted_le_standard :
    let f := Fleet.fresh (fun _ : Fin 2 => Limiter.new .standard .standard) 0 .boolean
      InProcess.standardSweepInterval
    let first : Event (Fin 2) := .visit ⟨0, 1000, 1000, .allow "k" 5⟩
    let last : Event (Fin 2) := .visit ⟨1, 1500, 1500, .allow "k" 18⟩
    granted "k" f [first, last] = 23 ∧
      (granted "k" f [first, last] : ℚ) ≤ Policy.standard.capacity.toInt +
        Policy.standard.rate.worth * ((last.instant.toInt : ℚ) - first.instant.toInt) / 1000 := by
  intro f first last
  have hfirst : (KeySpace.standard.request .standard "k" 1000 5).IsExact none := by
    constructor <;> decide +kernel
  have hlast : (KeySpace.standard.request .standard "k" 1500 18).IsExact
      (some ⟨.ofInt 15, 1000⟩) := by
    constructor <;> decide +kernel
  have hlive : (f.step first).store.live? 1500 (KeySpace.standard.storeKey "k") =
      some ⟨.ofInt 15, 1000⟩ := by
    decide +kernel
  have hspares : ∀ e ∈ [first, last], e.Spares .standard .standard "k" := by
    intro e he
    rcases List.mem_cons.mp he with rfl | he
    · exact ⟨rfl, by decide, by decide, fun n _ => by decide⟩
    · obtain rfl := List.mem_singleton.mp he
      exact ⟨rfl, by decide, by decide, fun n _ => by decide⟩
  have hexact : Along (IsExactFor .standard "k") f [first, last] :=
    ⟨isExactFor_allow rfl hfirst, isExactFor_allow rfl (hlive ▸ hlast), trivial⟩
  refine ⟨by decide +kernel, ?_⟩
  exact granted_le .standard .standard "k" (by decide +kernel) 0 .boolean
    InProcess.standardSweepInterval [] first [last] (by decide) hspares hexact

end Fleet

end TokenBucket
