import TokenBucket.Proofs.Bucket.Exact
import TokenBucket.Proofs.Store.Served

/-!
# The level of a bucket in a store

On a clock that the store shares with those who ask it, the level of a bucket does not notice that a record
expires, if the idle time is long enough to fill the bucket: what has been left alone for so long is full
anyway. So from any instant to a later one the level rises by what flows in, up to the capacity
(`InProcess.level_later`), and an exact request takes from it what it is granted and nothing else
(`InProcess.level_execute`).

## Main definitions

* `Held.IsTimely`, `InProcess.IsTimely`: the records of a key are what such a clock makes of them.
* `InProcess.level`: the level of a bucket.

## Main results

* `InProcess.level_later`, `InProcess.level_le_add`.
* `InProcess.level_execute_self`, `InProcess.level_execute`.
* `InProcess.isTimely_execute`: a request keeps the records timely.
-/

namespace TokenBucket

open Binary64

/-- A record as the requests of a policy write it on a common clock: no sign, an instant that has come,
and an expiration as much later as the idle time is long. -/
structure Held.IsTimely (h : Held) (p : Policy) (now : Instant) : Prop where
  isUnsigned : h.record.IsUnsigned
  refilledAt_le : h.record.refilledAt ≤ now
  expiresAt_eq : h.expiresAt.toInt = h.record.refilledAt.toInt + p.idle.millis

namespace InProcess

/-- Whatever is held for a key is timely. -/
def IsTimely (s : InProcess) (p : Policy) (key : String) (now : Instant) : Prop :=
  ∀ h, s.buckets.get? key = some h → h.IsTimely p now

/-- The level of the bucket of a key. -/
def level (s : InProcess) (p : Policy) (key : String) (now : Instant) : ℚ :=
  p.level (s.live? now key) now

variable {s s' : InProcess} {p : Policy} {key : String} {now later : Instant}

theorem isTimely_open (opened : Instant) (encoding : Encoding) (interval : Duration) :
    (InProcess.open opened encoding interval).IsTimely p key now := by
  rintro h ⟨⟩

theorem IsTimely.mono (hs : s.IsTimely p key now) (hle : now ≤ later) : s.IsTimely p key later := by
  intro h hheld
  obtain ⟨hunsigned, hat, hexpires⟩ := hs h hheld
  exact ⟨hunsigned, Int64.le_trans hat hle, hexpires⟩

theorem IsTimely.live? (hs : s.IsTimely p key now) : ∀ r ∈ s.live? later key, r.IsUnsigned := by
  intro r hr
  obtain ⟨h, hheld, -, rfl⟩ := live?_eq_some_iff.mp hr
  exact (hs h hheld).isUnsigned

theorem Untouched.isTimely (h : s.Untouched s' key now) (hs : s.IsTimely p key now) :
    s'.IsTimely p key now := fun h' hheld => hs h' (h.held h' hheld)

theorem Untouched.level_eq (h : s.Untouched s' key now) : s'.level p key now = s.level p key now := by
  rw [level, level, h.live?_eq now (Int64.le_refl now)]

theorem level_le (s : InProcess) (p : Policy) (key : String) (now : Instant) :
    s.level p key now ≤ p.capacity.toInt := p.level_le _ now

theorem IsTimely.level_nonneg (hs : s.IsTimely p key now) : 0 ≤ s.level p key later :=
  p.level_nonneg hs.live? later

/-- In some time the level rises by what flows in, up to the capacity, whether or not a record expires. -/
theorem level_later (hidle : 1000 * (p.capacity.toInt : ℚ) ≤ p.rate.worth * p.idle.millis)
    (hs : s.IsTimely p key now) (hle : now ≤ later) :
    s.level p key later =
      min (p.capacity.toInt : ℚ) (s.level p key now + p.inflowBetween now later) := by
  have hflow := p.inflowBetween_nonneg hle
  cases hlater : s.live? later key with
  | some r =>
    obtain ⟨h, hheld, hlive, rfl⟩ := live?_eq_some_iff.mp hlater
    have hnow : s.live? now key = some h.record :=
      live?_eq_some_iff.mpr ⟨h, hheld, Held.isLive_of_le hle hlive, rfl⟩
    rw [level, level, hlater, hnow]
    exact Policy.level_some_later (hs h hheld).refilledAt_le hle
  | none =>
    -- what is not there is full, and what is no longer there would have been full by now
    rw [level, hlater]
    refine (min_eq_left ?_).symm
    cases hnow : s.live? now key with
    | none =>
      rw [level, hnow]
      exact le_add_of_nonneg_right hflow
    | some r =>
      obtain ⟨h, hheld, -, rfl⟩ := live?_eq_some_iff.mp hnow
      obtain ⟨hunsigned, -, hexpires⟩ := hs h hheld
      have hdead : ¬ later < h.expiresAt := by
        intro hlt
        have hlive := live?_eq_some_iff.mpr ⟨h, hheld, decide_eq_true hlt, rfl⟩
        rw [hlater] at hlive
        cases hlive
      rw [Int64.not_lt, Int64.le_iff_toInt_le, hexpires] at hdead
      rw [level, hnow]
      exact Policy.capacity_le_level_some_add hidle hunsigned hle hdead

/-- In some time the level rises by no more than what flows in. -/
theorem level_le_add (hidle : 1000 * (p.capacity.toInt : ℚ) ≤ p.rate.worth * p.idle.millis)
    (hs : s.IsTimely p key now) (hle : now ≤ later) :
    s.level p key later ≤ s.level p key now + p.inflowBetween now later := by
  rw [level_later hidle hs hle]
  exact min_le_right _ _

/-! ### Requests on the clock of the store -/

section Request

variable {space : KeySpace} {name : String} {n : Int64}

theorem millis_idle_le (p : Policy) : p.idle.millis ≤ Instant.latestMillis :=
  p.idle_millis_le.trans (by decide)

/-- With room for it the expiration comes as much later as the idle time is long. -/
theorem toInt_deadline (hroom : now.toInt + p.idle.millis ≤ Instant.latestMillis) :
    (deadline now (space.request p name now n)).toInt = now.toInt + p.idle.millis := by
  have httl : (space.request p name now n).ttl.toNat = p.idle.millis := p.toNat_idleMillis
  rw [deadline, httl, min_eq_left (millis_idle_le p), Instant.toInt_after, min_eq_left hroom]

/-- With room for an expiration the clock of the store has not come to its end. -/
theorem lt_latest (hroom : now.toInt + p.idle.millis ≤ Instant.latestMillis) :
    now < Instant.latest := by
  have hlatest : Instant.latest.toInt = Instant.latestMillis := by decide
  have hidle := p.one_le_millis
  rw [Int64.lt_iff_toInt_lt, hlatest]
  omega

variable (hopen : s.isClosed = false) (hs : s.IsTimely p (space.storeKey name) now) (hn : 0 ≤ n)
  (hroom : n ≠ 0 → now.toInt + p.idle.millis ≤ Instant.latestMillis)

include hs hn hroom in
/-- A request keeps the records of its key timely. -/
theorem isTimely_execute :
    (s.execute now (space.request p name now n)).2.IsTimely p (space.storeKey name) now := by
  intro h hheld
  rcases held_execute hheld with hold | ⟨-, -, r, hr, rfl⟩
  · exact hs h hold
  · have hne : n ≠ 0 := by
      intro hzero
      rw [Draw.record?_settle_of_look hzero] at hr
      cases hr
    have hbalance := Draw.settle_isBalance (space.request_isValid p name now hn)
      (hs.live? : ∀ r ∈ s.live? now (space.storeKey name), r.IsUnsigned)
    have htokens := Settlement.tokens_of_record? hr
    rw [Draw.record?_settle hne] at hr
    obtain rfl := Option.some.inj hr
    exact {
      isUnsigned := Record.isUnsigned_of_isBalance hbalance
      refilledAt_le := Int64.le_refl now
      expiresAt_eq := toInt_deadline (hroom hne) }

include hopen hroom in
/-- What a request leaves in its bucket: a look leaves the level as it was, a draw what its settlement
leaves. -/
theorem level_execute_self :
    (s.execute now (space.request p name now n)).2.level p (space.storeKey name) now =
      if n = 0 then s.level p (space.storeKey name) now
      else min (p.capacity.toInt : ℚ)
        ((space.request p name now n).settle (s.live? now (space.storeKey name))).tokens.worth := by
  split
  · next hzero =>
    rw [level, live?_execute_of_look hopen (Int64.le_refl now) (Draw.record?_settle_of_look hzero),
      ← level]
  · next hzero =>
    have hlive : (s.execute now (space.request p name now n)).2.live? now (space.storeKey name) = _ :=
      live?_execute_self hopen (lt_latest (hroom hzero)) (ttl_pos p space name now n)
    rw [level, hlive, Draw.leaves_of_ne hzero]
    exact Policy.level_some_self _

include hopen hs hn hroom in
/-- An exact request takes from the level what it is granted. -/
theorem level_execute
    (hexact : (space.request p name now n).IsExact (s.live? now (space.storeKey name))) :
    (s.execute now (space.request p name now n)).2.level p (space.storeKey name) now +
        (if ((space.request p name now n).settle (s.live? now (space.storeKey name))).isGranted
          then (n.toInt : ℚ) else 0) ≤
      s.level p (space.storeKey name) now := by
  have havailable : _ = s.level p (space.storeKey name) now :=
    space.worth_available_request p name now hn hs.live? hexact
  have hsettle := hexact.worth_settle
  rw [havailable] at hsettle
  rw [level_execute_self hopen hroom, ← hsettle]
  refine add_le_add_left ?_ _
  split
  · next hzero =>
    subst hzero
    simp [KeySpace.request]
  · exact min_le_right _ _

end Request

end InProcess

end TokenBucket
