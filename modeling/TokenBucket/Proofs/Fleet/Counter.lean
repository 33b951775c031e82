import TokenBucket.Proofs.Bucket.Whole
import TokenBucket.Proofs.Fleet.Soundness

/-!
# A counter while the clocks stand still

While both clocks stand still a limiter of a capacity of at most 53 bits counts tokens. Whatever has
happened before, and whatever fraction of a token the bucket of a key holds besides: the calls on that key
see one number, from which each call takes what it asks for, if the number covers it
(`Limiter.Counts.allow`). The number is the whole part of the balance that the next draw finds. A draw
leaves it smaller by what it has taken, and nothing flows in before the next one.

## Main definitions

* `Decision.counted`: the decisions of a counter.
* `Limiter.Counts`: a limiter finds a number of whole tokens for a key.

## Main results

* `Limiter.Counts.allow`: how a call is answered, and what the next one finds.
* `Limiter.exists_counts`: a limiter that has answered finds what it has told.
* `Limiter.counts_of_live?_eq_none`: for a key without a record it finds the capacity.
* `Fleet.counts_down`.
-/

namespace TokenBucket

open Binary64

/-- What a counter says to a demand. -/
def Decision.counted (count demand : ℕ) : Decision :=
  ⟨decide (demand ≤ count), Int64.ofNat (countDown count demand)⟩

/-- The same, if the count and the demand have 64 bits. -/
theorem Decision.counted_eq {count : ℕ} (hcount : count < 2 ^ 63) {n : Int64} (hn : 0 ≤ n) :
    counted count n.toInt.toNat =
      ⟨decide (n ≤ .ofNat count),
        if 1 ≤ n ∧ n ≤ .ofNat count then .ofNat count - n else .ofNat count⟩ := by
  rw [Int64.le_iff_toInt_le, Int64.toInt_zero] at hn
  have hn' : n = Int64.ofNat n.toInt.toNat := by
    rw [← Int64.ofInt_eq_ofNat, Int.toNat_of_nonneg hn, Int64.ofInt_toInt]
  have hle : n ≤ Int64.ofNat count ↔ n.toInt.toNat ≤ count := by
    rw [Int64.le_iff_toInt_le, Int64.toInt_ofNat_of_lt hcount]
    omega
  have hone : 1 ≤ n ↔ n.toInt.toNat ≠ 0 := by
    rw [Int64.le_iff_toInt_le, Int64.toInt_one]
    omega
  simp only [counted, countDown, hle, hone]
  by_cases hcovers : n.toInt.toNat ≤ count
  · by_cases hzero : n.toInt.toNat = 0
    · simp [hzero]
    · rw [if_pos hcovers, if_pos ⟨hzero, hcovers⟩, Int64.ofNat_sub _ _ hcovers, ← hn']
  · rw [if_neg hcovers, if_neg fun h => hcovers h.2]

namespace Limiter

variable {l : Limiter} {now storeNow : Instant} {key : String} {s : InProcess} {count : ℕ} {n : Int64}

/-- A limiter is ready to answer calls on a key, and a draw finds that many whole tokens for it. -/
structure Counts (l : Limiter) (now storeNow : Instant) (key : String) (s : InProcess) (count : ℕ) :
    Prop where
  key_ne_empty : key ≠ ""
  isOpen : l.isClosed = false
  store_isOpen : s.isClosed = false
  holdsUnsigned : s.HoldsUnsigned
  offered_eq : (s.offered storeNow (l.keys.request l.policy key now 0)).truncate = count

/-- What is offered for a key in whole tokens, in rungs. -/
theorem truncate_offered (hs : s.HoldsUnsigned) (l : Limiter) (now storeNow : Instant) (key : String)
    (hn : 0 ≤ n) :
    (s.offered storeNow (l.keys.request l.policy key now n)).truncate =
      ((l.keys.request l.policy key now n).availableRung
        (s.live? storeNow (l.keys.storeKey key))).floor := by
  rw [InProcess.offered, Draw.available_eq (l.keys.request_isValid l.policy key now hn) hs.live?]
  rfl

theorem Counts.floor_eq (h : l.Counts now storeNow key s count) :
    ((l.keys.request l.policy key now 0).availableRung
      (s.live? storeNow (l.keys.storeKey key))).floor = count := by
  have hcount := h.offered_eq
  rwa [truncate_offered h.holdsUnsigned l now storeNow key (Int64.le_refl 0), Nat.cast_inj] at hcount

/-- A count does not go beyond 53 bits. -/
theorem Counts.lt (h : l.Counts now storeNow key s count)
    (hcapacity : l.policy.capacity.toInt < 2 ^ 53) : count < 2 * Rung.block := by
  rw [← h.floor_eq]
  exact Rung.floor_lt ((Draw.availableRung_le _ _).trans_lt (Rung.ofCapacity_lt hcapacity))

/-- How a call on the key is settled. -/
theorem Counts.exists_settle (h : l.Counts now storeNow key s count)
    (hcapacity : l.policy.capacity.toInt < 2 ^ 53) (hn : 0 ≤ n) :
    let request := l.keys.request l.policy key now n
    let settlement := request.settle (s.live? storeNow request.key)
    settlement.isGranted = Decidable.decide (n.toInt.toNat ≤ count) ∧
      ∃ q : Rung, settlement.tokens = .number false q ∧ q < .whole (2 * Rung.block) ∧
        q.floor = countDown count n.toInt.toNat := by
  intro request settlement
  have hvalid : request.IsValid := l.keys.request_isValid l.policy key now hn
  have hlive : ∀ r ∈ s.live? storeNow request.key, r.IsUnsigned := h.holdsUnsigned.live?
  have hcount : (request.availableRung (s.live? storeNow request.key)).floor = count := h.floor_eq
  obtain ⟨hgranted, q, hq, hle, hfloor⟩ := Draw.exists_settle hvalid hlive hcapacity
  rw [hcount] at hgranted hfloor
  exact ⟨hgranted, q, hq, hle.trans_lt (Rung.ofCapacity_lt hcapacity), hfloor⟩

/-- While the clocks stand still a call is answered by the count, and leaves to the next call what it says
is left. -/
theorem Counts.allow (h : l.Counts now storeNow key s count)
    (hcapacity : l.policy.capacity.toInt < 2 ^ 53) (hstore : storeNow < Instant.latest) (hn : 0 ≤ n) :
    (l.allow now storeNow key n s).1 = .ok (.counted count n.toInt.toNat) ∧
      l.Counts now storeNow key (l.allow now storeNow key n s).2 (countDown count n.toInt.toNat) := by
  have hrequest : l.request now key n = .ok (l.keys.request l.policy key now n) :=
    request_eq_ok_iff.mpr ⟨hn, h.key_ne_empty, h.isOpen, rfl⟩
  have hvalid := request_isValid hrequest
  obtain ⟨hgranted, q, hq, hlt, hfloor⟩ := h.exists_settle hcapacity hn
  have hallow : l.allow now storeNow key n s = _ :=
    allow_eq h.holdsUnsigned.live? h.store_isOpen hrequest
  constructor
  · rw [hallow, hgranted, hq, Encoding.saturateInt64_carried _ hlt, hfloor]
    by_cases hzero : n = 0
    · subst hzero
      rfl
    · simp [hzero, Decision.counted]
  · rw [allow_snd hrequest]
    refine ⟨h.key_ne_empty, h.isOpen, ?_, InProcess.holdsUnsigned_execute h.holdsUnsigned hvalid, ?_⟩
    · rw [InProcess.execute_isClosed, h.store_isOpen]
    · change (InProcess.offered _ storeNow (l.keys.request l.policy key now n)).truncate = _
      rw [InProcess.offered_execute_self h.holdsUnsigned h.store_isOpen hstore hvalid
        (InProcess.ttl_pos _ _ _ _ _), hq, truncate_number, ← hfloor]
      rfl

/-- A single token is taken from a count that is not zero. -/
theorem Counts.allow_one (h : l.Counts now storeNow key s count)
    (hcapacity : l.policy.capacity.toInt < 2 ^ 53) (hstore : storeNow < Instant.latest) :
    (l.allow now storeNow key 1 s).1 = .ok ⟨Decidable.decide (0 < count), Int64.ofNat (count - 1)⟩ ∧
      l.Counts now storeNow key (l.allow now storeNow key 1 s).2 (count - 1) := by
  have hallow := h.allow hcapacity hstore (show 0 ≤ (1 : Int64) by decide)
  rwa [show (Int64.toInt 1).toNat = 1 from rfl, Decision.counted, countDown_one] at hallow

/-- A limiter that has answered a call finds for the next one what it has said is left. -/
theorem exists_counts (hs : s.HoldsUnsigned) (hcapacity : l.policy.capacity.toInt < 2 ^ 53)
    (hstore : storeNow < Instant.latest) {d : Decision}
    (hanswer : (l.allow now storeNow key n s).1 = .ok d) :
    ∃ left : ℕ, d.remaining = Int64.ofNat left ∧
      l.Counts now storeNow key (l.allow now storeNow key n s).2 left := by
  obtain ⟨hrequest, hstoreOpen⟩ := request_of_allow_eq_ok hanswer
  obtain ⟨hn, hkey, hopen, -⟩ := request_eq_ok_iff.mp hrequest
  have hcounts : l.Counts now storeNow key s _ := ⟨hkey, hopen, hstoreOpen, hs,
    truncate_offered hs l now storeNow key (Int64.le_refl 0)⟩
  obtain ⟨hcounted, hafter⟩ := hcounts.allow hcapacity hstore hn
  rw [hcounted] at hanswer
  obtain rfl := Except.ok.inj hanswer
  exact ⟨_, rfl, hafter⟩

/-- For a key without a record the capacity is found. -/
theorem counts_of_live?_eq_none (hkey : key ≠ "") (hopen : l.isClosed = false)
    (hstore : s.isClosed = false) (hs : s.HoldsUnsigned) (hcapacity : l.policy.capacity.toInt < 2 ^ 53)
    (hlive : s.live? storeNow (l.keys.storeKey key) = none) :
    l.Counts now storeNow key s l.policy.capacity.toInt.toNat := by
  refine ⟨hkey, hopen, hstore, hs, ?_⟩
  have hbits : l.policy.capacity.toInt.toNat ≤ 2 * Rung.block := by
    have : (2 : ℤ) ^ 53 = (2 * Rung.block : ℕ) := by decide
    omega
  rw [truncate_offered hs l now storeNow key (Int64.le_refl 0), hlive, Nat.cast_inj]
  exact Rung.floor_whole hbits

end Limiter

/-! ### Runs -/

namespace Fleet

variable {ι : Type} [DecidableEq ι] {f : Fleet ι InProcess} {i : ι} {now storeNow : Instant}
  {key : String} {count : ℕ}

/-- Single tokens asked for one after the other are counted down. -/
theorem counts_after_replicate (hcapacity : (f.limiters i).policy.capacity.toInt < 2 ^ 53)
    (hstore : storeNow < Instant.latest)
    (h : (f.limiters i).Counts now storeNow key f.store count) (k : ℕ) :
    (f.after (List.replicate k ⟨i, now, storeNow, .allow key 1⟩)).limiters = f.limiters ∧
      (f.limiters i).Counts now storeNow key
        (f.after (List.replicate k ⟨i, now, storeNow, .allow key 1⟩)).store (count - k) := by
  induction k with
  | zero => exact ⟨rfl, h⟩
  | succ k ih =>
    obtain ⟨hlimiters, hcounts⟩ := ih
    obtain ⟨-, hnext⟩ := hcounts.allow_one hcapacity hstore
    rw [List.replicate_succ', after_append, after_cons, after_nil, visit_allow, hlimiters]
    exact ⟨rfl, hnext⟩

/-- While both clocks stand still, a limiter of a capacity of at most 53 bits counts tokens, whatever
limiters have shared its store and whatever calls have been made before, those of the same moment included.
A call is allowed exactly if the call before it has told of as many tokens; the tokens it tells of are fewer
by those it takes. From a key without a record single tokens can be taken as many times as the capacity
says, and no more. -/
theorem counts_down (limiters : ι → Limiter) (opened : Instant) (encoding : Encoding)
    (interval : Duration) (visits : List (Visit ι)) (i : ι) (now storeNow : Instant) (key : String)
    (hcapacity : (limiters i).policy.capacity.toInt < 2 ^ 53) (hstore : storeNow < Instant.latest) :
    let f := (Fleet.fresh limiters opened encoding interval).after visits
    let ask (n : Int64) : Visit ι := ⟨i, now, storeNow, .allow key n⟩
    (∀ (m n : Int64) (d : Decision), (f.visit (ask m)).1 = .decision (.ok d) → 0 ≤ n →
      ((f.visit (ask m)).2.visit (ask n)).1 = .decision (.ok
        ⟨decide (n ≤ d.remaining),
          if 1 ≤ n ∧ n ≤ d.remaining then d.remaining - n else d.remaining⟩)) ∧
    (key ≠ "" → (f.limiters i).isClosed = false → f.store.isClosed = false →
      f.store.live? storeNow ((limiters i).keys.storeKey key) = none →
      ∀ k : ℕ, ((f.after (List.replicate k (ask 1))).visit (ask 1)).1 = .decision (.ok
        ⟨decide (k < (limiters i).policy.capacity.toInt.toNat),
          Int64.ofNat ((limiters i).policy.capacity.toInt.toNat - (k + 1))⟩)) := by
  intro f ask
  have hs : f.store.HoldsUnsigned :=
    holdsUnsigned_after (InProcess.holdsUnsigned_open opened encoding interval) visits
  have hpolicy : (f.limiters i).policy = (limiters i).policy := policy_after visits i
  have hkeys : (f.limiters i).keys = (limiters i).keys := keys_after visits i
  rw [← hpolicy] at hcapacity
  constructor
  · intro m n d hanswer hn
    rw [visit_allow] at hanswer
    obtain ⟨left, hleft, hcounts⟩ :=
      Limiter.exists_counts hs hcapacity hstore (Answer.decision.inj hanswer)
    obtain ⟨hnext, -⟩ := hcounts.allow hcapacity hstore hn
    rw [visit_allow, visit_allow]
    simp only
    have hbits : left < 2 ^ 63 := (hcounts.lt hcapacity).trans (by decide)
    rw [hnext, hleft, Decision.counted_eq hbits hn]
  · intro hkey hopen hstoreOpen hlive k
    rw [← hkeys] at hlive
    rw [← hpolicy]
    obtain ⟨hlimiters, hcounts⟩ := counts_after_replicate hcapacity hstore
      (Limiter.counts_of_live?_eq_none hkey hopen hstoreOpen hs hcapacity hlive) k
    obtain ⟨hanswer, -⟩ := hcounts.allow_one hcapacity hstore
    simp only [Nat.sub_pos_iff_lt, Nat.sub_sub] at hanswer
    rw [visit_allow, hlimiters]
    exact congrArg Answer.decision hanswer

/-- A bucket of twenty tokens is emptied, and a quarter of a second later, while the clock of the store
still stands, it holds two and a half tokens. One can be taken, and then there is one left, but not two. -/
theorem counts_down_standard :
    let f := (Fleet.fresh (fun _ : Fin 2 => Limiter.new .standard .standard) 0 .count ⟨0⟩).after
      [⟨1, 0, 0, .allow "k" 20⟩]
    let ask (key : String) (n : Int64) : Visit (Fin 2) := ⟨0, 250, 0, .allow key n⟩
    (f.visit (ask "k" 1)).1 = .decision (.ok ⟨true, 1⟩) ∧
      ((f.visit (ask "k" 1)).2.visit (ask "k" 2)).1 = .decision (.ok ⟨false, 1⟩) ∧
      ∀ k : ℕ, ((f.after (List.replicate k (ask "j" 1))).visit (ask "j" 1)).1 =
        .decision (.ok ⟨decide (k < 20), Int64.ofNat (20 - (k + 1))⟩) := by
  intro f ask
  have hcounts (key : String) := counts_down (fun _ : Fin 2 => Limiter.new .standard .standard) 0 .count
    ⟨0⟩ [⟨1, 0, 0, .allow "k" 20⟩] 0 250 0 key (by decide) (by decide)
  have hfirst : (f.visit (ask "k" 1)).1 = .decision (.ok ⟨true, 1⟩) :=
    congrArg Answer.decision (by decide +kernel)
  exact ⟨hfirst, (hcounts "k").1 1 2 _ hfirst (by decide),
    (hcounts "j").2 (by decide) rfl rfl (by decide +kernel)⟩

end Fleet

end TokenBucket
