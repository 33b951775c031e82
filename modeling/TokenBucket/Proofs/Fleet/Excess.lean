import TokenBucket.Proofs.Bucket.Whole
import TokenBucket.Proofs.Fleet.Soundness

/-!
# More tokens than the bucket holds

A bucket never holds more than its capacity, so a call for more tokens than that can be expected to be
denied whatever has happened before. But the balance is compared with the tokens asked for only after both
have become doubles, and above `2 ^ 53` different integers can become the same double. If the tokens asked
for and the capacity do, a full bucket covers the demand, and the tokens that are in excess are granted with
the others.

So such calls are always denied exactly if the capacity is less than the tokens asked for as a double too
(`Policy.alwaysDenies_iff`). That is the case for all capacities below `2 ^ 53`.

## Main definitions

* `Policy.AlwaysDenies`: a call for that many tokens is denied wherever it is answered.

## Main results

* `Draw.isGranted_settle_of_lt`, `Draw.isGranted_settle_none`: draws that are denied to any bucket, and draws
  that a full bucket grants.
* `Limiter.allowed_eq`, `Limiter.allowed_of_ofCapacity_lt`.
* `Policy.alwaysDenies_iff`.
-/

namespace TokenBucket

open Binary64

/-! ### Demands and capacities -/

namespace Rung

/-- Below `2 ^ 53` different capacities are different doubles. -/
theorem ofCapacity_lt_ofCapacity {capacity n : Int64} (hcapacity : capacity.toInt < 2 ^ 53)
    (hpos : 1 ≤ capacity) (h : capacity < n) : ofCapacity capacity < ofCapacity n := by
  rw [Int64.lt_iff_toInt_lt] at h
  rw [Int64.le_iff_toInt_le, Int64.toInt_one] at hpos
  have hbits : (2 : ℤ) ^ 53 = (2 * block : ℕ) := by decide
  calc ofCapacity capacity < whole (capacity.toInt.toNat + 1) := by
        rw [← units_lt_units, ofCapacity, units_whole (by omega), units_whole (by omega)]
        exact Nat.mul_lt_mul_of_pos_right (Nat.lt_succ_self _) unitsPerOne_pos
    _ ≤ ofCapacity n := whole_le_whole (by omega)

end Rung

namespace Draw

variable {d : Draw} {held : Option Record}

/-- A draw that asks for more than the capacity, both as doubles, is denied whatever it finds. -/
theorem isGranted_settle_of_lt (hd : d.IsValid) (hheld : ∀ r ∈ held, r.IsUnsigned) (hne : d.requested ≠ 0)
    (hlt : .ofCapacity d.capacity < d.demandRung) : (d.settle held).isGranted = false := by
  have hnot : ¬ d.demandRung ≤ d.availableRung held :=
    not_le.mpr ((d.availableRung_le held).trans_lt hlt)
  rw [settle_eq hd hheld, if_neg hne, if_neg hnot]
  rfl

/-- A draw that asks for no more than the capacity, both as doubles, is granted by a full bucket. -/
theorem isGranted_settle_none (hd : d.IsValid) (hle : d.demandRung ≤ .ofCapacity d.capacity) :
    (d.settle none).isGranted = true := by
  rw [settle_eq hd (by rintro r ⟨⟩)]
  split
  · rfl
  · rw [if_pos (show d.demandRung ≤ d.availableRung none from hle)]
    rfl

end Draw

/-- More tokens than the capacity are some. -/
theorem Policy.one_le_of_capacity_lt {p : Policy} {n : Int64} (hn : p.capacity < n) : 1 ≤ n :=
  Int64.le_of_lt (Int64.lt_of_le_of_lt p.one_le_capacity hn)

theorem Policy.ne_zero_of_capacity_lt {p : Policy} {n : Int64} (hn : p.capacity < n) : n ≠ 0 := by
  rintro rfl
  exact absurd (p.one_le_of_capacity_lt hn) (by decide)

/-! ### Limiters and runs -/

/-- What a limiter decides is what the draw comes to. -/
theorem Limiter.allowed_eq {l : Limiter} {now storeNow : Instant} {key : String} {n : Int64}
    {s : InProcess} (hs : s.HoldsUnsigned) (hne : n ≠ 0) {d : Decision}
    (h : (l.allow now storeNow key n s).1 = .ok d) :
    d.allowed = ((l.keys.request l.policy key now n).settle
      (s.live? storeNow (l.keys.storeKey key))).isGranted := by
  obtain ⟨hrequest, hopen⟩ := request_of_allow_eq_ok h
  rw [allow_eq hs.live? hopen hrequest] at h
  have hdecision := Except.ok.inj h
  rw [← hdecision, beq_false_of_ne hne, Bool.false_or]
  rfl

/-- A limiter denies what is more than its capacity as a double too. -/
theorem Limiter.allowed_of_ofCapacity_lt {l : Limiter} {now storeNow : Instant} {key : String} {n : Int64}
    {s : InProcess} (hs : s.HoldsUnsigned) (hn : l.policy.capacity < n)
    (hlt : Rung.ofCapacity l.policy.capacity < .ofCapacity n) {d : Decision}
    (h : (l.allow now storeNow key n s).1 = .ok d) : d.allowed = false := by
  have hne := l.policy.ne_zero_of_capacity_lt hn
  rw [allowed_eq hs hne h]
  exact Draw.isGranted_settle_of_lt (request_isValid (request_of_allow_eq_ok h).1) hs.live? hne hlt

namespace Policy

/-- A call for `n` tokens is denied wherever it is answered: by any limiter with this policy, among any
others that share its store in memory, after any calls of theirs. -/
def AlwaysDenies (p : Policy) (n : Int64) : Prop :=
  ∀ (ι : Type) [DecidableEq ι] (limiters : ι → Limiter) (opened : Instant) (encoding : Encoding)
    (interval : Duration) (visits : List (Visit ι)) (i : ι) (now storeNow : Instant) (key : String)
    (d : Decision), (limiters i).policy = p →
    (((Fleet.fresh limiters opened encoding interval).after visits).visit
      ⟨i, now, storeNow, .allow key n⟩).1 = .decision (.ok d) → d.allowed = false

variable {p : Policy} {n : Int64}

theorem AlwaysDenies.of_ofCapacity_lt (hn : p.capacity < n)
    (hlt : Rung.ofCapacity p.capacity < .ofCapacity n) : p.AlwaysDenies n := by
  intro ι _ limiters opened encoding interval visits i now storeNow key d hp hanswer
  set f := (Fleet.fresh limiters opened encoding interval).after visits
  have hunsigned : f.store.HoldsUnsigned :=
    Fleet.holdsUnsigned_after (InProcess.holdsUnsigned_open opened encoding interval) visits
  have hpolicy : (f.limiters i).policy = p := (Fleet.policy_after visits i).trans hp
  rw [Fleet.visit_allow] at hanswer
  exact Limiter.allowed_of_ofCapacity_lt hunsigned (hpolicy ▸ hn) (hpolicy ▸ hlt)
    (Answer.decision.inj hanswer)

/-- Where the tokens asked for are no more than the capacity as a double, the first call on a key is
granted. -/
theorem AlwaysDenies.ofCapacity_lt (hn : p.capacity < n) (h : p.AlwaysDenies n) :
    Rung.ofCapacity p.capacity < .ofCapacity n := by
  by_contra hle
  have hnonneg : 0 ≤ n := Int64.le_of_lt (Int64.lt_of_le_of_lt p.zero_le_capacity hn)
  let l : Limiter := .new p .standard
  let s : InProcess := .open 0 .flag InProcess.standardSweepInterval
  have hs : s.HoldsUnsigned := InProcess.holdsUnsigned_open _ _ _
  have hrequest : l.request 0 "k" n = .ok (KeySpace.standard.request p "k" 0 n) :=
    Limiter.request_eq_ok_iff.mpr ⟨hnonneg, by decide, rfl, rfl⟩
  have hgranted := Draw.isGranted_settle_none (Limiter.request_isValid hrequest) (not_lt.mp hle)
  have hallow : (l.allow 0 0 "k" n s).1 = .ok _ :=
    congrArg Prod.fst (Limiter.allow_eq hs.live? rfl hrequest)
  have hdenied := h Unit (fun _ => l) 0 .flag InProcess.standardSweepInterval [] () 0 0 "k" _ rfl
    (congrArg Answer.decision hallow)
  have hallowed := Limiter.allowed_eq hs (p.ne_zero_of_capacity_lt hn) hallow
  rw [hdenied] at hallowed
  exact absurd (hallowed.trans hgranted) Bool.false_ne_true

/-- A call for more tokens than the capacity is always denied exactly if the capacity is the lesser one as a
double too, and so for every capacity below `2 ^ 53`. -/
theorem alwaysDenies_iff (hn : p.capacity < n) :
    (p.AlwaysDenies n ↔ Binary64.ofInt p.capacity.toInt < Binary64.ofInt n.toInt) ∧
      (p.capacity.toInt < 2 ^ 53 → p.AlwaysDenies n) := by
  rw [ofInt_capacity p.one_le_capacity, ofInt_capacity (p.one_le_of_capacity_lt hn), number_lt_number]
  exact ⟨⟨AlwaysDenies.ofCapacity_lt hn, AlwaysDenies.of_ofCapacity_lt hn⟩, fun hcapacity =>
    .of_ofCapacity_lt hn (Rung.ofCapacity_lt_ofCapacity hcapacity p.one_le_capacity hn)⟩

/-- The usual policy with a capacity of `2 ^ 53` tokens, the first that another integer is rounded to. -/
def vast : Policy :=
  { standard with
    capacity := 9007199254740992
    one_le_capacity := by decide }

/-- Of the usual policy, one token more than the capacity is always denied. Of the vast one it is not. -/
theorem alwaysDenies_standard :
    Policy.standard.AlwaysDenies 21 ∧ ¬ vast.AlwaysDenies 9007199254740993 := by
  refine ⟨(alwaysDenies_iff (by decide)).2 (by decide), fun h => ?_⟩
  have hlt := (alwaysDenies_iff (by decide)).1.mp h
  exact absurd hlt (by decide +kernel)

/-- The first call for one token more than the vast capacity: all of them are granted, and none is left. -/
theorem vast_grants_excess :
    vast.capacity < 9007199254740993 ∧
      ((Limiter.new vast .standard).allow 0 0 "big" 9007199254740993
        (InProcess.open 0 .flag InProcess.standardSweepInterval)).1 = .ok ⟨true, 0⟩ := by
  decide +kernel

end Policy

end TokenBucket
