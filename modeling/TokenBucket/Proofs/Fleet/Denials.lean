import TokenBucket.Proofs.Fleet.Answers
import TokenBucket.Proofs.Fleet.Budget

/-!
# Denials are not noticed

A denied call is written back: the record gets a new balance, a new instant and a new expiration, or comes
into being. Still later calls do not notice it, where no operation rounds and the idle time is long enough
to fill the bucket. What a call is told depends on the level of its bucket alone. A denial leaves the level
at its own instant as it was (`InProcess.SameLevels.execute_of_denied`), and how the level goes on depends on
nothing but the level at that instant (`InProcess.level_later`): capped refills of adjacent stretches of
time add up, and a bucket whose record has expired is full either way.

So two stores whose buckets have the same levels can hold different records, and are told apart by no call
for tokens. A run with denials inserted into it and the run without them keep two such stores
(`Fleet.ownAnswers_of_sameLevels`).

## Main definitions

* `InProcess.SameLevels`: two stores in which every bucket has the same level.
* `Visit.IsDraw`: a call for tokens on the clock of the store.
* `Fleet.IsExactAlong`: no operation of a run rounds.
* `Answer.IsDenial`, `Marked.insertedAnswers`.

## Main results

* `InProcess.SameLevels.execute`, `InProcess.SameLevels.execute_of_denied`.
* `Fleet.ownAnswers_of_sameLevels`, `Fleet.denials_not_noticed`.
-/

namespace TokenBucket

open Binary64

namespace Draw

variable {d : Draw} {held held' : Option Record}

/-- How a draw is settled depends on what the balance that it finds is worth. -/
theorem settle_eq_of_worth_eq (hd : d.IsValid) (hheld : ∀ r ∈ held, r.IsUnsigned)
    (hheld' : ∀ r ∈ held', r.IsUnsigned) (h : (d.available held).worth = (d.available held').worth) :
    d.settle held = d.settle held' := by
  refine settle_congr ?_
  rw [available_eq hd hheld, available_eq hd hheld'] at h ⊢
  exact number_eq_of_worth_eq h

/-- A denial asks for tokens and leaves the balance that it has found. -/
theorem settle_of_denied (h : (d.settle held).isGranted = false) :
    d.requested ≠ 0 ∧ (d.settle held).tokens = d.available held := by
  unfold settle at h ⊢
  simp only at h ⊢
  split
  · next hlook =>
    rw [if_pos hlook] at h
    cases h
  · next hdraw =>
    rw [if_neg hdraw] at h
    split
    · next hle =>
      rw [if_pos hle] at h
      cases h
    · exact ⟨hdraw, rfl⟩

end Draw

/-! ### Stores with the same levels -/

namespace InProcess

variable {s t : InProcess} {p : Policy} {now later : Instant} {space : KeySpace} {name : String}
  {n : Int64}

/-- Two open stores with timely records in which every bucket has the same level. -/
structure SameLevels (s t : InProcess) (p : Policy) (now : Instant) : Prop where
  encoding_eq : s.encoding = t.encoding
  isOpen : s.isClosed = false
  isOpen' : t.isClosed = false
  isTimely : ∀ key, s.IsTimely p key now
  isTimely' : ∀ key, t.IsTimely p key now
  level_eq : ∀ key, s.level p key now = t.level p key now

/-- A request keeps all records timely. -/
theorem isTimely_execute_all (hs : ∀ key, s.IsTimely p key now) (hn : 0 ≤ n)
    (hroom : n ≠ 0 → now.toInt + p.idle.millis ≤ Instant.latestMillis) (key : String) :
    (s.execute now (space.request p name now n)).2.IsTimely p key now := by
  by_cases hkey : space.storeKey name = key
  · subst hkey
    exact isTimely_execute (hs _) hn hroom
  · exact (untouched_execute hkey).isTimely (hs key)

namespace SameLevels

/-- Levels that are the same once are the same ever after. -/
theorem mono (hidle : 1000 * (p.capacity.toInt : ℚ) ≤ p.rate.worth * p.idle.millis)
    (h : s.SameLevels t p now) (hle : now ≤ later) : s.SameLevels t p later where
  encoding_eq := h.encoding_eq
  isOpen := h.isOpen
  isOpen' := h.isOpen'
  isTimely key := (h.isTimely key).mono hle
  isTimely' key := (h.isTimely' key).mono hle
  level_eq key := by
    rw [level_later hidle (h.isTimely key) hle, level_later hidle (h.isTimely' key) hle, h.level_eq key]

/-- An exact request is settled alike in both stores. -/
theorem settle_eq (h : s.SameLevels t p now) (hn : 0 ≤ n)
    (hs : (space.request p name now n).IsExact (s.live? now (space.storeKey name)))
    (ht : (space.request p name now n).IsExact (t.live? now (space.storeKey name))) :
    (space.request p name now n).settle (s.live? now (space.storeKey name)) =
      (space.request p name now n).settle (t.live? now (space.storeKey name)) := by
  have hleft : _ = s.level p (space.storeKey name) now :=
    space.worth_available_request p name now hn (h.isTimely _).live? hs
  have hright : _ = t.level p (space.storeKey name) now :=
    space.worth_available_request p name now hn (h.isTimely' _).live? ht
  refine Draw.settle_eq_of_worth_eq (space.request_isValid p name now hn) (h.isTimely _).live?
    (h.isTimely' _).live? ?_
  rw [hleft, hright, h.level_eq]

/-- An exact request is answered alike by both stores, and leaves them with the same levels. -/
theorem execute (h : s.SameLevels t p now) (hn : 0 ≤ n)
    (hroom : n ≠ 0 → now.toInt + p.idle.millis ≤ Instant.latestMillis)
    (hs : (space.request p name now n).IsExact (s.live? now (space.storeKey name)))
    (ht : (space.request p name now n).IsExact (t.live? now (space.storeKey name))) :
    (s.execute now (space.request p name now n)).1 = (t.execute now (space.request p name now n)).1 ∧
      (s.execute now (space.request p name now n)).2.SameLevels
        (t.execute now (space.request p name now n)).2 p now := by
  have hsettle := h.settle_eq hn hs ht
  constructor
  · rw [execute_eq h.isOpen, execute_eq h.isOpen', h.encoding_eq]
    exact congrArg (fun settlement => Except.ok (t.encoding.reply n settlement)) hsettle
  · refine ⟨?_, ?_, ?_, isTimely_execute_all h.isTimely hn hroom,
      isTimely_execute_all h.isTimely' hn hroom, ?_⟩
    · rw [execute_encoding, execute_encoding, h.encoding_eq]
    · rw [execute_isClosed, h.isOpen]
    · rw [execute_isClosed, h.isOpen']
    · intro key
      by_cases hkey : space.storeKey name = key
      · subst hkey
        rw [level_execute_self h.isOpen hroom, level_execute_self h.isOpen' hroom, hsettle, h.level_eq]
      · rw [(untouched_execute hkey).level_eq, (untouched_execute hkey).level_eq, h.level_eq]

/-- A request that is denied in one store leaves it with the levels of the other. -/
theorem execute_of_denied (h : s.SameLevels t p now) (hn : 0 ≤ n)
    (hroom : n ≠ 0 → now.toInt + p.idle.millis ≤ Instant.latestMillis)
    (hs : (space.request p name now n).IsExact (s.live? now (space.storeKey name)))
    (hdenied : ((space.request p name now n).settle
      (s.live? now (space.storeKey name))).isGranted = false) :
    (s.execute now (space.request p name now n)).2.SameLevels t p now := by
  obtain ⟨hdraw, htokens⟩ := Draw.settle_of_denied hdenied
  have hne : n ≠ 0 := hdraw
  have havailable : _ = s.level p (space.storeKey name) now :=
    space.worth_available_request p name now hn (h.isTimely _).live? hs
  refine ⟨?_, ?_, h.isOpen', isTimely_execute_all h.isTimely hn hroom, h.isTimely', ?_⟩
  · rw [execute_encoding, h.encoding_eq]
  · rw [execute_isClosed, h.isOpen]
  · intro key
    by_cases hkey : space.storeKey name = key
    · subst hkey
      rw [level_execute_self h.isOpen hroom, if_neg hne, htokens, havailable,
        min_eq_right (s.level_le p _ _), h.level_eq]
    · rw [(untouched_execute hkey).level_eq, h.level_eq]

end SameLevels

end InProcess

/-! ### Limiters over such stores -/

namespace Limiter

variable {l : Limiter} {s t : InProcess} {now : Instant} {key : String} {n : Int64}

/-- No operation of the draw for a call rounds. -/
def IsExactFor (l : Limiter) (now : Instant) (key : String) (n : Int64) (s : InProcess) : Prop :=
  ∀ request, l.request now key n = .ok request → request.IsExact (s.live? now request.key)

theorem isExactFor_of_live? {held : Option Record} (hlive : s.live? now (l.keys.storeKey key) = held)
    (h : (l.keys.request l.policy key now n).IsExact held) : l.IsExactFor now key n s := by
  intro request hrequest
  obtain ⟨-, -, -, rfl⟩ := request_eq_ok_iff.mp hrequest
  exact hlive ▸ h

/-- An exact call is answered alike over both stores, and leaves them with the same levels. -/
theorem allow_of_sameLevels (h : s.SameLevels t l.policy now)
    (hroom : n ≠ 0 → now.toInt + l.policy.idle.millis ≤ Instant.latestMillis)
    (hs : l.IsExactFor now key n s) (ht : l.IsExactFor now key n t) :
    (l.allow now now key n s).1 = (l.allow now now key n t).1 ∧
      (l.allow now now key n s).2.SameLevels (l.allow now now key n t).2 l.policy now := by
  cases hrequest : l.request now key n with
  | error failure =>
    rw [allow_of_error hrequest, allow_of_error hrequest]
    exact ⟨rfl, h⟩
  | ok request =>
    obtain ⟨hn, -, -, rfl⟩ := request_eq_ok_iff.mp hrequest
    obtain ⟨hreply, hafter⟩ := h.execute hn hroom (hs _ hrequest) (ht _ hrequest)
    simp only [allow, hrequest]
    exact ⟨congrArg (Except.bind · (l.decide n)) hreply, hafter⟩

/-- A denied call has reached an open store, and its draw has been denied. -/
theorem settle_of_denied {storeNow : Instant}
    (hs : ∀ r ∈ s.live? storeNow (l.keys.storeKey key), r.IsUnsigned) {d : Decision}
    (hanswer : (l.allow now storeNow key n s).1 = .ok d) (hdenied : d.allowed = false) :
    l.request now key n = .ok (l.keys.request l.policy key now n) ∧ s.isClosed = false ∧
      ((l.keys.request l.policy key now n).settle
        (s.live? storeNow (l.keys.storeKey key))).isGranted = false := by
  obtain ⟨hrequest, hopen⟩ := request_of_allow_eq_ok hanswer
  rw [allow_eq hs hopen hrequest] at hanswer
  obtain rfl := Except.ok.inj hanswer
  exact ⟨hrequest, hopen, (Bool.or_eq_false_iff.mp hdenied).2⟩

/-- A denied call writes down what it has found, at its own instant, and to be kept from then on. -/
theorem held_of_denied {storeNow : Instant}
    (hs : ∀ r ∈ s.live? storeNow (l.keys.storeKey key), r.IsUnsigned) {d : Decision}
    (hanswer : (l.allow now storeNow key n s).1 = .ok d) (hdenied : d.allowed = false) :
    let request := l.keys.request l.policy key now n
    (l.allow now storeNow key n s).2.buckets.get? request.key =
      some ⟨⟨s.offered storeNow request, now⟩, InProcess.deadline storeNow request⟩ := by
  intro request
  obtain ⟨hrequest, hopen, hsettle⟩ := settle_of_denied hs hanswer hdenied
  obtain ⟨hne, htokens⟩ := Draw.settle_of_denied hsettle
  rw [allow_snd hrequest, InProcess.execute_eq hopen]
  refine InProcess.get?_step_of_record ?_
  rw [InProcess.live?_sweep (Int64.le_refl storeNow), Draw.record?_settle hne]
  exact congrArg (fun tokens => some (Record.mk tokens now)) htokens

/-- A denied call leaves the store with the levels of the other. -/
theorem sameLevels_of_denied (h : s.SameLevels t l.policy now)
    (hroom : n ≠ 0 → now.toInt + l.policy.idle.millis ≤ Instant.latestMillis)
    (hs : l.IsExactFor now key n s) {d : Decision}
    (hanswer : (l.allow now now key n s).1 = .ok d) (hdenied : d.allowed = false) :
    (l.allow now now key n s).2.SameLevels t l.policy now := by
  obtain ⟨hrequest, -, hsettle⟩ := settle_of_denied (h.isTimely _).live? hanswer hdenied
  obtain ⟨hn, -⟩ := request_eq_ok_iff.mp hrequest
  rw [allow_snd hrequest]
  exact h.execute_of_denied hn hroom (hs _ hrequest) hsettle

end Limiter

/-! ### Runs -/

/-- The answer denies some tokens. -/
def Answer.IsDenial (a : Answer) : Prop := ∃ d, a = .decision (.ok d) ∧ d.allowed = false

/-- A call for tokens on the clock of the store, with room for the expiration of what it writes. -/
def Visit.IsDraw {ι : Type} (p : Policy) (v : Visit ι) : Prop :=
  v.now = v.storeNow ∧ ∃ key n, v.call = .allow key n ∧
    (n ≠ 0 → v.now.toInt + p.idle.millis ≤ Instant.latestMillis)

namespace Fleet

variable {ι : Type} [DecidableEq ι] {f g : Fleet ι InProcess} {p : Policy} {now : Instant} {v : Visit ι}
  {visits : List (Visit ι)}

/-- No operation of a run rounds, whatever bucket it is on. -/
def IsExactAlong (f : Fleet ι InProcess) (visits : List (Visit ι)) : Prop :=
  ∀ space key, Along (IsExactFor space key) f (visits.map .visit)

theorem IsExactAlong.tail (h : f.IsExactAlong (v :: visits)) : (f.visit v).2.IsExactAlong visits :=
  fun space key => (h space key).2

theorem IsExactAlong.head {i : ι} {key : String} {n : Int64}
    (h : f.IsExactAlong (⟨i, now, now, .allow key n⟩ :: visits)) :
    (f.limiters i).IsExactFor now key n f.store := by
  intro request hrequest
  obtain ⟨-, -, -, rfl⟩ := Limiter.request_eq_ok_iff.mp hrequest
  exact (h (f.limiters i).keys key).1 _ (Limiter.sent?_allow.mpr hrequest) rfl

theorem isExactAlong_nil (f : Fleet ι InProcess) : f.IsExactAlong [] := fun _ _ => trivial

theorem isExactAlong_cons {i : ι} {key : String} {n : Int64}
    (hhead : (f.limiters i).IsExactFor now key n f.store)
    (htail : (f.visit ⟨i, now, now, .allow key n⟩).2.IsExactAlong visits) :
    f.IsExactAlong (⟨i, now, now, .allow key n⟩ :: visits) := fun space key =>
  ⟨fun request hsent _ => hhead request (Limiter.sent?_allow.mp hsent), htail space key⟩

/-- Limiters of one policy over two stores with the same levels. -/
structure SameLevels (f g : Fleet ι InProcess) (p : Policy) (now : Instant) : Prop where
  limiters_eq : f.limiters = g.limiters
  policy_eq : ∀ i, (g.limiters i).policy = p
  stores : f.store.SameLevels g.store p now

namespace SameLevels

omit [DecidableEq ι] in
theorem mono {later : Instant} (hidle : 1000 * (p.capacity.toInt : ℚ) ≤ p.rate.worth * p.idle.millis)
    (h : f.SameLevels g p now) (hle : now ≤ later) : f.SameLevels g p later :=
  ⟨h.limiters_eq, h.policy_eq, h.stores.mono hidle hle⟩

/-- An exact call for tokens is answered alike, and the levels stay the same. -/
theorem visit (h : f.SameLevels g p v.storeNow) (hdraw : v.IsDraw p) (hf : f.IsExactAlong (v :: visits))
    {visits' : List (Visit ι)} (hg : g.IsExactAlong (v :: visits')) :
    (f.visit v).1 = (g.visit v).1 ∧ (f.visit v).2.SameLevels (g.visit v).2 p v.storeNow := by
  obtain ⟨i, now, storeNow, call⟩ := v
  obtain ⟨hsame, key, n, hcall, hroom⟩ := hdraw
  obtain rfl : now = storeNow := hsame
  obtain rfl : call = .allow key n := hcall
  obtain ⟨hlimiters, hpolicy, hstores⟩ := h
  have hexact := hf.head
  rw [hlimiters] at hexact
  obtain rfl := hpolicy i
  obtain ⟨hanswer, hafter⟩ := Limiter.allow_of_sameLevels hstores hroom hexact hg.head
  rw [visit_allow, visit_allow, hlimiters]
  exact ⟨congrArg Answer.decision hanswer, rfl, hpolicy, hafter⟩

/-- After a denial in one of the stores the levels are still the same. -/
theorem visit_of_denied (h : f.SameLevels g p v.storeNow) (hdraw : v.IsDraw p)
    (hf : f.IsExactAlong (v :: visits)) (hdenied : (f.visit v).1.IsDenial) :
    (f.visit v).2.SameLevels g p v.storeNow := by
  obtain ⟨i, now, storeNow, call⟩ := v
  obtain ⟨hsame, key, n, hcall, hroom⟩ := hdraw
  obtain rfl : now = storeNow := hsame
  obtain rfl : call = .allow key n := hcall
  obtain ⟨hlimiters, hpolicy, hstores⟩ := h
  have hexact := hf.head
  rw [visit_allow, hlimiters] at hdenied
  obtain ⟨d, hanswer, hd⟩ := hdenied
  rw [hlimiters] at hexact
  obtain rfl := hpolicy i
  rw [visit_allow, hlimiters]
  exact ⟨rfl, hpolicy,
    Limiter.sameLevels_of_denied hstores hroom hexact (Answer.decision.inj hanswer) hd⟩

end SameLevels

/-- Over stores with the same levels, a run is answered as it is without the denials inserted into it. -/
theorem ownAnswers_of_sameLevels (hidle : 1000 * (p.capacity.toInt : ℚ) ≤ p.rate.worth * p.idle.millis)
    (h : f.SameLevels g p now) {run : List (Marked ι)} (hdraws : ∀ v ∈ Marked.all run, v.IsDraw p)
    (hfrom : ∀ v ∈ Marked.all run, now ≤ v.storeNow)
    (hclock : (Marked.all run).Pairwise fun v v' => v.storeNow ≤ v'.storeNow)
    (hdenied : ∀ a ∈ Marked.insertedAnswers run (f.answers (Marked.all run)), a.IsDenial)
    (hall : f.IsExactAlong (Marked.all run)) (hown : g.IsExactAlong (Marked.own run)) :
    Marked.ownAnswers run (f.answers (Marked.all run)) = g.answers (Marked.own run) := by
  induction run generalizing f g now with
  | nil => rfl
  | cons m run ih =>
    obtain ⟨hdraw, hdrawsRest⟩ := List.forall_mem_cons.mp hdraws
    obtain ⟨hnow, -⟩ := List.forall_mem_cons.mp hfrom
    obtain ⟨hlater, hclockRest⟩ := List.pairwise_cons.mp hclock
    have h' := h.mono hidle hnow
    change ∀ a ∈ Marked.insertedAnswers (m :: run)
      ((f.visit m.visit).1 :: (f.visit m.visit).2.answers (Marked.all run)), a.IsDenial at hdenied
    change Marked.ownAnswers (m :: run)
      ((f.visit m.visit).1 :: (f.visit m.visit).2.answers (Marked.all run)) = _
    cases hinserted : m.isInserted with
    | false =>
      rw [Marked.insertedAnswers_cons_own hinserted] at hdenied
      rw [Marked.own_cons_own hinserted] at hown
      obtain ⟨hanswer, hlevels⟩ := h'.visit hdraw hall hown
      rw [Marked.ownAnswers_cons_own hinserted, Marked.own_cons_own hinserted, hanswer,
        ih hlevels hdrawsRest hlater hclockRest hdenied hall.tail hown.tail]
      rfl
    | true =>
      -- an inserted call happens to one of the two fleets only
      rw [Marked.insertedAnswers_cons_inserted hinserted] at hdenied
      obtain ⟨hdenial, hdeniedRest⟩ := List.forall_mem_cons.mp hdenied
      rw [Marked.own_cons_inserted hinserted] at hown
      rw [Marked.ownAnswers_cons_inserted hinserted, Marked.own_cons_inserted hinserted]
      exact ih (h'.visit_of_denied hdraw hall hdenial) hdrawsRest hlater hclockRest hdeniedRest hall.tail
        hown

/-- Denied calls can be inserted into a run anywhere: the other calls are answered as they were without
them. The limiters have one policy, whose idle time is long enough to fill a bucket, they share a store and
its clock, which never runs backwards, and no operation of either run rounds. Still each denied call
replaces the record of its key, by one that bears the balance found and its own instant and is to be kept
from then on. -/
theorem denials_not_noticed (p : Policy)
    (hidle : 1000 * (p.capacity.toInt : ℚ) ≤ p.rate.worth * p.idle.millis) (limiters : ι → Limiter)
    (hpolicy : ∀ i, (limiters i).policy = p) (opened : Instant) (encoding : Encoding)
    (interval : Duration) :
    let f := Fleet.fresh limiters opened encoding interval
    (∀ run : List (Marked ι), (∀ v ∈ Marked.all run, v.IsDraw p) →
      ((Marked.all run).Pairwise fun v v' => v.storeNow ≤ v'.storeNow) →
      (∀ a ∈ Marked.insertedAnswers run (f.answers (Marked.all run)), a.IsDenial) →
      f.IsExactAlong (Marked.all run) → f.IsExactAlong (Marked.own run) →
      Marked.ownAnswers run (f.answers (Marked.all run)) = f.answers (Marked.own run)) ∧
    ∀ (before : List (Visit ι)) (i : ι) (now storeNow : Instant) (key : String) (n : Int64),
      ((f.after before).visit ⟨i, now, storeNow, .allow key n⟩).1.IsDenial →
      let request := (limiters i).keys.request p key now n
      ((f.after before).visit ⟨i, now, storeNow, .allow key n⟩).2.store.buckets.get? request.key =
        some ⟨⟨(f.after before).store.offered storeNow request, now⟩,
          InProcess.deadline storeNow request⟩ := by
  intro f
  constructor
  · intro run hdraws hclock hdenied hall hown
    have hlevels : f.SameLevels f p Int64.minValue :=
      ⟨rfl, hpolicy, rfl, rfl, rfl, fun _ => InProcess.isTimely_open opened encoding interval,
        fun _ => InProcess.isTimely_open opened encoding interval, fun _ => rfl⟩
    exact ownAnswers_of_sameLevels hidle hlevels hdraws (fun v _ => Int64.minValue_le v.storeNow) hclock
      hdenied hall hown
  · intro before i now storeNow key n hdenied
    have hs : (f.after before).store.HoldsUnsigned :=
      holdsUnsigned_after (InProcess.holdsUnsigned_open opened encoding interval) before
    have hlimiter : ((f.after before).limiters i).policy = p :=
      (policy_after before i).trans (hpolicy i)
    have hkeys : ((f.after before).limiters i).keys = (limiters i).keys := keys_after before i
    rw [visit_allow] at hdenied ⊢
    obtain ⟨d, hanswer, hd⟩ := hdenied
    rw [← hlimiter, ← hkeys]
    exact Limiter.held_of_denied hs.live? (Answer.decision.inj hanswer) hd

/-- Half a second after a bucket of twenty tokens has been left with two of them, eight are asked for and
denied. Half a second later there are twelve, with the denial and without it. -/
theorem denials_not_noticed_standard :
    let f := Fleet.fresh (fun _ : Fin 2 => Limiter.new .standard .standard) 0 .boolean ⟨0⟩
    let first : Visit (Fin 2) := ⟨0, 1000, 1000, .allow "k" 18⟩
    let denied : Visit (Fin 2) := ⟨1, 1500, 1500, .allow "k" 8⟩
    let last : Visit (Fin 2) := ⟨0, 2000, 2000, .allow "k" 12⟩
    let run : List (Marked (Fin 2)) := [⟨first, false⟩, ⟨denied, true⟩, ⟨last, false⟩]
    let request := KeySpace.standard.request .standard "k" 1500 8
    ((f.after [first]).visit denied).1.IsDenial ∧
      Marked.ownAnswers run (f.answers (Marked.all run)) = f.answers (Marked.own run) ∧
      (f.after [first]).store.offered 1500 request = .ofInt 7 ∧
      ((f.after [first]).visit denied).2.store.buckets.get? request.key =
        some ⟨⟨(f.after [first]).store.offered 1500 request, 1500⟩,
          InProcess.deadline 1500 request⟩ := by
  intro f first denied last run request
  obtain ⟨hrun, hheld⟩ := denials_not_noticed .standard (by decide +kernel)
    (fun _ : Fin 2 => Limiter.new .standard .standard) (fun _ => rfl) 0 .boolean ⟨0⟩
  have hdenied : ((f.after [first]).visit denied).1.IsDenial :=
    ⟨⟨false, 7⟩, congrArg Answer.decision (by decide +kernel), rfl⟩
  have hfirst : (KeySpace.standard.request .standard "k" 1000 18).IsExact none := by
    constructor <;> decide +kernel
  have hmiddle : (KeySpace.standard.request .standard "k" 1500 8).IsExact (some ⟨.ofInt 2, 1000⟩) := by
    constructor <;> decide +kernel
  have hwith : (KeySpace.standard.request .standard "k" 2000 12).IsExact (some ⟨.ofInt 7, 1500⟩) := by
    constructor <;> decide +kernel
  have hwithout : (KeySpace.standard.request .standard "k" 2000 12).IsExact (some ⟨.ofInt 2, 1000⟩) := by
    constructor <;> decide +kernel
  refine ⟨hdenied, hrun run ?_ (by decide) ?_ ?_ ?_, ?_, ?_⟩
  · intro v hv
    rcases List.mem_cons.mp hv with rfl | hv
    · exact ⟨rfl, "k", 18, rfl, fun _ => by decide⟩
    rcases List.mem_cons.mp hv with rfl | hv
    · exact ⟨rfl, "k", 8, rfl, fun _ => by decide⟩
    obtain rfl := List.mem_singleton.mp hv
    exact ⟨rfl, "k", 12, rfl, fun _ => by decide⟩
  · intro a ha
    obtain rfl := List.mem_singleton.mp (show a ∈ [((f.after [first]).visit denied).1] from ha)
    exact hdenied
  · refine isExactAlong_cons (Limiter.isExactFor_of_live? rfl hfirst) (isExactAlong_cons
      (Limiter.isExactFor_of_live? (by decide +kernel) hmiddle) (isExactAlong_cons
        (Limiter.isExactFor_of_live? (by decide +kernel) hwith) (isExactAlong_nil _)))
  · refine isExactAlong_cons (Limiter.isExactFor_of_live? rfl hfirst) (isExactAlong_cons
        (Limiter.isExactFor_of_live? (by decide +kernel) hwithout) (isExactAlong_nil _))
  · decide +kernel
  · unfold f denied request
    exact hheld [first] 1 1500 1500 "k" 8 hdenied

end Fleet

end TokenBucket
