import TokenBucket.Proofs.Bucket.Whole
import TokenBucket.Proofs.Fleet.Closing

/-!
# Without grants the balance never falls

As long as nothing is granted on a key, the tokens that its limiter tells of never become fewer
(`Fleet.told_rises`). The numbers come from different records: one that is refilled where it stands, one
that a denial has put in its place, or none at all, when the old one has expired or been forgotten and the
bucket is full. The clock of the store may run backwards meanwhile and revive a record that had expired.

The balance told last is secured from then on, by everything that is held for the key, whether or not it
has expired (`InProcess.Secures`): refilled to that instant or to a later one, no such record falls below
it. A look drops the record if it finds it expired, and tells of a full bucket; a denial replaces it by the
balance that it tells of. So no record is left that could be revived to less. Time only adds to a record,
because every rounding is monotone, and what is dropped leaves a full bucket.

## Main definitions

* `Record.refilledRung`: what a record is refilled to under a policy.
* `InProcess.Secures`: no record of a key falls below a balance.
* `Fleet.grants`, `Fleet.Withholds`: an event that grants nothing on a key.
* `Fleet.told`: the balances told along a run.

## Main results

* `InProcess.Secures.step`: a draw that is not granted secures the balance that it finds.
* `Fleet.Secures.exists_step`, `Fleet.Secures.told`: the balance secured along a run.
* `Fleet.told_rises`.
-/

namespace TokenBucket

open Binary64

variable {p : Policy} {key : String} {now later storeNow : Instant} {balance : Rung}

/-! ### What a record is refilled to -/

/-- What a record without a sign is refilled to under a policy. -/
def Record.refilledRung (p : Policy) (now : Instant) (r : Record) : Rung :=
  .refilled r.tokens.rung p.rate.rung (.ofCapacity p.capacity) (r.elapsedMillis now).toNat

/-- Later a record is refilled to no less. -/
theorem Record.refilledRung_le_refilledRung (r : Record) (hle : now ≤ later) :
    r.refilledRung p now ≤ r.refilledRung p later := by
  rw [Int64.le_iff_toInt_le] at hle
  refine Rung.refilled_le_refilled _ _ le_rfl (Int.toNat_le_toNat ?_)
  rw [elapsedMillis, elapsedMillis]
  omega

/-- At the instant of a record nothing has flowed in yet. -/
theorem Record.refilledRung_self (hbalance : balance ≤ .ofCapacity p.capacity) :
    Record.refilledRung p now ⟨.number false balance, now⟩ = balance := by
  simp [refilledRung, elapsedMillis, min_eq_left hbalance]

/-- A draw that is not granted some tokens ends with the balance that it has found. -/
theorem Draw.tokens_settle_of_not_isGranted {d : Draw} {held : Option Record} (hd : d.IsValid)
    (hheld : ∀ r ∈ held, r.IsUnsigned) (hdenied : d.requested ≠ 0 → (d.settle held).isGranted = false) :
    (d.settle held).tokens = .number false (d.availableRung held) := by
  rw [settle_eq hd hheld] at hdenied ⊢
  by_cases hlook : d.requested = 0
  · rw [if_pos hlook]
    rfl
  · rw [if_neg hlook] at hdenied ⊢
    split at hdenied
    · cases hdenied hlook
    · next hnot =>
      rw [if_neg hnot]
      rfl

/-! ### Balances that are secured -/

namespace InProcess

variable {s s' : InProcess} {space : KeySpace} {n : Int64}

/-- Whatever is held for a key, expired or not, is refilled to at least this balance from an instant on;
and so is a full bucket. -/
structure Secures (s : InProcess) (p : Policy) (key : String) (now : Instant) (balance : Rung) : Prop where
  le_capacity : balance ≤ .ofCapacity p.capacity
  isUnsigned : ∀ h, s.buckets.get? key = some h → h.record.IsUnsigned
  le_refilled : ∀ h, s.buckets.get? key = some h → balance ≤ h.record.refilledRung p now

/-- Nothing falls below zero. -/
theorem HoldsUnsigned.secures_zero (hs : s.HoldsUnsigned) : s.Secures p key now .zero where
  le_capacity := Rung.zero_le _
  isUnsigned := hs key
  le_refilled _ _ := Rung.zero_le _

/-- What is asked about another key brings nothing about for this one. -/
theorem held_perform_of_ne {call : StoreCall} {h : Held} (hne : call.key? ≠ some key)
    (hheld : (call.perform storeNow s).buckets.get? key = some h) : s.buckets.get? key = some h := by
  cases call with
  | execute request =>
    rcases held_execute hheld with hold | ⟨hkey, -⟩
    · exact hold
    · exact absurd (congrArg some hkey) hne
  | fetch name =>
    change (s.fetch storeNow name).2.buckets.get? key = some h at hheld
    rwa [fetch_snd] at hheld
  | delete name => exact held_delete hheld
  | close => exact hheld

namespace Secures

theorem mono (h : s.Secures p key now balance) (hle : now ≤ later) : s.Secures p key later balance where
  le_capacity := h.le_capacity
  isUnsigned := h.isUnsigned
  le_refilled held hheld := (h.le_refilled held hheld).trans (held.record.refilledRung_le_refilledRung hle)

/-- Records that are dropped secure nothing less. -/
theorem of_held (h : s.Secures p key now balance)
    (hheld : ∀ held, s'.buckets.get? key = some held → s.buckets.get? key = some held) :
    s'.Secures p key now balance where
  le_capacity := h.le_capacity
  isUnsigned held hnow := h.isUnsigned held (hheld held hnow)
  le_refilled held hnow := h.le_refilled held (hheld held hnow)

theorem live? (h : s.Secures p key now balance) : ∀ r ∈ s.live? storeNow key, r.IsUnsigned := by
  intro r hr
  obtain ⟨held, hheld, -, rfl⟩ := live?_eq_some_iff.mp hr
  exact h.isUnsigned held hheld

/-- A draw finds no less than what is secured, whether or not the clock of the store lets it see a
record. -/
theorem le_availableRung {name : String} (h : s.Secures p (space.storeKey name) now balance)
    (storeNow : Instant) (n : Int64) :
    balance ≤
      (space.request p name now n).availableRung (s.live? storeNow (space.storeKey name)) := by
  cases hlive : s.live? storeNow (space.storeKey name) with
  | none => exact h.le_capacity
  | some r =>
    obtain ⟨held, hheld, -, rfl⟩ := live?_eq_some_iff.mp hlive
    exact h.le_refilled held hheld

/-- A draw that is not granted secures what it finds. -/
theorem step {name : String} (hn : 0 ≤ n) (h : s.Secures p (space.storeKey name) now balance)
    (hdenied : n ≠ 0 → ((space.request p name now n).settle
      (s.live? storeNow (space.storeKey name))).isGranted = false) :
    (s.step storeNow (space.request p name now n)).2.Secures p (space.storeKey name) now
      ((space.request p name now n).availableRung (s.live? storeNow (space.storeKey name))) := by
  set request := space.request p name now n with hrequest
  have hvalid : request.IsValid := space.request_isValid p name now hn
  have htokens := Draw.tokens_settle_of_not_isGranted hvalid h.live? hdenied
  -- the only record that can be there afterwards
  have hafter : ∀ held, (s.step storeNow request).2.buckets.get? request.key = some held →
      held.record.IsUnsigned ∧
        held.record.refilledRung p now = request.availableRung (s.live? storeNow request.key) := by
    intro held hheld
    by_cases hlook : n = 0
    · rw [get?_step_of_looked (Draw.record?_settle_of_look hlook)] at hheld
      split at hheld
      · next hlive =>
        obtain ⟨r, hr⟩ := Option.isSome_iff_exists.mp hlive
        obtain ⟨held', hheld', -, rfl⟩ := live?_eq_some_iff.mp hr
        obtain rfl : held = held' := Option.some.inj (hheld.symm.trans hheld')
        rw [hr]
        exact ⟨h.isUnsigned held hheld, rfl⟩
      · cases hheld
    · rw [get?_step_of_record (Draw.record?_settle hlook)] at hheld
      obtain rfl := Option.some.inj hheld
      change (request.settle (s.live? storeNow request.key)).tokens = _ at htokens
      rw [htokens]
      exact ⟨⟨_, rfl⟩, Record.refilledRung_self (Draw.availableRung_le _ _)⟩
  exact ⟨Draw.availableRung_le _ _, fun held hheld => (hafter held hheld).1,
    fun held hheld => (hafter held hheld).2.ge⟩

end Secures

end InProcess

/-! ### Calls for tokens -/

/-- A call for tokens that is not granted tells of a balance that is not below the one secured before, and
is secured after it. -/
theorem InProcess.Secures.exists_allow {s : InProcess} {l : Limiter} {n : Int64}
    (h : s.Secures l.policy (l.keys.storeKey key) now balance)
    (hdenied : ∀ d, (l.allow now storeNow key n s).1 = .ok d → n ≠ 0 → d.allowed = false) :
    ∃ balance', balance ≤ balance' ∧
      (l.allow now storeNow key n s).2.Secures l.policy (l.keys.storeKey key) now balance' ∧
      ∀ d, (l.allow now storeNow key n s).1 = .ok d → d.remaining = saturateInt64 balance'.floor := by
  cases hrequest : l.request now key n with
  | error failure =>
    rw [Limiter.allow_of_error hrequest]
    exact ⟨balance, le_rfl, h, by rintro d ⟨⟩⟩
  | ok request =>
    obtain ⟨hn, -, -, rfl⟩ := Limiter.request_eq_ok_iff.mp hrequest
    cases hclosed : s.isClosed with
    | true =>
      rw [Limiter.allow_of_isClosed hclosed hrequest]
      exact ⟨balance, le_rfl, h, by rintro d ⟨⟩⟩
    | false =>
      have hlive : ∀ r ∈ s.live? storeNow (l.keys.request l.policy key now n).key, r.IsUnsigned := h.live?
      have hallow := Limiter.allow_eq hlive hclosed hrequest
      rw [hallow] at hdenied ⊢
      set request := l.keys.request l.policy key now n
      have hnot : n ≠ 0 → (request.settle (s.live? storeNow request.key)).isGranted = false := by
        intro hne
        have hallowed := hdenied _ rfl hne
        rwa [beq_eq_false_iff_ne.mpr hne, Bool.false_or] at hallowed
      have htokens : (request.settle (s.live? storeNow request.key)).tokens = _ :=
        Draw.tokens_settle_of_not_isGranted (Limiter.request_isValid hrequest) hlive hnot
      -- the sweep before the draw is not noticed by it
      have hsweep : (s.sweep storeNow).live? storeNow request.key = s.live? storeNow request.key :=
        InProcess.live?_sweep (Int64.le_refl storeNow)
      have hswept : (s.sweep storeNow).Secures l.policy (l.keys.storeKey key) now balance :=
        h.of_held fun held => InProcess.held_sweep
      refine ⟨request.availableRung (s.live? storeNow request.key), h.le_availableRung storeNow n, ?_, ?_⟩
      · rw [← hsweep] at hnot ⊢
        exact hswept.step hn hnot
      · rintro d ⟨⟩
        rw [htokens, Encoding.saturateInt64_truncate_carried]

/-! ### Runs -/

/-- What an event shows of the clock of a limiter: a visit shows it to the limiter that it calls. -/
def Event.reading? {ι : Type} [DecidableEq ι] (i : ι) : Event ι → Option Instant
  | .visit v => if v.limiter = i then some v.now else none
  | .direct _ _ => none
  | .purge _ => none

namespace Fleet

variable {ι : Type} [DecidableEq ι] {f : Fleet ι InProcess} {i : ι} {e : Event ι} {events : List (Event ι)}

/-- Whether a visit is a call for some tokens that is allowed. -/
def grants (f : Fleet ι InProcess) (v : Visit ι) : Bool :=
  match v.call, (f.visit v).1 with
  | .allow _ n, .decision (.ok d) => n ≠ 0 && d.allowed
  | _, _ => false

/-- A look is no grant. -/
theorem grants_of_look (f : Fleet ι InProcess) (i : ι) (now storeNow : Instant) (key : String) :
    f.grants ⟨i, now, storeNow, .allow key 0⟩ = false := by
  rw [grants]
  split
  · next hcall _ =>
    obtain ⟨-, rfl⟩ := Call.allow.inj hcall
    rfl
  · rfl

/-- An event that grants nothing on the key of a limiter, and lets nobody else draw on it: a visit that is
about its store key is one of the limiter, and not granted some tokens. -/
def Withholds (i : ι) (key : String) (f : Fleet ι InProcess) : Event ι → Prop
  | .visit v => v.storeKey? f.limiters = some ((f.limiters i).keys.storeKey key) →
      v.limiter = i ∧ f.grants v = false
  | .direct _ call => call.key? ≠ some ((f.limiters i).keys.storeKey key)
  | .purge _ => True

instance (i : ι) (key : String) (f : Fleet ι InProcess) : (e : Event ι) → Decidable (f.Withholds i key e)
  | .visit _ => inferInstanceAs (Decidable (_ → _ ∧ _))
  | .direct _ _ => inferInstanceAs (Decidable (_ ≠ _))
  | .purge _ => inferInstanceAs (Decidable True)

instance decidableAlong {P : Fleet ι InProcess → Event ι → Prop} [∀ f e, Decidable (P f e)] :
    (f : Fleet ι InProcess) → (events : List (Event ι)) → Decidable (Along P f events)
  | _, [] => inferInstanceAs (Decidable True)
  | f, e :: events => @instDecidableAnd _ _ _ (decidableAlong (f.step e) events)

/-- The tokens that an event tells a caller of a limiter are left for a key. -/
def told? (i : ι) (key : String) (f : Fleet ι InProcess) : Event ι → Option Int64
  | .visit v => if v.limiter = i ∧ v.call.key? = some key then (f.visit v).1.remaining? else none
  | .direct _ _ => none
  | .purge _ => none

/-- The tokens that the callers of a limiter are told are left for a key, along a run. -/
def told (i : ι) (key : String) : Fleet ι InProcess → List (Event ι) → List Int64
  | _, [] => []
  | f, e :: events => (f.told? i key e).toList ++ told i key (f.step e) events

/-- The store secures a balance for the key of a limiter. -/
def Secures (f : Fleet ι InProcess) (i : ι) (key : String) (now : Instant) (balance : Rung) : Prop :=
  f.store.Secures (f.limiters i).policy ((f.limiters i).keys.storeKey key) now balance

/-- A balance is secured for the key of a limiter by what the event leaves in the store. -/
theorem secures_step_iff :
    (f.step e).Secures i key now balance ↔
      (f.step e).store.Secures (f.limiters i).policy ((f.limiters i).keys.storeKey key) now balance := by
  rw [Secures, limiters_step, policy_limitersAfter, keys_limitersAfter]

namespace Secures

omit [DecidableEq ι] in
theorem mono (h : f.Secures i key now balance) (hle : now ≤ later) : f.Secures i key later balance :=
  InProcess.Secures.mono h hle

/-- Where the event brings no record about for the key, it secures what was secured before. -/
theorem of_held (h : f.Secures i key now balance)
    (hheld : ∀ held, (f.step e).store.buckets.get? ((f.limiters i).keys.storeKey key) = some held →
      f.store.buckets.get? ((f.limiters i).keys.storeKey key) = some held) :
    (f.step e).Secures i key now balance :=
  secures_step_iff.mpr (InProcess.Secures.of_held h hheld)

/-- A visit about another store key brings no record about. -/
theorem visit_of_ne {v : Visit ι} (h : f.Secures i key now balance)
    (hne : v.storeKey? f.limiters ≠ some ((f.limiters i).keys.storeKey key)) :
    (f.step (.visit v)).Secures i key now balance := by
  refine h.of_held fun held hheld => ?_
  rw [step, store_visit_eq] at hheld
  cases hasks : (f.limiters v.limiter).asks? v.now v.call with
  | none => rwa [hasks] at hheld
  | some c =>
    rw [hasks] at hheld
    have hkey : c.key? ≠ some ((f.limiters i).keys.storeKey key) := by
      rw [Limiter.key?_of_asks? hasks]
      exact hne
    exact InProcess.held_perform_of_ne hkey hheld

/-- A call for tokens of the key that is not granted raises the balance to the one it tells of. -/
theorem exists_visit_allow {storeNow : Instant} {n : Int64} (h : f.Secures i key now balance)
    (hdenied : f.grants ⟨i, now, storeNow, .allow key n⟩ = false) :
    ∃ balance', balance ≤ balance' ∧
      (f.step (.visit ⟨i, now, storeNow, .allow key n⟩)).Secures i key now balance' ∧
      ∀ r ∈ (f.visit ⟨i, now, storeNow, .allow key n⟩).1.remaining?, r = saturateInt64 balance'.floor := by
  have hnot : ∀ d, ((f.limiters i).allow now storeNow key n f.store).1 = .ok d → n ≠ 0 →
      d.allowed = false := by
    intro d hd hne
    rw [grants, visit_allow, hd] at hdenied
    simpa [hne] using hdenied
  obtain ⟨balance', hle, hafter, htold⟩ := InProcess.Secures.exists_allow h hnot
  refine ⟨balance', hle, secures_step_iff.mpr ?_, ?_⟩
  · rwa [step, visit_allow]
  · rw [visit_allow]
    intro r hr
    cases hanswer : ((f.limiters i).allow now storeNow key n f.store).1 with
    | error failure =>
      rw [hanswer] at hr
      cases hr
    | ok d =>
      rw [hanswer] at hr
      obtain rfl := Option.some.inj hr
      exact htold d hanswer

/-- A visit to the limiter about the key that is not granted raises the balance to the one it tells of. -/
theorem exists_visit {v : Visit ι} (h : f.Secures v.limiter key v.now balance)
    (hkey : v.call.key? = some key) (hdenied : f.grants v = false) :
    ∃ balance', balance ≤ balance' ∧ (f.step (.visit v)).Secures v.limiter key v.now balance' ∧
      ∀ r ∈ (f.visit v).1.remaining?, r = saturateInt64 balance'.floor := by
  obtain ⟨i, now, storeNow, call⟩ := v
  cases call with
  | allow name n =>
    obtain rfl := Option.some.inj hkey
    exact h.exists_visit_allow hdenied
  | remaining name =>
    obtain rfl := Option.some.inj hkey
    obtain ⟨balance', hle, hafter, htold⟩ := h.exists_visit_allow (f.grants_of_look i now storeNow name)
    refine ⟨balance', hle, ?_, ?_⟩
    · rwa [step, visit_remaining_snd]
    · rwa [(f.visit_remaining i now storeNow name).2]
  | record name =>
    refine ⟨balance, le_rfl, h.of_held fun held hheld => ?_, by rintro r ⟨⟩⟩
    rcases held_visit hheld with hold | ⟨request, ⟨⟩, -⟩
    exact hold
  | reset name =>
    refine ⟨balance, le_rfl, h.of_held fun held hheld => ?_, by rintro r ⟨⟩⟩
    rcases held_visit hheld with hold | ⟨request, ⟨⟩, -⟩
    exact hold
  | close => cases hkey

/-- An event that grants nothing on the key raises the balance to the one it tells of, if it tells of
one. -/
theorem exists_step (h : f.Secures i key now balance) (he : f.Withholds i key e)
    (hnow : ∀ t ∈ e.reading? i, now ≤ t) :
    ∃ balance', balance ≤ balance' ∧ (f.step e).Secures i key ((e.reading? i).getD now) balance' ∧
      ∀ r ∈ f.told? i key e, r = saturateInt64 balance'.floor := by
  cases e with
  | visit v =>
    have hlater : f.Secures i key (((Event.visit v).reading? i).getD now) balance := by
      cases hreading : (Event.visit v).reading? i with
      | none => exact h
      | some t => exact h.mono (hnow t hreading)
    by_cases hkey : v.storeKey? f.limiters = some ((f.limiters i).keys.storeKey key)
    · obtain ⟨rfl, hdenied⟩ := he hkey
      have hcall : v.call.key? = some key :=
        Option.map_injective (f.limiters v.limiter).keys.storeKey_injective hkey
      simp only [Event.reading?, if_true, Option.getD_some, told?, hcall, and_self] at hlater ⊢
      exact hlater.exists_visit hcall hdenied
    · refine ⟨balance, le_rfl, hlater.visit_of_ne hkey, ?_⟩
      -- a visit to the limiter that tells something of the key is about its store key
      rw [told?, if_neg]
      · rintro r ⟨⟩
      · rintro ⟨rfl, hcall⟩
        exact hkey (by rw [Visit.storeKey?, hcall, Option.map_some])
  | direct storeNow call =>
    exact ⟨balance, le_rfl, h.of_held fun held => InProcess.held_perform_of_ne he, by rintro r ⟨⟩⟩
  | purge storeNow =>
    exact ⟨balance, le_rfl, h.of_held fun held => InProcess.held_purge, by rintro r ⟨⟩⟩

/-- Along a run without grants on the key, the balances told are not below the one secured at its beginning,
nor above the capacity, and they rise. -/
theorem told (h : f.Secures i key now balance) (hevents : Along (Withholds i key) f events)
    (hfrom : ∀ t ∈ events.filterMap (·.reading? i), now ≤ t)
    (hclock : (events.filterMap (·.reading? i)).Pairwise (· ≤ ·)) :
    (∀ r ∈ f.told i key events, saturateInt64 balance.floor ≤ r ∧
      r ≤ saturateInt64 (Rung.ofCapacity (f.limiters i).policy.capacity).floor) ∧
    (f.told i key events).Pairwise (· ≤ ·) := by
  have hfloor {q q' : Rung} (hle : q ≤ q') : saturateInt64 q.floor ≤ saturateInt64 q'.floor := by
    refine saturateInt64_le_saturateInt64 (Int.ofNat_le.mpr (Nat.div_le_div_right ?_))
    exact Rung.units_le_units.mpr hle
  induction events generalizing f now balance with
  | nil => exact ⟨by rintro r ⟨⟩, .nil⟩
  | cons e events ih =>
    obtain ⟨he, hrest⟩ := hevents
    have hnow : ∀ t ∈ e.reading? i, now ≤ t := fun t ht =>
      hfrom t (List.mem_filterMap.mpr ⟨e, List.mem_cons_self, ht⟩)
    obtain ⟨balance', hle, hafter, htold⟩ := h.exists_step he hnow
    have hclockRest : (events.filterMap (·.reading? i)).Pairwise (· ≤ ·) ∧
        ∀ t ∈ events.filterMap (·.reading? i), (e.reading? i).getD now ≤ t := by
      cases hreading : e.reading? i with
      | none =>
        rw [List.filterMap_cons_none hreading] at hclock hfrom
        exact ⟨hclock, hfrom⟩
      | some t =>
        rw [List.filterMap_cons_some hreading, List.pairwise_cons] at hclock
        exact ⟨hclock.2, hclock.1⟩
    obtain ⟨hbounds, hrises⟩ := ih hafter hrest hclockRest.2 hclockRest.1
    rw [limiters_step, policy_limitersAfter] at hbounds
    have hcapacity : saturateInt64 balance'.floor ≤
        saturateInt64 (Rung.ofCapacity (f.limiters i).policy.capacity).floor :=
      hfloor (secures_step_iff.mp hafter).le_capacity
    rw [Fleet.told]
    cases htells : f.told? i key e with
    | none =>
      refine ⟨fun r hr => ?_, hrises⟩
      exact ⟨Int64.le_trans (hfloor hle) (hbounds r hr).1, (hbounds r hr).2⟩
    | some r =>
      obtain rfl := htold r htells
      refine ⟨fun r hr => ?_, List.Pairwise.cons (fun r hr => (hbounds r hr).1) hrises⟩
      rcases List.mem_cons.mp hr with rfl | hr
      · exact ⟨hfloor hle, hcapacity⟩
      · exact ⟨Int64.le_trans (hfloor hle) (hbounds r hr).1, (hbounds r hr).2⟩

end Secures

/-- Whatever limiters have shared a store, and whatever has happened in it before: as long as nothing is
granted on a key of one of them, and nobody else draws on it, the tokens that the limiter tells of for the
key do not become fewer, and are never more than the capacity. Only the clock of that limiter must not run
backwards. -/
theorem told_rises (limiters : ι → Limiter) (opened : Instant) (encoding : Encoding) (interval : Duration)
    {before : List (Event ι)} (hbefore : ∀ e ∈ before, e.IsValid) (i : ι) (key : String)
    (hevents : Along (Withholds i key) ((Fleet.fresh limiters opened encoding interval).run before) events)
    (hclock : (events.filterMap (·.reading? i)).Pairwise (· ≤ ·)) :
    let told := ((Fleet.fresh limiters opened encoding interval).run before).told i key events
    told.Pairwise (· ≤ ·) ∧
      ∀ r ∈ told, r ≤ saturateInt64 (Binary64.ofInt (limiters i).policy.capacity.toInt).truncate := by
  intro told
  have hs := holdsUnsigned_run (f := Fleet.fresh limiters opened encoding interval)
    (InProcess.holdsUnsigned_open opened encoding interval) hbefore
  have hsecures : ((Fleet.fresh limiters opened encoding interval).run before).Secures i key
      Int64.minValue .zero := hs.secures_zero
  obtain ⟨hbounds, hrises⟩ := hsecures.told hevents (fun t _ => Int64.minValue_le t) hclock
  refine ⟨hrises, fun r hr => ?_⟩
  have hpolicy : (((Fleet.fresh limiters opened encoding interval).run before).limiters i).policy =
      (limiters i).policy := by
    rw [limiters_run, policy_limitersAfter]
    rfl
  rw [← hpolicy, ofInt_capacity (Policy.one_le_capacity _), truncate_eq_floor]
  exact (hbounds r hr).2

/-- A bucket has been emptied at an instant that the limiter has not reached yet. While it waits, it is
denied five tokens, the other key is drawn on, and the clock of the store jumps beyond the hour after which
the record expires, and back. -/
theorem told_rises_standard :
    let f := Fleet.fresh (fun _ : Fin 2 => Limiter.new .standard .standard) 0 .count ⟨0⟩
    let before : List (Event (Fin 2)) := [.visit ⟨1, 100000, 0, .allow "k" 20⟩]
    let look (now storeNow : Instant) : Event (Fin 2) := .visit ⟨0, now, storeNow, .remaining "k"⟩
    let events : List (Event (Fin 2)) := [look 0 0, .visit ⟨0, 250, 0, .allow "k" 5⟩,
      .visit ⟨1, 90, 0, .allow "j" 3⟩, .purge 3599999, look 500 0, .visit ⟨0, 500, 4000000, .record "k"⟩,
      look 500 4000000, look 500 0, .visit ⟨0, 600, 0, .reset "k"⟩, .visit ⟨0, 600, 0, .allow "k" 21⟩]
    (∀ e ∈ before, e.IsValid) ∧ Along (Withholds 0 "k") (f.run before) events ∧
      (events.filterMap (·.reading? 0)).Pairwise (· ≤ ·) ∧
      (f.run before).told 0 "k" events = [0, 0, 2, 20, 20, 20] ∧
      ((f.run before).told 0 "k" events).Pairwise (· ≤ ·) ∧
      ∀ r ∈ (f.run before).told 0 "k" events, r ≤ 20 := by
  intro f before look events
  have hbefore : ∀ e ∈ before, e.IsValid := by
    intro e he
    obtain rfl := List.mem_singleton.mp he
    trivial
  have hevents : Along (Withholds 0 "k") (f.run before) events := by decide +kernel
  have hclock : (events.filterMap (·.reading? 0)).Pairwise (· ≤ ·) := by decide
  obtain ⟨hrises, hbounds⟩ := told_rises (fun _ : Fin 2 => Limiter.new .standard .standard) 0 .count ⟨0⟩
    hbefore 0 "k" hevents hclock
  have hcapacity : saturateInt64 (Binary64.ofInt (Policy.standard.capacity).toInt).truncate = 20 := by
    decide +kernel
  exact ⟨hbefore, hevents, hclock, by decide +kernel, hrises, fun r hr => hcapacity ▸ hbounds r hr⟩

end Fleet

end TokenBucket
