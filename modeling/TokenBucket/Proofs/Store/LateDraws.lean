import TokenBucket.Proofs.Store.Served

/-!
# Draws that arrive late

A request carries the instant at which it was made, and requests of several limiters can overtake each
other on their way to the store. One that arrives after a record of a later instant has been written finds
no time elapsed and adds nothing to the balance. But if it asks for tokens it writes its own, earlier
instant back, and the next draw refills the stretch between the two instants once more.

So late requests are harmless exactly if none of them asks for tokens (`lateDrawsAddNothing_iff`). Looks
leave the record as it is. As soon as one of them is no look, some bucket shows it: on an empty one, with
nothing but time to fill it, the balance offered within the next second is greater than it should be.

## Main definitions

* `KeySpace.requests`: the requests of a list of instants and numbers of tokens.
* `LateDrawsAddNothing`: whatever arrives late, the next draw is offered no more than without it.

## Main results

* `Rung.exists_refilled_lt`: an empty bucket refilled from an earlier instant is ahead at some time.
* `lateDrawsAddNothing_iff`.
-/

namespace TokenBucket

open Binary64

/-! ### The balance of a baseline that lies too early -/

namespace Rung

/-- In a second an empty bucket gets its rate, if there is room for it. -/
theorem refilled_zero_thousand (rate capacity : Rung) :
    refilled zero rate capacity 1000 = min rate capacity := by
  rw [refilled, inflow_thousand, units_zero, Nat.zero_add, nearest_units]

/-- A bucket whose baseline lies `delta` milliseconds too early is, at some time within a second, ahead of
an empty bucket with the right baseline. Otherwise the empty one would never get anything: what it holds
after `j` milliseconds it would hold `delta` milliseconds earlier, and so on down to zero. -/
theorem exists_refilled_lt {rate capacity : Rung} (hrate : zero < rate) (hcapacity : zero < capacity)
    (tokens : Rung) {delta : ℕ} (hdelta : 0 < delta) :
    ∃ k < 1000, refilled zero rate capacity k < refilled tokens rate capacity (k + delta) := by
  by_contra! hle
  have hzero (j : ℕ) (hj : j ≤ 1000) : refilled zero rate capacity j = zero := by
    induction j using Nat.strong_induction_on with
    | _ j ih =>
      refine le_antisymm ?_ (zero_le _)
      rcases Nat.lt_or_ge delta j with hlt | hge
      · have hearlier := ih (j - delta) (by omega) (by omega)
        calc refilled zero rate capacity j
            ≤ refilled tokens rate capacity (j - delta + delta) :=
              refilled_le_refilled rate capacity (zero_le tokens) (by omega)
          _ ≤ refilled zero rate capacity (j - delta) := hle (j - delta) (by omega)
          _ = zero := hearlier
      · calc refilled zero rate capacity j
            ≤ refilled tokens rate capacity (0 + delta) :=
              refilled_le_refilled rate capacity (zero_le tokens) (by omega)
          _ ≤ refilled zero rate capacity 0 := hle 0 (by omega)
          _ = zero := by rw [refilled_zero, min_eq_left (zero_le capacity)]
  have hsecond := hzero 1000 le_rfl
  rw [refilled_zero_thousand] at hsecond
  exact (lt_min hrate hcapacity).ne' hsecond

end Rung

/-! ### Late draws on a record -/

namespace Draw

/-- Looks leave the record as it is. -/
theorem foldl_leaves_of_looks {late : List Request} (hlooks : ∀ q ∈ late, q.requested = 0)
    (held : Option Record) : late.foldl (fun held q => q.leaves held) held = held := by
  induction late generalizing held with
  | nil => rfl
  | cons q late ih =>
    obtain ⟨hq, hrest⟩ := List.forall_mem_cons.mp hlooks
    rw [List.foldl_cons, Draw.leaves_of_look hq]
    exact ih hrest held

/-- After late draws of which one asks for tokens the record bears an instant that is too early. -/
theorem exists_foldl_leaves_eq {late : List Request} {ts : Instant}
    (hlate : ∀ q ∈ late, q.IsValid ∧ q.now < ts) {r : Record} (hr : r.IsUnsigned)
    (hearly : r.refilledAt < ts ∨ ∃ q ∈ late, q.requested ≠ 0) :
    ∃ r', late.foldl (fun held q => q.leaves held) (some r) = some r' ∧ r'.IsUnsigned ∧
      r'.refilledAt < ts := by
  induction late generalizing r with
  | nil =>
    obtain h | ⟨q, hq, -⟩ := hearly
    · exact ⟨r, rfl, hr, h⟩
    · cases hq
  | cons q late ih =>
    obtain ⟨⟨hvalid, hnow⟩, hrest⟩ := List.forall_mem_cons.mp hlate
    rw [List.foldl_cons]
    by_cases hlook : q.requested = 0
    · rw [Draw.leaves_of_look hlook]
      refine ih hrest hr ?_
      obtain h | ⟨q', hq', hne⟩ := hearly
      · exact Or.inl h
      · rcases List.mem_cons.mp hq' with rfl | hq'
        · exact absurd hlook hne
        · exact Or.inr ⟨q', hq', hne⟩
    · have hbalance : (q.settle (some r)).tokens.IsBalance q.capacity :=
        settle_isBalance hvalid (by simpa using hr)
      rw [Draw.leaves_of_ne hlook]
      exact ih hrest (Record.isUnsigned_of_isBalance hbalance) (Or.inl hnow)

end Draw

/-! ### Late requests on a store -/

/-- The requests for tokens from the bucket of a key: for each the instant at which it was made, and how
many tokens it asks for. -/
def KeySpace.requests (space : KeySpace) (p : Policy) (key : String)
    (made : List (Instant × Int64)) : List Request :=
  made.map fun q => space.request p key q.1 q.2

theorem KeySpace.forall_mem_requests {space : KeySpace} {p : Policy} {key : String}
    {made : List (Instant × Int64)} {P : Request → Prop} :
    (∀ q ∈ space.requests p key made, P q) ↔ ∀ q ∈ made, P (space.request p key q.1 q.2) :=
  List.forall_mem_map

/-- Requests made at earlier instants than the record that they meet add nothing. Whatever valid requests
have brought about a record of the instant `ts`, and whenever the late ones arrive while it lives: a draw
made at `ts` or later is offered no more than it would have been without them. No two instants of the
requests are further apart than 64 bits can tell. -/
def LateDrawsAddNothing (p : Policy) (space : KeySpace) (key : String) (ts : Instant)
    (late : List (Instant × Int64)) : Prop :=
  ∀ (opened : Instant) (encoding : Encoding) (interval : Duration) (history : List Delivery),
    (∀ d ∈ history, d.request.IsValid) →
    ∀ h ∈ ((InProcess.open opened encoding interval).serve history).buckets.get?
        (space.storeKey key), h.record.refilledAt = ts →
    ∀ deliveries : List Delivery,
      deliveries.map (·.request) = space.requests p key late →
    ∀ storeNow : Instant, h.isLive storeNow = true →
      ((InProcess.open opened encoding interval).serve history).KeepsLive (space.storeKey key)
        deliveries storeNow →
    ∀ (now : Instant) (n : Int64), ts ≤ now → 0 ≤ n →
      (∀ q ∈ late, now.toInt - q.1.toInt ≤ Instant.latestMillis) →
      ((InProcess.open opened encoding interval).serve (history ++ deliveries)).offered storeNow
          (space.request p key now n) ≤
        ((InProcess.open opened encoding interval).serve history).offered storeNow
          (space.request p key now n)

namespace InProcess

variable (p : Policy) (space : KeySpace) (key : String) (ts : Instant)

/-- Where nothing has expired a draw is offered the balance of the record kept. -/
theorem offered_eq {s : InProcess} {storeNow : Instant} (request : Request)
    (hlive : ∀ h ∈ s.buckets.get? request.key, h.isLive storeNow = true) :
    s.offered storeNow request = request.available (s.kept request.key) := by
  rw [offered, live?_eq_kept hlive]

/-- A store in which the bucket of a key has been emptied at the instant `ts`, while the clock of the
store showed zero. -/
def emptied : InProcess :=
  (InProcess.open 0 .flag ⟨0⟩).serve [⟨0, space.request p key ts p.capacity⟩]

theorem emptied_isClosed : (emptied p space key ts).isClosed = false := by
  rw [emptied, serve_isClosed]
  rfl

/-- The first draw takes everything there is, if it asks for it. -/
theorem settle_capacity : (space.request p key ts p.capacity).settle none = .granted .zero := by
  have hne : (space.request p key ts p.capacity).requested ≠ 0 := by
    intro h
    have hcapacity := p.one_le_capacity
    rw [show p.capacity = 0 from h] at hcapacity
    exact absurd hcapacity (by decide)
  have hvalid := space.request_isValid p key ts p.zero_le_capacity
  have hdemand : (space.request p key ts p.capacity).demandRung =
      (space.request p key ts p.capacity).availableRung none := rfl
  rw [Draw.settle_eq hvalid (by simp), if_neg hne, hdemand, if_pos le_rfl, Nat.sub_self,
    ← Rung.units_zero, Rung.nearest_units]
  rfl

theorem get?_emptied : (emptied p space key ts).buckets.get? (space.storeKey key) =
    some ⟨⟨.zero, ts⟩, deadline 0 (space.request p key ts p.capacity)⟩ := by
  have hsettle : (space.request p key ts p.capacity).settle
      (((InProcess.open 0 .flag ⟨0⟩).sweep 0).live? 0 (space.request p key ts p.capacity).key) =
        .granted .zero := by
    rw [live?_sweep (Int64.le_refl 0)]
    exact settle_capacity p space key ts
  rw [emptied, serve_cons, serve_nil, execute_eq rfl]
  exact get?_step_of_record (by rw [hsettle]; rfl)

theorem kept_emptied : (emptied p space key ts).kept (space.storeKey key) = some ⟨.zero, ts⟩ := by
  rw [kept, get?_emptied]
  rfl

/-- Requests that arrive while the clock of the store shows zero. -/
def arriving (requests : List Request) : List Delivery := requests.map (Delivery.mk 0)

theorem forall_mem_arriving {requests : List Request} {P : Delivery → Prop} :
    (∀ d ∈ arriving requests, P d) ↔ ∀ q ∈ requests, P ⟨0, q⟩ :=
  List.forall_mem_map

theorem map_request_arriving (requests : List Request) :
    (arriving requests).map (·.request) = requests := by
  rw [arriving, List.map_map]
  exact List.map_id _

theorem isLive_emptied :
    ∀ h ∈ (emptied p space key ts).buckets.get? (space.storeKey key), h.isLive 0 = true := by
  intro h hheld
  rw [get?_emptied] at hheld
  obtain rfl := Option.some.inj hheld
  exact decide_eq_true (lt_deadline (by decide) (ttl_pos p space key ts p.capacity))

/-- Nothing expires while the clock of the store stands still. -/
theorem keepsLive_emptied (late : List (Instant × Int64)) :
    (emptied p space key ts).KeepsLive (space.storeKey key) (arriving (space.requests p key late))
      0 := by
  refine keepsLive_of_eq (by decide) (isLive_emptied p space key ts) ?_
  rw [forall_mem_arriving, KeySpace.forall_mem_requests]
  intro q _
  exact ⟨rfl, ttl_pos p space key q.1 q.2⟩

/-- Late requests of which one asks for tokens leave a baseline before `ts`. -/
theorem exists_kept_serve_emptied {late : List (Instant × Int64)}
    (hlate : ∀ q ∈ late, q.1 < ts ∧ 0 ≤ q.2) (hdraw : ∃ q ∈ late, q.2 ≠ 0) :
    ∃ r, ((emptied p space key ts).serve (arriving (space.requests p key late))).kept
        (space.storeKey key) = some r ∧ r.IsUnsigned ∧ r.refilledAt < ts := by
  have hkey : ∀ d ∈ arriving (space.requests p key late), d.request.key = space.storeKey key := by
    rw [forall_mem_arriving, KeySpace.forall_mem_requests]
    intro q _
    rfl
  rw [kept_serve (emptied_isClosed p space key ts) hkey (keepsLive_emptied p space key ts late),
    map_request_arriving, kept_emptied]
  refine Draw.exists_foldl_leaves_eq ?_ ⟨.zero, rfl⟩ (Or.inr ?_)
  · rw [KeySpace.forall_mem_requests]
    intro q hq
    obtain ⟨hnow, hn⟩ := hlate q hq
    exact ⟨space.request_isValid p key q.1 hn, hnow⟩
  · obtain ⟨q, hq, hne⟩ := hdraw
    exact ⟨_, List.mem_map_of_mem hq, hne⟩

end InProcess

/-- What a request under a policy finds in a bucket with some tokens. -/
theorem KeySpace.available_request (space : KeySpace) (p : Policy) (key : String) {r : Record}
    {t : Rung} (ht : r.tokens = .number false t) {now : Instant} {n : Int64} (hn : 0 ≤ n)
    (elapsed : ℕ) (helapsed : now.toInt - r.refilledAt.toInt = elapsed) :
    (space.request p key now n).available (some r) =
      .number false (.refilled t p.rate.rung (.ofCapacity p.capacity) elapsed) := by
  have hmillis : (r.elapsedMillis (space.request p key now n).now).toNat = elapsed := by
    rw [Record.elapsedMillis, show (space.request p key now n).now = now from rfl, helapsed]
    omega
  rw [Draw.available_eq (space.request_isValid p key now hn) (by simpa using ⟨t, ht⟩)]
  simp only [Draw.availableRung, ht, rung_number, hmillis]
  rfl

namespace LateDrawsAddNothing

variable {p : Policy} {space : KeySpace} {key : String} {ts : Instant} {late : List (Instant × Int64)}

/-- Late looks add nothing: the draw after them finds the very same balance. -/
theorem of_looks (hlooks : ∀ q ∈ late, q.2 = 0) : LateDrawsAddNothing p space key ts late := by
  intro opened encoding interval history hhistory h hheld _ deliveries hmade storeNow hlive hkeeps
    now n _ hn _
  have hrequests : ∀ q ∈ space.requests p key late, q.requested = 0 ∧ q.key = space.storeKey key := by
    rw [KeySpace.forall_mem_requests]
    intro q hq
    exact ⟨hlooks q hq, rfl⟩
  have hdeliveries : ∀ d ∈ deliveries, d.request ∈ space.requests p key late := by
    intro d hd
    rw [← hmade]
    exact List.mem_map_of_mem hd
  have hunsigned := InProcess.holdsUnsigned_serve
    (InProcess.holdsUnsigned_open opened encoding interval) hhistory
  rw [InProcess.serve_append]
  generalize hs : (InProcess.open opened encoding interval).serve history = s at *
  have hopen : s.isClosed = false := by rw [← hs, InProcess.serve_isClosed]; rfl
  have hkept : (s.serve deliveries).kept (space.storeKey key) = s.kept (space.storeKey key) := by
    rw [InProcess.kept_serve hopen (fun d hd => (hrequests _ (hdeliveries d hd)).2) hkeeps, hmade,
      Draw.foldl_leaves_of_looks fun q hq => (hrequests q hq).1]
  have hbefore : ∀ h' ∈ s.buckets.get? (space.storeKey key), h'.isLive storeNow = true := by
    intro h' hh'
    rw [hheld] at hh'
    obtain rfl := Option.some.inj hh'
    exact hlive
  rw [InProcess.offered_eq (space.request p key now n) hkeeps.isLive,
    InProcess.offered_eq (space.request p key now n) hbefore,
    show (space.request p key now n).key = space.storeKey key from rfl, hkept,
    ← InProcess.live?_eq_kept hbefore,
    Draw.available_eq (space.request_isValid p key now hn) hunsigned.live?]
  exact number_le_number.mpr le_rfl

/-- If a late request asks for tokens, there is a bucket that it helps: an empty one, with nothing but
time to fill it. -/
theorem looks (hts : ts.toInt + 1000 ≤ Instant.latestMillis)
    (hlate : ∀ q ∈ late, q.1 < ts ∧ 0 ≤ q.2 ∧ ts.toInt + 1000 - q.1.toInt ≤ Instant.latestMillis)
    (h : LateDrawsAddNothing p space key ts late) : ∀ q ∈ late, q.2 = 0 := by
  by_contra! hdraw
  obtain ⟨r, hr, ⟨t, ht⟩, hearly⟩ := InProcess.exists_kept_serve_emptied p space key
    ts (fun q hq => ⟨(hlate q hq).1, (hlate q hq).2.1⟩) hdraw
  rw [Int64.lt_iff_toInt_lt] at hearly
  obtain ⟨k, hk, hlt⟩ := Rung.exists_refilled_lt p.zero_lt_rate
    (Rung.zero_lt_ofCapacity p.one_le_capacity) t
    (show 0 < (ts.toInt - r.refilledAt.toInt).toNat by omega)
  -- the draw made `k` milliseconds after `ts` is offered more than it should be
  set now := Int64.ofInt (ts.toInt + k) with hdef
  have hnow : now.toInt = ts.toInt + k := by
    have hmillis : Instant.latestMillis = 2 ^ 63 - 1 := by decide
    have := ts.le_toInt
    exact Int64.toInt_ofInt_of_le (by omega) (by omega)
  have hlive := InProcess.isLive_emptied p space key ts
  have hkeeps := InProcess.keepsLive_emptied p space key ts late
  have hle := h 0 .flag ⟨0⟩ [⟨0, space.request p key ts p.capacity⟩]
    (by simpa using space.request_isValid p key ts p.zero_le_capacity) _
    (InProcess.get?_emptied p space key ts) rfl _
    (InProcess.map_request_arriving (space.requests p key late)) 0
    (hlive _ (InProcess.get?_emptied p space key ts)) hkeeps now 0
    (by rw [Int64.le_iff_toInt_le, hnow]; omega) (Int64.le_refl 0)
    (fun q hq => by have := (hlate q hq).2.2; omega)
  rw [InProcess.serve_append] at hle
  change (InProcess.serve (InProcess.emptied p space key ts) _).offered 0 _ ≤
    (InProcess.emptied p space key ts).offered 0 _ at hle
  rw [InProcess.offered_eq _ hkeeps.isLive, InProcess.offered_eq _ hlive,
    show (space.request p key now 0).key = space.storeKey key from rfl, hr, InProcess.kept_emptied,
    space.available_request p key ht (Int64.le_refl 0)
      (k + (ts.toInt - r.refilledAt.toInt).toNat) (by omega),
    space.available_request p key rfl (Int64.le_refl 0) k (by simp only; omega),
    number_le_number] at hle
  exact absurd hlt (not_lt.mpr hle)

end LateDrawsAddNothing

/-- Late requests add nothing exactly if they are looks. -/
theorem lateDrawsAddNothing_iff {p : Policy} {space : KeySpace} {key : String} {ts : Instant}
    {late : List (Instant × Int64)} (hts : ts.toInt + 1000 ≤ Instant.latestMillis)
    (hlate : ∀ q ∈ late, q.1 < ts ∧ 0 ≤ q.2 ∧
      ts.toInt + 1000 - q.1.toInt ≤ Instant.latestMillis) :
    LateDrawsAddNothing p space key ts late ↔ ∀ q ∈ late, q.2 = 0 :=
  ⟨LateDrawsAddNothing.looks hts hlate, LateDrawsAddNothing.of_looks⟩

/-- One late request for one token is enough, under the usual policy too. -/
theorem not_lateDrawsAddNothing_standard :
    ¬ LateDrawsAddNothing .standard .standard "k" 10000 [(0, 1)] := by
  intro h
  have hlooks := (lateDrawsAddNothing_iff (by decide) ?_).mp h (0, 1) (List.mem_singleton.mpr rfl)
  · exact absurd hlooks (by decide)
  · intro q hq
    obtain rfl := List.mem_singleton.mp hq
    decide

/-- A bucket of twenty tokens is emptied at 10000. A request for one token made at 0 arrives late and is
denied, as it should be. But the next draw made at 10000, to which nothing should be offered, is offered
the twenty tokens of the ten seconds before. -/
theorem offered_after_late_draw :
    let s := InProcess.emptied .standard .standard "k" 10000
    let late := KeySpace.standard.request .standard "k" 0 1
    let next := KeySpace.standard.request .standard "k" 10000 0
    s.live? 0 next.key = some ⟨.zero, 10000⟩ ∧ late.now < 10000 ∧
      (s.serve [⟨0, late⟩]).live? 0 next.key = some ⟨.zero, 0⟩ ∧
      s.offered 0 next = .zero ∧ (s.serve [⟨0, late⟩]).offered 0 next = .ofInt 20 ∧
      ¬ (s.serve [⟨0, late⟩]).offered 0 next ≤ s.offered 0 next := by
  decide +kernel

end TokenBucket
