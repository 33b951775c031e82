import TokenBucket.Proofs.Bucket.Balance
import TokenBucket.Proofs.Store.Held

/-!
# Requests served one after the other

A `Delivery` is a request that arrives at a store in memory, with the reading of the store's clock at that
moment. As long as nothing that is held for a key expires, the store behaves for that key as the bucket
step alone: what it keeps after some deliveries is what their draws leave, one after the other
(`InProcess.kept_serve`).

## Main definitions

* `Draw.leaves`: the record that is there after a draw.
* `Delivery`, `InProcess.serve`, `InProcess.kept`, `InProcess.offered`.
* `InProcess.KeepsLive`: nothing held for a key expires while some requests arrive.
* `InProcess.HoldsUnsigned`: no record held carries a sign.

## Main results

* `InProcess.kept_execute`, `InProcess.kept_serve`.
* `InProcess.keepsLive_of_eq`: while the store's clock stands still nothing expires.
* `InProcess.holdsUnsigned_serve`: no record comes to carry a sign.
-/

namespace TokenBucket

open Binary64

/-! ### Draws without a store -/

namespace Draw

variable {d : Draw} {held : Option Record} {r : Record}

/-- The record that is there after a draw: the one it leaves, or the one it has met. -/
def leaves (d : Draw) (held : Option Record) : Option Record :=
  ((d.settle held).record? d.now).or held

theorem record?_settle_of_look (h : d.requested = 0) : (d.settle held).record? d.now = none := by
  simp [settle, h, Settlement.record?]

/-- A look leaves what it has met. -/
theorem leaves_of_look (h : d.requested = 0) : d.leaves held = held := by
  rw [leaves, record?_settle_of_look h, Option.none_or]

/-- A draw that asks for tokens leaves a record of its own instant. -/
theorem record?_settle (h : d.requested ≠ 0) :
    (d.settle held).record? d.now = some ⟨(d.settle held).tokens, d.now⟩ := by
  simp only [settle, h, if_false]
  split <;> rfl

theorem leaves_of_ne (h : d.requested ≠ 0) :
    d.leaves held = some ⟨(d.settle held).tokens, d.now⟩ := by
  rw [leaves, record?_settle h, Option.some_or]

/-- A draw of the same instant finds what the draw before it has left. -/
theorem available_leaves (hd : d.IsValid) (hheld : ∀ r ∈ held, r.IsUnsigned) :
    d.available (d.leaves held) = (d.settle held).tokens := by
  by_cases hlook : d.requested = 0
  · rw [leaves_of_look hlook, settle]
    simp only [hlook, if_true, Settlement.tokens]
  · obtain ⟨q, hq, hle⟩ := settle_isBalance hd hheld
    have hunsigned : ∀ r ∈ d.leaves held, r.IsUnsigned := by
      rw [leaves_of_ne hlook]
      rintro r ⟨⟩
      exact ⟨q, hq⟩
    rw [available_eq hd hunsigned, leaves_of_ne hlook, hq, availableRung]
    simp [Record.elapsedMillis, min_eq_left hle]

end Draw

/-! ### Deliveries -/

/-- A request that arrives at a store. -/
structure Delivery where
  /-- What the clock of the store shows. -/
  storeNow : Instant
  /-- The request. -/
  request : Request
deriving DecidableEq

namespace InProcess

variable {s : InProcess} {now later : Instant} {key : String} {request : Request} {h : Held}
  {deliveries : List Delivery}

/-- The store after some deliveries. -/
def serve (s : InProcess) (deliveries : List Delivery) : InProcess :=
  deliveries.foldl (fun s d => (s.execute d.storeNow d.request).2) s

@[simp] theorem serve_nil (s : InProcess) : s.serve [] = s := rfl

@[simp] theorem serve_cons (s : InProcess) (d : Delivery) (deliveries : List Delivery) :
    s.serve (d :: deliveries) = (s.execute d.storeNow d.request).2.serve deliveries := rfl

@[simp] theorem serve_append (s : InProcess) (deliveries deliveries' : List Delivery) :
    s.serve (deliveries ++ deliveries') = (s.serve deliveries).serve deliveries' :=
  List.foldl_append

/-- The record kept for a store key, whether or not it has expired. -/
def kept (s : InProcess) (key : String) : Option Record := (s.buckets.get? key).map (·.record)

/-- The balance that a request finds. -/
def offered (s : InProcess) (storeNow : Instant) (request : Request) : Binary64 :=
  request.available (s.live? storeNow request.key)

/-- Nothing that is held for a key has expired when one of the deliveries arrives, nor later. -/
def KeepsLive (s : InProcess) (key : String) : List Delivery → Instant → Prop
  | [], later => ∀ h ∈ s.buckets.get? key, h.isLive later = true
  | d :: deliveries, later =>
    (∀ h ∈ s.buckets.get? key, h.isLive d.storeNow = true) ∧
      KeepsLive (s.execute d.storeNow d.request).2 key deliveries later

/-- Where nothing has expired there is nothing to leave out. -/
theorem filter_isLive (hlive : ∀ h ∈ s.buckets.get? key, h.isLive now = true) :
    (s.buckets.get? key).filter (·.isLive now) = s.buckets.get? key := by
  cases hheld : s.buckets.get? key with
  | none => rfl
  | some h => rw [Option.filter_some, if_pos (hlive h hheld)]

theorem live?_eq_kept (hlive : ∀ h ∈ s.buckets.get? key, h.isLive now = true) :
    s.live? now key = s.kept key := by
  rw [live?, kept, filter_isLive hlive]

@[simp] theorem serve_isClosed : (s.serve deliveries).isClosed = s.isClosed := by
  induction deliveries generalizing s with
  | nil => rfl
  | cons d deliveries ih => rw [serve_cons, ih, execute_isClosed]

@[simp] theorem serve_encoding : (s.serve deliveries).encoding = s.encoding := by
  induction deliveries generalizing s with
  | nil => rfl
  | cons d deliveries ih => rw [serve_cons, ih, execute_encoding]

/-- A sweep does not drop what has not expired. -/
theorem get?_sweep_of_isLive (hlive : ∀ h ∈ s.buckets.get? key, h.isLive now = true) :
    (s.sweep now).buckets.get? key = s.buckets.get? key := by
  rcases get?_sweep now key s with h | h
  · exact h
  · rw [h, get?_purge, filter_isLive hlive]

/-- A request leaves for its key what its draw leaves. -/
theorem kept_execute (hopen : s.isClosed = false)
    (hlive : ∀ h ∈ s.buckets.get? request.key, h.isLive now = true) :
    (s.execute now request).2.kept request.key = request.leaves (s.kept request.key) := by
  have hsweep := get?_sweep_of_isLive hlive
  have hkept : (s.sweep now).live? now request.key = s.kept request.key := by
    rw [live?_congr hsweep, live?_eq_kept hlive]
  rw [execute_eq hopen, Draw.leaves]
  cases hr : (request.settle (s.kept request.key)).record? request.now with
  | some r =>
    rw [← hkept] at hr
    rw [kept, get?_step_of_record hr]
    rfl
  | none =>
    rw [← hkept] at hr
    rw [kept, get?_step_of_looked hr, hkept, hsweep, Option.none_or]
    cases hheld : s.buckets.get? request.key <;> simp [kept, hheld]

/-- While nothing held for the key expires, deliveries for it leave what their draws leave. -/
theorem kept_serve (hopen : s.isClosed = false) (hkey : ∀ d ∈ deliveries, d.request.key = key)
    (hlive : s.KeepsLive key deliveries later) :
    (s.serve deliveries).kept key =
      (deliveries.map (·.request)).foldl (fun held q => q.leaves held) (s.kept key) := by
  induction deliveries generalizing s with
  | nil => rfl
  | cons d deliveries ih =>
    obtain ⟨rfl, hrest⟩ := List.forall_mem_cons.mp hkey
    rw [serve_cons, List.map_cons, List.foldl_cons, ← kept_execute hopen hlive.1]
    exact ih (by rw [execute_isClosed, hopen]) hrest hlive.2

theorem keepsLive_append {d : Delivery} {deliveries' : List Delivery} :
    s.KeepsLive key (deliveries ++ d :: deliveries') later ↔
      s.KeepsLive key deliveries d.storeNow ∧
        ((s.serve deliveries).execute d.storeNow d.request).2.KeepsLive key deliveries' later := by
  induction deliveries generalizing s with
  | nil => rfl
  | cons d' deliveries ih =>
    rw [List.cons_append, KeepsLive, KeepsLive, ih, serve_cons, and_assoc]

/-- At the end of it nothing has expired. -/
theorem KeepsLive.isLive (hlive : s.KeepsLive key deliveries later) :
    ∀ h ∈ (s.serve deliveries).buckets.get? key, h.isLive later = true := by
  induction deliveries generalizing s with
  | nil => exact hlive
  | cons d deliveries ih => exact ih hlive.2

/-! ### Records without a sign -/

/-- No record that the store holds carries a sign. -/
def HoldsUnsigned (s : InProcess) : Prop :=
  ∀ key h, s.buckets.get? key = some h → h.record.IsUnsigned

theorem holdsUnsigned_open (now : Instant) (encoding : Encoding) (interval : Duration) :
    (InProcess.open now encoding interval).HoldsUnsigned := by
  rintro key h ⟨⟩

theorem HoldsUnsigned.live? (hs : s.HoldsUnsigned) :
    ∀ r ∈ s.live? now key, r.IsUnsigned := by
  intro r hr
  obtain ⟨h, hheld, -, rfl⟩ := live?_eq_some_iff.mp hr
  exact hs key h hheld

/-- Every request under a policy is settled with a balance of that policy. -/
theorem HoldsUnsigned.settle_isBalance (hs : s.HoldsUnsigned) (storeNow : Instant)
    (hrequest : request.IsValid) :
    (request.settle (s.live? storeNow request.key)).tokens.IsBalance request.capacity :=
  Draw.settle_isBalance hrequest hs.live?

theorem holdsUnsigned_execute (hs : s.HoldsUnsigned) (hrequest : request.IsValid) :
    (s.execute now request).2.HoldsUnsigned := by
  intro key h hheld
  rcases held_execute hheld with hold | ⟨-, -, r, hr, rfl⟩
  · exact hs key h hold
  · have hbalance := hs.settle_isBalance now hrequest
    rw [← Settlement.tokens_of_record? hr] at hbalance
    exact Record.isUnsigned_of_isBalance hbalance

/-- Whatever valid requests arrive, no record comes to carry a sign. -/
theorem holdsUnsigned_serve (hs : s.HoldsUnsigned)
    (hdeliveries : ∀ d ∈ deliveries, d.request.IsValid) : (s.serve deliveries).HoldsUnsigned := by
  induction deliveries generalizing s with
  | nil => exact hs
  | cons d deliveries ih =>
    obtain ⟨hd, hrest⟩ := List.forall_mem_cons.mp hdeliveries
    exact ih (holdsUnsigned_execute hs hd) hrest

/-! ### A clock that stands still -/

/-- A record is live when it is written, unless it is to be kept for no time or there is none left. -/
theorem lt_deadline (hnow : now < Instant.latest) (httl : 0 < request.ttl.toNat) :
    now < deadline now request := by
  have hlatest : Instant.latest.toInt = Instant.latestMillis := by decide
  have hmillis : Instant.latestMillis = 2 ^ 63 - 1 := by decide
  rw [Int64.lt_iff_toInt_lt, hlatest] at hnow
  rw [Int64.lt_iff_toInt_lt, deadline, Instant.toInt_after]
  omega

/-- Some time is left to a record that a request under a policy writes. -/
theorem ttl_pos (p : Policy) (space : KeySpace) (key : String) (now : Instant) (n : Int64) :
    0 < (space.request p key now n).ttl.toNat := by
  rw [show (space.request p key now n).ttl = p.idleMillis from rfl, p.toNat_idleMillis]
  exact p.one_le_millis

/-- While the store's clock stands still, the record of the key is the one that the draw leaves. -/
theorem live?_execute_self (hopen : s.isClosed = false) (hnow : now < Instant.latest)
    (httl : 0 < request.ttl.toNat) :
    (s.execute now request).2.live? now request.key =
      request.leaves (s.live? now request.key) := by
  rw [live?_execute hopen (Int64.le_refl now), Draw.leaves]
  cases (request.settle (s.live? now request.key)).record? request.now with
  | none => rfl
  | some r => simp only [if_true, lt_deadline hnow httl, Option.some_or]

/-- While both clocks stand still, a request is offered what the same one before it has left. -/
theorem offered_execute_self (hs : s.HoldsUnsigned) (hopen : s.isClosed = false)
    (hnow : now < Instant.latest) (hrequest : request.IsValid) (httl : 0 < request.ttl.toNat) :
    (s.execute now request).2.offered now request =
      (request.settle (s.live? now request.key)).tokens := by
  rw [offered, live?_execute_self hopen hnow httl, Draw.available_leaves hrequest hs.live?]

/-- While the store's clock stands still nothing expires. -/
theorem keepsLive_of_eq (hnow : now < Instant.latest)
    (hlive : ∀ h ∈ s.buckets.get? key, h.isLive now = true)
    (hdeliveries : ∀ d ∈ deliveries, d.storeNow = now ∧ 0 < d.request.ttl.toNat) :
    s.KeepsLive key deliveries now := by
  induction deliveries generalizing s with
  | nil => exact hlive
  | cons d deliveries ih =>
    obtain ⟨⟨rfl, httl⟩, hrest⟩ := List.forall_mem_cons.mp hdeliveries
    refine ⟨hlive, ih ?_ hrest⟩
    intro h hheld
    rcases held_execute hheld with hold | ⟨-, -, r, -, rfl⟩
    · exact hlive h hold
    · exact decide_eq_true (lt_deadline hnow httl)

end InProcess

end TokenBucket
