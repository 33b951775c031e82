import TokenBucket.Proofs.Store.Level
import TokenBucket.Proofs.Store.Ledger

/-!
# A store in which nothing expires

A lasting store keeps every record until it is overwritten or forgotten. A record that has expired in a
ledger still stands in the lasting store of the same requests, so one of them meets a full bucket and the
other an old balance. If a full bucket flows in during the idle time (`Policy.RefillsWhileIdle`), both come
to the same: whatever the old balance was, refilled for so long it is cut off at the capacity. This holds of
the rounded numbers of the step as they are, since rounding keeps the order.

The requests are those of one policy, made on the clock of the store. Then a line of the ledger counts for
the idle time from the instant of its record on (`Ledger.Line.IsTimely`), and each request is settled alike
and leaves the same record in both.

## Main definitions

* `Lasting`: a store in which no record expires.
* `Policy.RefillsWhileIdle`: the idle time is long enough to fill the bucket.
* `StoreCall.IsTimely`: a request of a policy on the clock of the store.
* `Ledger.Line.IsTimely`, `Lasting.Extends`: a lasting store and a ledger with the same records.

## Main results

* `Policy.available_of_idle`: after the idle time a bucket is full.
* `Lasting.Extends.settle_eq`, `Lasting.Extends.answer_eq`, `Lasting.Extends.perform`.
-/

namespace TokenBucket

open Binary64

/-! ### Lasting stores -/

/-- A store in which no record ever expires. -/
structure Lasting where
  /-- What was last written for each key since the key was last forgotten. -/
  records : String → Option Record
  /-- The form of the replies. -/
  encoding : Encoding
  /-- Whether the store has been closed. -/
  isClosed : Bool

namespace Lasting

/-- A store in which nothing has been written. -/
def empty (encoding : Encoding) : Lasting := ⟨fun _ => none, encoding, false⟩

/-- The store with another record for a key, or without any. -/
def enter (s : Lasting) (key : String) (record : Option Record) : Lasting :=
  { s with records := Function.update s.records key record }

/-- An answer and the store after it, if the store is open. -/
def whenOpen {α : Type} (s : Lasting) (answer : α) (after : Lasting) : Except Failure α × Lasting :=
  if s.isClosed then (.error (.storeUnavailable .inProcessClosed), s) else (.ok answer, after)

/-- The bucket step on the record of the key, however old. -/
def execute (request : Request) (s : Lasting) : Except Failure Reply × Lasting :=
  let held := s.records request.key
  s.whenOpen (s.encoding.reply request.requested (request.settle held))
    (s.enter request.key (request.leaves held))

/-- The record of a key. -/
def fetch (key : String) (s : Lasting) : Except Failure (Option Record) × Lasting :=
  s.whenOpen (s.records key) s

/-- Forgets a key, and tells whether it had a record. -/
def delete (key : String) (s : Lasting) : Except Failure Bool × Lasting :=
  s.whenOpen (s.records key).isSome (s.enter key none)

instance : BucketStore Lasting where
  execute _ := execute
  fetch _ := fetch
  delete _ := delete
  close s := (.ok (), { s with isClosed := true })

end Lasting

/-! ### Buckets that fill while they are idle -/

namespace Policy

variable {p : Policy}

/-- What the step computes to flow in during the idle time is a full bucket or more. -/
def RefillsWhileIdle (p : Policy) : Prop :=
  Binary64.ofInt p.capacity.toInt ≤ Binary64.ofInt p.idle.millis / Binary64.ofInt 1000 * p.rate

instance (p : Policy) : Decidable p.RefillsWhileIdle :=
  inferInstanceAs (Decidable (Binary64.ofInt _ ≤ _))

theorem RefillsWhileIdle.ofCapacity_le (h : p.RefillsWhileIdle) :
    Rung.ofCapacity p.capacity ≤ Rung.inflow p.rate.rung p.idle.millis := by
  have hmillis : p.idle.millis ≤ 2 ^ 64 := (InProcess.millis_idle_le p).trans (by decide)
  rw [RefillsWhileIdle, p.rate_eq, ofInt_div_mul_number hmillis p.rate_lt_infinity,
    ofInt_capacity p.one_le_capacity] at h
  exact number_le_number.mp h

/-- After the idle time a bucket is full, whatever its record says. -/
theorem available_of_idle (hidle : p.RefillsWhileIdle) {space : KeySpace} {name : String} {now : Instant}
    {n : Int64} (hn : 0 ≤ n) {r : Record} (hr : r.IsUnsigned)
    (hpause : r.refilledAt.toInt + p.idle.millis ≤ now.toInt) :
    (space.request p name now n).available (some r) = (space.request p name now n).available none := by
  have hvalid := space.request_isValid p name now hn
  have helapsed : p.idle.millis ≤ (r.elapsedMillis now).toNat := by
    rw [Record.elapsedMillis]
    omega
  have hfull : (space.request p name now n).availableRung (some r) = .ofCapacity p.capacity :=
    Rung.refilled_of_le_inflow r.tokens.rung hidle.ofCapacity_le helapsed
  have hunsigned : ∀ r' ∈ some r, r'.IsUnsigned := by
    rintro r' ⟨⟩
    exact hr
  rw [Draw.available_eq hvalid hunsigned, hfull, Draw.available_eq hvalid (by rintro _ ⟨⟩)]
  rfl

end Policy

/-! ### The same requests to a ledger -/

/-- A request of a policy on the clock of the store, with room for the expiration of what it writes, or the
order to close. -/
def StoreCall.IsTimely (p : Policy) (now : Instant) (call : StoreCall) : Prop :=
  call = .close ∨ ∃ (space : KeySpace) (name : String) (n : Int64),
    call = .execute (space.request p name now n) ∧ 0 ≤ n ∧
      (n ≠ 0 → now.toInt + p.idle.millis ≤ Instant.latestMillis)

/-- A line whose record has no sign and counts for the idle time of a policy at least. -/
structure Ledger.Line.IsTimely (line : Ledger.Line) (p : Policy) : Prop where
  isUnsigned : line.record.IsUnsigned
  le_deadline : line.record.refilledAt.toInt + p.idle.millis ≤ line.deadline

theorem Ledger.live?_of_line {l : Ledger} {now : Instant} {key : String} {line : Ledger.Line}
    (hline : l.lines key = some line) :
    l.live? now key = if now.toInt < line.deadline then some line.record else none := by
  simp only [live?, hline, Option.filter_some, decide_eq_true_eq]
  split <;> rfl

/-- A line written with room for its expiration counts for the idle time. -/
theorem Ledger.deadline_request {p : Policy} {now : Instant} (space : KeySpace) (name : String) (n : Int64)
    (hroom : now.toInt + p.idle.millis ≤ Instant.latestMillis) :
    deadline now (space.request p name now n).ttl = now.toInt + p.idle.millis := by
  have httl : (space.request p name now n).ttl.toNat = p.idle.millis := p.toNat_idleMillis
  rw [deadline, httl, min_eq_left (InProcess.millis_idle_le p), min_eq_left hroom]

namespace Lasting

variable {s after : Lasting} {l after' : Ledger} {p : Policy} {now : Instant} {key : String}

theorem records_enter (entered : String) (record : Option Record) :
    (s.enter entered record).records key = if entered = key then record else s.records key := by
  simp only [enter, Function.update_apply, eq_comm]

/-- The store and the ledger have the same records, and those of the ledger are timely. -/
structure Extends (s : Lasting) (l : Ledger) (p : Policy) : Prop where
  isClosed_eq : s.isClosed = l.isClosed
  encoding_eq : s.encoding = l.encoding
  records_eq : ∀ key, s.records key = (l.lines key).map (·.record)
  isTimely : ∀ key line, l.lines key = some line → line.IsTimely p

namespace Extends

theorem empty (encoding : Encoding) (p : Policy) :
    (Lasting.empty encoding).Extends (.empty encoding) p where
  isClosed_eq := rfl
  encoding_eq := rfl
  records_eq _ := rfl
  isTimely := by rintro _ _ ⟨⟩

/-- Open or closed, the two give the same answer and become what is related again. -/
theorem whenOpen {α : Type} (h : s.Extends l p) (answer : α) (hafter : after.Extends after' p) :
    (s.whenOpen answer after).1 = (l.whenOpen answer after').1 ∧
      (s.whenOpen answer after).2.Extends (l.whenOpen answer after').2 p := by
  rw [Lasting.whenOpen, Ledger.whenOpen, h.isClosed_eq]
  split
  · exact ⟨rfl, h⟩
  · exact ⟨rfl, hafter⟩

/-- The same record is written down in both. -/
theorem enter (h : s.Extends l p) {line : Ledger.Line} (hline : line.IsTimely p) (entered : String) :
    (s.enter entered (some line.record)).Extends (l.enter entered (some line)) p where
  isClosed_eq := h.isClosed_eq
  encoding_eq := h.encoding_eq
  records_eq key := by
    rw [records_enter, Ledger.lines_enter]
    split
    · rfl
    · exact h.records_eq key
  isTimely key line' hline' := by
    rw [Ledger.lines_enter] at hline'
    split at hline'
    · obtain rfl := Option.some.inj hline'
      exact hline
    · exact h.isTimely key line' hline'

theorem live?_isUnsigned (h : s.Extends l p) : ∀ r ∈ l.live? now key, r.IsUnsigned := by
  intro r hr
  obtain ⟨line, hline, rfl⟩ := Option.mem_map.mp hr
  exact (h.isTimely key line (Option.eq_some_of_filter_eq_some hline)).isUnsigned

section Request

variable {space : KeySpace} {name : String} {n : Int64} (hidle : p.RefillsWhileIdle) (h : s.Extends l p)
  (hn : 0 ≤ n)

include hidle h hn

/-- A request is settled alike, whether or not the record has expired. -/
theorem settle_eq :
    (space.request p name now n).settle (s.records (space.storeKey name)) =
      (space.request p name now n).settle (l.live? now (space.storeKey name)) := by
  rw [h.records_eq]
  cases hline : l.lines (space.storeKey name) with
  | none => rw [Ledger.live?, hline]; rfl
  | some line =>
    rw [Ledger.live?_of_line hline]
    split
    · rfl
    · next hdead =>
      obtain ⟨hunsigned, hdeadline⟩ := h.isTimely _ line hline
      have hpause := hdeadline.trans (not_lt.mp hdead)
      exact Draw.settle_congr (Policy.available_of_idle hidle hn hunsigned hpause)

/-- A request is answered alike, and leaves the same records. -/
theorem execute (hroom : n ≠ 0 → now.toInt + p.idle.millis ≤ Instant.latestMillis) :
    (s.execute (space.request p name now n)).1 = (l.execute now (space.request p name now n)).1 ∧
      (s.execute (space.request p name now n)).2.Extends
        (l.execute now (space.request p name now n)).2 p := by
  have hsettle : (space.request p name now n).settle (s.records (space.storeKey name)) =
      (space.request p name now n).settle (l.live? now (space.storeKey name)) := h.settle_eq hidle hn
  have hkey : (space.request p name now n).key = space.storeKey name := rfl
  simp only [Lasting.execute, Ledger.execute, hkey, hsettle, h.encoding_eq]
  refine h.whenOpen _ ?_
  by_cases hlook : (space.request p name now n).requested = 0
  · have hsame : s.enter (space.storeKey name) (s.records (space.storeKey name)) = s := by
      rw [Lasting.enter, Function.update_eq_self]
    rw [Draw.leaves_of_look hlook, hsame, if_pos hlook]
    exact h
  · rw [Draw.leaves_of_ne hlook, hsettle, if_neg hlook]
    have hunsigned : ∀ r ∈ l.live? now (space.storeKey name), r.IsUnsigned := h.live?_isUnsigned
    have hbalance := Draw.settle_isBalance (space.request_isValid p name now hn) hunsigned
    have hdeadline := (Ledger.deadline_request space name n (hroom hlook)).ge
    have hline : Ledger.Line.IsTimely ⟨⟨_, now⟩, _⟩ p :=
      ⟨Record.isUnsigned_of_isBalance hbalance, hdeadline⟩
    exact h.enter hline _

end Request

variable (hidle : p.RefillsWhileIdle) (h : s.Extends l p) {call : StoreCall} (hcall : call.IsTimely p now)

include hidle h hcall

/-- What is asked of a policy on the clock of the store is answered alike. -/
theorem answer_eq : call.answer now s = call.answer now l := by
  rcases hcall with rfl | ⟨space, name, n, rfl, hn, hroom⟩
  · rfl
  · exact congrArg StoreAnswer.reply (h.execute hidle hn hroom).1

/-- What is asked of a policy on the clock of the store leaves the same records. -/
theorem perform : (call.perform now s).Extends (call.perform now l) p := by
  rcases hcall with rfl | ⟨space, name, n, rfl, hn, hroom⟩
  · exact ⟨rfl, h.encoding_eq, h.records_eq, h.isTimely⟩
  · exact (h.execute hidle hn hroom).2

end Extends

end Lasting

end TokenBucket
