import TokenBucket.Proofs.Store.Calls
import TokenBucket.Proofs.Store.Served

/-!
# The store as a ledger

A ledger is a store of the plainest kind. Under each key stands what was last written for it since it was
last forgotten, with the instant from which it no longer counts. Nothing is ever dropped: a line whose
instant has come is just not read any more, until something else is written in its place.

A store in memory does drop what has expired, on four occasions: in a sweep, in a purge, when a dead record
is looked at, and when it is overwritten. As long as its clock does not run backwards nobody can tell. It
follows the ledger of the same calls (`InProcess.Follows`), so that all its answers are those of the ledger
(`InProcess.answers_eq_ledger`), whatever the interval between two sweeps and wherever purges fall.

## Main definitions

* `Ledger`, `Ledger.live?`, `Ledger.deadline`; a ledger is a `BucketStore`.
* `StoreEvent`, `InProcess.run`, `InProcess.answers`: runs of a store in memory.
* `BucketStore.afterCalls`, `BucketStore.answers`: runs of any store.
* `InProcess.Follows`: the store in memory shows what the ledger shows.

## Main results

* `InProcess.simulation_follows`: calls keep the relation and are answered alike.
* `InProcess.follows_run`: the relation is kept along a run, purges included.
* `Ledger.AgreesOn.answer_eq`, `Ledger.AgreesOn.perform`, `Ledger.AgreesOn.perform_of_ne`: a call hears of
  its own key only, and changes no other.
* `InProcess.answers_eq_ledger`.
-/

namespace TokenBucket

/-! ### Ledgers -/

/-- What was last written for a key. -/
structure Ledger.Line where
  /-- The record. -/
  record : Record
  /-- The first instant at which it no longer counts. -/
  deadline : ℤ

/-- A store that drops nothing. -/
structure Ledger where
  /-- What was last written for each key since the key was last forgotten. -/
  lines : String → Option Ledger.Line
  /-- The form of the replies. -/
  encoding : Encoding
  /-- Whether the store has been closed. -/
  isClosed : Bool

namespace Ledger

/-- A ledger in which nothing has been written. -/
def empty (encoding : Encoding) : Ledger := ⟨fun _ => none, encoding, false⟩

/-- When a record written now no longer counts: after the time to keep it. Neither that time nor the
instant at its end goes beyond the latest instant. -/
def deadline (now : Instant) (ttl : UInt64) : ℤ :=
  min (now.toInt + min ttl.toNat Instant.latestMillis) Instant.latestMillis

/-- The record of a key, if it still counts. -/
def live? (now : Instant) (key : String) (l : Ledger) : Option Record :=
  ((l.lines key).filter fun line => now.toInt < line.deadline).map (·.record)

/-- The ledger with another line for a key, or without any. -/
def enter (l : Ledger) (key : String) (line : Option Line) : Ledger :=
  { l with lines := Function.update l.lines key line }

/-- An answer and the ledger after it, if the ledger is open. -/
def whenOpen {α : Type} (l : Ledger) (answer : α) (after : Ledger) : Except Failure α × Ledger :=
  if l.isClosed then (.error (.storeUnavailable .inProcessClosed), l) else (.ok answer, after)

/-- The bucket step on the record that counts. Its outcome is written down if tokens were asked for. -/
def execute (now : Instant) (request : Request) (l : Ledger) : Except Failure Reply × Ledger :=
  let settlement := request.settle (l.live? now request.key)
  l.whenOpen (l.encoding.reply request.requested settlement)
    (if request.requested = 0 then l
      else l.enter request.key
        (some ⟨⟨settlement.tokens, request.now⟩, deadline now request.ttl⟩))

/-- The record of a key, if it still counts. -/
def fetch (now : Instant) (key : String) (l : Ledger) : Except Failure (Option Record) × Ledger :=
  l.whenOpen (l.live? now key) l

/-- Forgets a key, and tells whether it had a record that still counted. -/
def delete (now : Instant) (key : String) (l : Ledger) : Except Failure Bool × Ledger :=
  l.whenOpen (l.live? now key).isSome (l.enter key none)

instance : BucketStore Ledger where
  execute := execute
  fetch := fetch
  delete := delete
  close l := (.ok (), { l with isClosed := true })

end Ledger

/-! ### Runs of a store -/

/-- What happens to a store in memory. -/
inductive StoreEvent where
  /-- Something is asked. -/
  | asked (now : Instant) (call : StoreCall)
  /-- Expired records are dropped. -/
  | purge (now : Instant)
deriving DecidableEq

namespace StoreEvent

/-- The instant of an event on the clock of the store. -/
def instant : StoreEvent → Instant
  | .asked now _ => now
  | .purge now => now

/-- The call of an event, with its instant. -/
def call? : StoreEvent → Option (Instant × StoreCall)
  | .asked now call => some (now, call)
  | .purge _ => none

/-- The calls among some events. -/
def calls (events : List StoreEvent) : List (Instant × StoreCall) := events.filterMap call?

end StoreEvent

namespace BucketStore

variable {σ : Type} [BucketStore σ]

/-- A store after some calls. -/
def afterCalls (store : σ) (calls : List (Instant × StoreCall)) : σ :=
  calls.foldl (fun store c => c.2.perform c.1 store) store

/-- What a store says to some calls. -/
def answers (store : σ) : List (Instant × StoreCall) → List StoreAnswer
  | [] => []
  | c :: calls => c.2.answer c.1 store :: answers (c.2.perform c.1 store) calls

end BucketStore

namespace InProcess

/-- The store after an event. -/
def afterEvent (s : InProcess) : StoreEvent → InProcess
  | .asked now call => call.perform now s
  | .purge now => s.purge now

/-- The store after some events. -/
def run (s : InProcess) (events : List StoreEvent) : InProcess := events.foldl afterEvent s

/-- What the store says to the calls among some events. -/
def answers (s : InProcess) : List StoreEvent → List StoreAnswer
  | [] => []
  | .asked now call :: events => call.answer now s :: answers (call.perform now s) events
  | .purge now :: events => answers (s.purge now) events

end InProcess

/-! ### What a ledger shows -/

namespace Ledger

variable {l l' : Ledger} {now later : Instant} {key : String} {request : Request}

theorem lines_enter (entered : String) (line : Option Line) :
    (l.enter entered line).lines key = if entered = key then line else l.lines key := by
  simp only [enter, Function.update_apply, eq_comm]

theorem live?_enter (entered : String) (line : Option Line) :
    (l.enter entered line).live? later key =
      if entered = key then (line.filter fun line => later.toInt < line.deadline).map (·.record)
      else l.live? later key := by
  rw [live?, lines_enter]
  split <;> rfl

theorem whenOpen_fst {α : Type} (answer : α) (after : Ledger) :
    (l.whenOpen answer after).1 =
      if l.isClosed then .error (.storeUnavailable .inProcessClosed) else .ok answer := by
  rw [whenOpen]
  split <;> rfl

theorem whenOpen_snd {α : Type} (answer : α) (after : Ledger) :
    (l.whenOpen answer after).2 = if l.isClosed then l else after := by
  rw [whenOpen]
  split <;> rfl

/-- The deadline of a line is the instant at which a record written in memory expires. -/
theorem lt_deadline_iff :
    later < InProcess.deadline now request ↔ later.toInt < deadline now request.ttl := by
  rw [Int64.lt_iff_toInt_lt, InProcess.deadline, Instant.toInt_after, deadline, Nat.cast_min]

@[simp] theorem execute_isClosed : (l.execute now request).2.isClosed = l.isClosed := by
  rw [execute, whenOpen_snd]
  split
  · rfl
  · split <;> rfl

@[simp] theorem execute_encoding : (l.execute now request).2.encoding = l.encoding := by
  rw [execute, whenOpen_snd]
  split
  · rfl
  · split <;> rfl

theorem perform_encoding (call : StoreCall) : (call.perform now l).encoding = l.encoding := by
  cases call with
  | execute request => exact execute_encoding
  | fetch key =>
    change (l.fetch now key).2.encoding = _
    rw [fetch, whenOpen_snd, ite_self]
  | delete key =>
    change (l.delete now key).2.encoding = _
    rw [delete, whenOpen_snd]
    split <;> rfl
  | close => rfl

theorem afterCalls_encoding (calls : List (Instant × StoreCall)) :
    (BucketStore.afterCalls l calls).encoding = l.encoding := by
  induction calls generalizing l with
  | nil => rfl
  | cons c calls ih => exact ih.trans (perform_encoding c.2)

/-- A request changes its own key only, and that by the record it leaves. -/
theorem live?_execute (hopen : l.isClosed = false) :
    (l.execute now request).2.live? later key =
      match (request.settle (l.live? now request.key)).record? request.now with
      | some r =>
        if request.key = key then if later < InProcess.deadline now request then some r else none
        else l.live? later key
      | none => l.live? later key := by
  rw [execute, whenOpen_snd, hopen]
  by_cases hlook : request.requested = 0
  · rw [Draw.record?_settle_of_look hlook]
    simp only [hlook, if_true, Bool.false_eq_true, if_false]
  · rw [Draw.record?_settle hlook]
    simp only [hlook, Bool.false_eq_true, if_false]
    rw [live?_enter]
    split
    · simp only [Option.filter_some, decide_eq_true_eq, lt_deadline_iff]
      split <;> rfl
    · rfl

/-! ### A call hears of its own key only -/

/-- Two ledgers agree on a key. -/
structure AgreesOn (l l' : Ledger) (key : String) : Prop where
  isClosed_eq : l.isClosed = l'.isClosed
  encoding_eq : l.encoding = l'.encoding
  lines_eq : l.lines key = l'.lines key

namespace AgreesOn

theorem live?_eq (h : l.AgreesOn l' key) : l.live? now key = l'.live? now key := by
  rw [live?, h.lines_eq, live?]

theorem enter (h : l.AgreesOn l' key) {entered : String} {line line' : Option Line}
    (hline : entered = key → line = line') :
    (l.enter entered line).AgreesOn (l'.enter entered line') key := by
  refine ⟨h.isClosed_eq, h.encoding_eq, ?_⟩
  rw [lines_enter, lines_enter]
  split
  · next hkey => exact hline hkey
  · exact h.lines_eq

theorem whenOpen {α : Type} {answer answer' : α} {after after' : Ledger} (h : l.AgreesOn l' key)
    (hafter : after.AgreesOn after' key) :
    (l.whenOpen answer after).2.AgreesOn (l'.whenOpen answer' after').2 key := by
  rw [whenOpen_snd, whenOpen_snd, h.isClosed_eq]
  split
  · exact h
  · exact hafter

/-- What is said to a call about a key is written under that key. -/
theorem answer_eq (h : l.AgreesOn l' key) {call : StoreCall} (hkey : call.key? = some key) :
    call.answer now l = call.answer now l' := by
  cases call with
  | execute request =>
    obtain rfl : request.key = key := Option.some.inj hkey
    refine congrArg StoreAnswer.reply ?_
    change (l.execute now request).1 = (l'.execute now request).1
    rw [execute, execute, whenOpen_fst, whenOpen_fst, h.isClosed_eq, h.encoding_eq, h.live?_eq]
  | fetch fetched =>
    obtain rfl : fetched = key := Option.some.inj hkey
    refine congrArg StoreAnswer.record ?_
    change (l.fetch now fetched).1 = (l'.fetch now fetched).1
    rw [fetch, fetch, whenOpen_fst, whenOpen_fst, h.isClosed_eq, h.live?_eq]
  | delete erased =>
    obtain rfl : erased = key := Option.some.inj hkey
    refine congrArg StoreAnswer.existed ?_
    change (l.delete now erased).1 = (l'.delete now erased).1
    rw [delete, delete, whenOpen_fst, whenOpen_fst, h.isClosed_eq, h.live?_eq]
  | close => cases hkey

/-- Whatever is asked of both, they go on to agree. -/
theorem perform (h : l.AgreesOn l' key) (call : StoreCall) :
    (call.perform now l).AgreesOn (call.perform now l') key := by
  cases call with
  | execute request =>
    change (l.execute now request).2.AgreesOn (l'.execute now request).2 key
    rw [execute, execute]
    refine h.whenOpen ?_
    split
    · exact h
    · refine h.enter ?_
      rintro rfl
      rw [h.live?_eq]
  | fetch fetched => exact h.whenOpen h
  | delete erased => exact h.whenOpen (h.enter fun _ => rfl)
  | close => exact ⟨rfl, h.encoding_eq, h.lines_eq⟩

/-- What is asked of one of them about another key leaves them in agreement. -/
theorem perform_of_ne (h : l.AgreesOn l' key) {call : StoreCall} {other : String}
    (hother : call.key? = some other) (hne : other ≠ key) :
    (call.perform now l).AgreesOn l' key := by
  have henter (line : Option Line) : (l.enter other line).AgreesOn l' key := by
    refine ⟨h.isClosed_eq, h.encoding_eq, ?_⟩
    rw [lines_enter, if_neg hne, h.lines_eq]
  have hopen {α : Type} (answer : α) {after : Ledger} (hafter : after.AgreesOn l' key) :
      (l.whenOpen answer after).2.AgreesOn l' key := by
    rw [whenOpen_snd]
    split
    · exact h
    · exact hafter
  cases call with
  | execute request =>
    obtain rfl : request.key = other := Option.some.inj hother
    refine hopen _ ?_
    split
    · exact h
    · exact henter _
  | fetch fetched => exact hopen _ h
  | delete erased =>
    obtain rfl : erased = other := Option.some.inj hother
    exact hopen _ (henter none)
  | close => cases hother

/-- A key that has been forgotten is as in a ledger in which nothing has been written. -/
theorem empty_of_delete (hopen : l.isClosed = false) :
    ((StoreCall.delete key).perform now l).AgreesOn (.empty l.encoding) key := by
  change (l.delete now key).2.AgreesOn (.empty l.encoding) key
  rw [delete, whenOpen_snd, hopen]
  refine ⟨hopen, rfl, ?_⟩
  simp [lines_enter, empty]

theorem afterCalls (h : l.AgreesOn l' key) (calls : List (Instant × StoreCall)) :
    (BucketStore.afterCalls l calls).AgreesOn (BucketStore.afterCalls l' calls) key := by
  induction calls generalizing l l' with
  | nil => exact h
  | cons c calls ih => exact ih (h.perform c.2)

end AgreesOn

end Ledger

/-! ### A store in memory follows the ledger -/

namespace InProcess

variable {s : InProcess} {l : Ledger} {now later : Instant} {key : String} {request : Request}

/-- From an instant on the store shows what the ledger shows. -/
structure Follows (s : InProcess) (l : Ledger) (now : Instant) : Prop where
  isClosed_eq : s.isClosed = l.isClosed
  encoding_eq : s.encoding = l.encoding
  live?_eq : ∀ key later, now ≤ later → s.live? later key = l.live? later key

namespace Follows

theorem opened (opened now : Instant) (encoding : Encoding) (interval : Duration) :
    (InProcess.open opened encoding interval).Follows (.empty encoding) now :=
  ⟨rfl, rfl, fun _ _ _ => rfl⟩

theorem mono (h : s.Follows l now) (hle : now ≤ later) : s.Follows l later :=
  ⟨h.isClosed_eq, h.encoding_eq, fun key _ hlater =>
    h.live?_eq key _ (Int64.le_trans hle hlater)⟩

theorem purge (h : s.Follows l now) : (s.purge now).Follows l now :=
  ⟨h.isClosed_eq, h.encoding_eq, fun key later hle => by
    rw [live?_purge hle, h.live?_eq key later hle]⟩

theorem execute (h : s.Follows l now) (request : Request) :
    (s.execute now request).1 = (l.execute now request).1 ∧
      (s.execute now request).2.Follows (l.execute now request).2 now := by
  have hlive := h.live?_eq request.key now (Int64.le_refl now)
  cases hclosed : s.isClosed with
  | true =>
    have hclosed' : l.isClosed = true := h.isClosed_eq ▸ hclosed
    rw [execute_of_isClosed hclosed, Ledger.execute, Ledger.whenOpen, if_pos hclosed']
    exact ⟨rfl, h⟩
  | false =>
    have hopen : l.isClosed = false := h.isClosed_eq ▸ hclosed
    have hanswer : (s.execute now request).1 = (l.execute now request).1 := by
      rw [execute_eq hclosed, Ledger.execute, Ledger.whenOpen_fst, hopen, hlive, h.encoding_eq]
      rfl
    refine ⟨hanswer, ?_, ?_, ?_⟩
    · rw [execute_isClosed, h.isClosed_eq, Ledger.execute_isClosed]
    · rw [execute_encoding, h.encoding_eq, Ledger.execute_encoding]
    · intro key later hle
      rw [live?_execute hclosed hle, hlive, h.live?_eq key later hle]
      exact (Ledger.live?_execute hopen).symm

theorem fetch (h : s.Follows l now) (key : String) :
    (s.fetch now key).1 = (l.fetch now key).1 ∧ (s.fetch now key).2.Follows (l.fetch now key).2 now := by
  have hlive := h.live?_eq key now (Int64.le_refl now)
  have hledger : (l.fetch now key).2 = l := by rw [Ledger.fetch, Ledger.whenOpen_snd, ite_self]
  rw [fetch_snd, hledger, InProcess.fetch, Ledger.fetch, whenOpen, Ledger.whenOpen_fst, ← h.isClosed_eq]
  refine ⟨?_, h⟩
  split
  · rfl
  · rw [hlive]

theorem delete (h : s.Follows l now) (key : String) :
    (s.delete now key).1 = (l.delete now key).1 ∧
      (s.delete now key).2.Follows (l.delete now key).2 now := by
  have hlive := h.live?_eq key now (Int64.le_refl now)
  cases hclosed : s.isClosed with
  | true =>
    have hclosed' : l.isClosed = true := h.isClosed_eq ▸ hclosed
    rw [delete_of_isClosed hclosed, Ledger.delete, Ledger.whenOpen, if_pos hclosed']
    exact ⟨rfl, h⟩
  | false =>
    have hopen : l.isClosed = false := h.isClosed_eq ▸ hclosed
    have hledger : l.delete now key = (.ok (l.live? now key).isSome, l.enter key none) := by
      rw [Ledger.delete, Ledger.whenOpen, hopen]
      rfl
    rw [hledger]
    refine ⟨?_, ?_, ?_, ?_⟩
    · rw [delete_eq hclosed, hlive]
    · rw [delete_eq hclosed]
      exact h.isClosed_eq
    · rw [delete_eq hclosed]
      exact h.encoding_eq
    · intro other later hle
      rw [live?_delete hclosed, Ledger.live?_enter, h.live?_eq other later hle]
      rfl

theorem close (h : s.Follows l now) :
    s.close.Follows { l with isClosed := true } now :=
  ⟨rfl, h.encoding_eq, h.live?_eq⟩

end Follows

/-- Nobody who asks can tell a store in memory from the ledger it follows. -/
theorem simulation_follows :
    BucketStore.Simulation fun now (s : InProcess) (l : Ledger) => s.Follows l now where
  mono := Follows.mono
  answer_eq h call := by
    cases call with
    | execute request => exact congrArg StoreAnswer.reply (h.execute request).1
    | fetch key => exact congrArg StoreAnswer.record (h.fetch key).1
    | delete key => exact congrArg StoreAnswer.existed (h.delete key).1
    | close => rfl
  perform h call := by
    cases call with
    | execute request => exact (h.execute request).2
    | fetch key => exact (h.fetch key).2
    | delete key => exact (h.delete key).2
    | close => exact h.close

/-! ### Runs -/

/-- Along a run on a clock that does not run backwards the store follows the ledger of the calls, and what
it says is what the ledger says. -/
theorem follows_run {events : List StoreEvent} (h : s.Follows l now)
    (hfrom : ∀ e ∈ events, now ≤ e.instant) (hto : ∀ e ∈ events, e.instant ≤ later) (hle : now ≤ later)
    (hclock : events.Pairwise fun e e' => e.instant ≤ e'.instant) :
    (s.run events).Follows (BucketStore.afterCalls l (StoreEvent.calls events)) later ∧
      s.answers events = BucketStore.answers l (StoreEvent.calls events) := by
  induction events generalizing s l now with
  | nil => exact ⟨h.mono hle, rfl⟩
  | cons e events ih =>
    obtain ⟨hnow, -⟩ := List.forall_mem_cons.mp hfrom
    obtain ⟨hlater, htoRest⟩ := List.forall_mem_cons.mp hto
    obtain ⟨hfromRest, hclockRest⟩ := List.pairwise_cons.mp hclock
    have h' := h.mono hnow
    cases e with
    | asked at' call =>
      obtain ⟨hrun, hanswers⟩ :=
        ih (simulation_follows.perform h' call) hfromRest htoRest hlater hclockRest
      exact ⟨hrun, congrArg₂ List.cons (simulation_follows.answer_eq h' call) hanswers⟩
    | purge at' => exact ih h'.purge hfromRest htoRest hlater hclockRest

/-- The same for a store that has just been opened, and whatever follows. -/
theorem follows_open (opened : Instant) (encoding : Encoding) (interval : Duration)
    {events : List StoreEvent} (hto : ∀ e ∈ events, e.instant ≤ later)
    (hclock : events.Pairwise fun e e' => e.instant ≤ e'.instant) :
    ((InProcess.open opened encoding interval).run events).Follows
        (BucketStore.afterCalls (Ledger.empty encoding) (StoreEvent.calls events)) later ∧
      (InProcess.open opened encoding interval).answers events =
        BucketStore.answers (Ledger.empty encoding) (StoreEvent.calls events) :=
  follows_run (.opened opened Int64.minValue encoding interval)
    (fun e _ => Int64.minValue_le e.instant) hto (Int64.minValue_le later) hclock

/-- A store in memory whose clock does not run backwards answers as the ledger does. So its answers depend
neither on the interval between two sweeps nor on purges; and once a key has been forgotten, what is said
of it is what a store says in which it was never used. -/
theorem answers_eq_ledger (opened : Instant) (encoding : Encoding) (interval : Duration)
    (events : List StoreEvent) (hclock : events.Pairwise fun e e' => e.instant ≤ e'.instant) :
    let s := InProcess.open opened encoding interval
    s.answers events = BucketStore.answers (Ledger.empty encoding) (StoreEvent.calls events) ∧
    (∀ (opened' : Instant) (interval' : Duration) (events' : List StoreEvent),
      (events'.Pairwise fun e e' => e.instant ≤ e'.instant) →
      StoreEvent.calls events' = StoreEvent.calls events →
      (InProcess.open opened' encoding interval').answers events' = s.answers events) ∧
    ∀ (before : List StoreEvent) (erasedAt : Instant) (key : String) (between : List StoreEvent)
      (askedAt : Instant) (call : StoreCall) (rest : List StoreEvent),
      events = before ++ .asked erasedAt (.delete key) :: (between ++ .asked askedAt call :: rest) →
      (s.run before).isClosed = false → call.key? = some key →
      ∀ (opened' : Instant) (interval' : Duration),
        call.answer askedAt (s.run (before ++ .asked erasedAt (.delete key) :: between)) =
          call.answer askedAt ((InProcess.open opened' encoding interval').run between) := by
  intro s
  have hlatest (events : List StoreEvent) : ∀ e ∈ events, e.instant ≤ Int64.maxValue :=
    fun e _ => Int64.le_maxValue e.instant
  have hanswers := (follows_open opened encoding interval (hlatest events) hclock).2
  refine ⟨hanswers, ?_, ?_⟩
  · intro opened' interval' events' hclock' hcalls
    rw [hanswers, (follows_open opened' encoding interval' (hlatest events') hclock').2, hcalls]
  · intro before erasedAt key between askedAt call rest hevents hopen hkey opened' interval'
    rw [hevents, ← List.cons_append, ← List.append_assoc] at hclock
    obtain ⟨hearlier, -, hcross⟩ := List.pairwise_append.mp hclock
    have hto : ∀ e ∈ before ++ .asked erasedAt (.delete key) :: between, e.instant ≤ askedAt :=
      fun e he => hcross e he _ List.mem_cons_self
    obtain ⟨hbefore, hafter, hcross'⟩ := List.pairwise_append.mp hearlier
    obtain ⟨-, hbetween⟩ := List.pairwise_cons.mp hafter
    obtain ⟨htoBefore, htoAfter⟩ := List.forall_mem_append.mp hto
    -- what the ledger of each of the two stores shows for the key
    have hforgotten := (follows_open opened encoding interval htoBefore hbefore).1
    have hleft := (follows_open opened encoding interval hto hearlier).1
    have hright := (follows_open opened' encoding interval' (List.forall_mem_cons.mp htoAfter).2
      hbetween).1
    rw [simulation_follows.answer_eq hleft call, simulation_follows.answer_eq hright call]
    have hagrees : Ledger.AgreesOn ((StoreCall.delete key).perform erasedAt _) _ key :=
      Ledger.AgreesOn.empty_of_delete (hforgotten.isClosed_eq ▸ hopen)
    rw [Ledger.afterCalls_encoding] at hagrees
    have hcalls : StoreEvent.calls (before ++ .asked erasedAt (.delete key) :: between) =
        StoreEvent.calls before ++ (erasedAt, .delete key) :: StoreEvent.calls between := by
      simp [StoreEvent.calls, StoreEvent.call?]
    rw [hcalls, BucketStore.afterCalls, List.foldl_append]
    exact (hagrees.afterCalls (StoreEvent.calls between)).answer_eq hkey

/-- A bucket is emptied and left alone for the hour after which its record expires, then used again and
forgotten. A store that sweeps at every request, and one that is purged at the last moment, say the same;
and the last look finds what it finds in a store without that past. -/
theorem answers_eq_ledger_standard :
    let draw (now : Instant) (n : Int64) : StoreEvent :=
      .asked now (.execute (KeySpace.standard.request .standard "k" now n))
    let key := KeySpace.standard.storeKey "k"
    let before := [draw 0 20, .asked 3599999 (.fetch key), .asked 3600000 (.fetch key),
      draw 3600000 5]
    let purged := [draw 0 20, .asked 3599999 (.fetch key), .purge 3600000,
      .asked 3600000 (.fetch key), draw 3600000 5]
    let after := [.asked 3600000 (.delete key), draw 3600001 0]
    let s := InProcess.open 0 .flag ⟨0⟩
    (before ++ after).Pairwise (fun e e' => e.instant ≤ e'.instant) ∧
      s.answers (before ++ after) =
        BucketStore.answers (Ledger.empty .flag) (StoreEvent.calls (before ++ after)) ∧
      (InProcess.open 0 .flag InProcess.standardSweepInterval).answers (purged ++ after) =
        s.answers (before ++ after) ∧
      (StoreCall.execute (KeySpace.standard.request .standard "k" 3600001 0)).answer 3600001
          (s.run (before ++ [.asked 3600000 (.delete key)])) =
        (StoreCall.execute (KeySpace.standard.request .standard "k" 3600001 0)).answer 3600001 s := by
  intro draw key before purged after s
  have hclock : (before ++ after).Pairwise (fun e e' => e.instant ≤ e'.instant) := by decide
  obtain ⟨hledger, hother, hforgotten⟩ := answers_eq_ledger 0 .flag ⟨0⟩ (before ++ after) hclock
  exact ⟨hclock, hledger, hother 0 InProcess.standardSweepInterval (purged ++ after) (by decide) rfl,
    hforgotten before 3600000 key [] 3600001 _ [] rfl (by decide +kernel) rfl 0 ⟨0⟩⟩

end InProcess

end TokenBucket
