import TokenBucket.Proofs.Fleet.Asked
import TokenBucket.Proofs.Fleet.Budget
import TokenBucket.Proofs.Fleet.Looks
import TokenBucket.Proofs.Store.Lasting

/-!
# Expiration is not noticed

When a record expires its bucket is taken for full. If the idle time is long enough to fill a bucket, that
grants nothing that would not have been granted anyway: limiters of one policy over a store in memory say
what they say over a store in which no record ever expires (`Fleet.expiration_not_noticed`). No assumption
on the numbers is needed beyond the one on the idle time, and that one is about the inflow as the step
computes it.

Two steps lead there. The store in memory drops records, in sweeps, purges and looks; on a clock that does
not run backwards it says what the ledger says, purges included (`Fleet.answersAlong_eq_ledger`). In the
ledger the record that has expired is still written down, as it is in the lasting store, and the calls of a
policy on the clock of the store cannot tell the two apart (`Fleet.answers_of_extends`).

## Main definitions

* `Visit.IsTimely`, `Event.IsTimely`: a call on the clock of the store, or a purge.
* `Event.visits`, `Fleet.answersAlong`: the visits among some events, and the answers to them.

## Main results

* `Fleet.answersAlong_eq_ledger`, `Fleet.answers_of_extends`, `Fleet.expiration_not_noticed`.
-/

namespace TokenBucket

variable {ι : Type} {p : Policy}

/-! ### Timely calls -/

/-- The call asks for tokens or for the balance, with room for the expiration of what it writes, or closes
its limiter. -/
def Call.IsTimely (p : Policy) (now : Instant) : Call → Prop
  | .allow _ n => n ≠ 0 → now.toInt + p.idle.millis ≤ Instant.latestMillis
  | .remaining _ => True
  | .close => True
  | .record _ => False
  | .reset _ => False

instance (now : Instant) : (call : Call) → Decidable (call.IsTimely p now)
  | .allow _ n =>
    inferInstanceAs (Decidable (n ≠ 0 → now.toInt + p.idle.millis ≤ Instant.latestMillis))
  | .remaining _ => inferInstanceAs (Decidable True)
  | .close => inferInstanceAs (Decidable True)
  | .record _ => inferInstanceAs (Decidable False)
  | .reset _ => inferInstanceAs (Decidable False)

/-- A visit with a timely call on the clock of the store. -/
def Visit.IsTimely (p : Policy) (v : Visit ι) : Prop := v.now = v.storeNow ∧ v.call.IsTimely p v.now

instance (v : Visit ι) : Decidable (v.IsTimely p) :=
  inferInstanceAs (Decidable (v.now = v.storeNow ∧ v.call.IsTimely p v.now))

/-- What a timely call asks of the store is timely. -/
theorem Limiter.isTimely_of_asks? {l : Limiter} {now : Instant} {call : Call} {c : StoreCall}
    (hcall : call.IsTimely l.policy now) (hasks : l.asks? now call = some c) :
    c.IsTimely l.policy now := by
  have hallow {key : String} {n : Int64} (hasks : l.asks? now (.allow key n) = some c)
      (hroom : n ≠ 0 → now.toInt + l.policy.idle.millis ≤ Instant.latestMillis) :
      c.IsTimely l.policy now := by
    obtain ⟨request, hrequest, rfl⟩ := asks?_allow.mp hasks
    obtain ⟨hn, -, -, rfl⟩ := request_eq_ok_iff.mp hrequest
    exact Or.inr ⟨l.keys, key, n, rfl, hn, hroom⟩
  cases call with
  | allow key n => exact hallow hasks hcall
  | remaining key => exact hallow (n := 0) hasks (absurd rfl)
  | close =>
    rw [asks?] at hasks
    split at hasks
    · cases hasks
    · exact Or.inl (Option.some.inj hasks).symm
  | record key => exact hcall.elim
  | reset key => exact hcall.elim

namespace Event

/-- A timely visit or a purge. -/
def IsTimely (p : Policy) : Event ι → Prop
  | .visit v => v.IsTimely p
  | .direct _ _ => False
  | .purge _ => True

instance : (e : Event ι) → Decidable (e.IsTimely p)
  | .visit v => inferInstanceAs (Decidable (v.IsTimely p))
  | .direct _ _ => inferInstanceAs (Decidable False)
  | .purge _ => inferInstanceAs (Decidable True)

end Event

/-! ### Runs -/

namespace Fleet

variable [DecidableEq ι]

/-- What the limiters say to the visits among some events. -/
def answersAlong : Fleet ι InProcess → List (Event ι) → List Answer
  | _, [] => []
  | f, .visit v :: events => (f.visit v).1 :: answersAlong (f.visit v).2 events
  | f, .direct storeNow call :: events => answersAlong (f.step (.direct storeNow call)) events
  | f, .purge storeNow :: events => answersAlong (f.step (.purge storeNow)) events

/-- Along visits and purges on a clock that does not run backwards, limiters over a store in memory say what
they say over the ledger that it follows. -/
theorem answersAlong_eq_ledger {f : Fleet ι InProcess} {g : Fleet ι Ledger} {now : Instant}
    (hlimiters : f.limiters = g.limiters) (hstores : f.store.Follows g.store now)
    {events : List (Event ι)} (hfrom : ∀ e ∈ events, now ≤ e.instant)
    (hclock : events.Pairwise fun e e' => e.instant ≤ e'.instant)
    (htimely : ∀ e ∈ events, e.IsTimely p) : f.answersAlong events = g.answers (Event.visits events) := by
  induction events generalizing f g now with
  | nil => rfl
  | cons e events ih =>
    obtain ⟨hnow, -⟩ := List.forall_mem_cons.mp hfrom
    obtain ⟨hlater, hclockRest⟩ := List.pairwise_cons.mp hclock
    obtain ⟨he, hrest⟩ := List.forall_mem_cons.mp htimely
    cases e with
    | visit v =>
      obtain ⟨hanswer, hlimiters', hafter⟩ :=
        visit_of_simulation InProcess.simulation_follows hlimiters (hstores.mono hnow)
      exact congrArg₂ List.cons hanswer (ih hlimiters' hafter hlater hclockRest hrest)
    | direct storeNow call => exact he.elim
    | purge storeNow => exact ih hlimiters (hstores.mono hnow).purge hlater hclockRest hrest

/-- Timely calls of limiters of one policy are answered over a lasting store as over a ledger with the same
records. -/
theorem answers_of_extends (hidle : p.RefillsWhileIdle) {f : Fleet ι Lasting} {g : Fleet ι Ledger}
    (hlimiters : f.limiters = g.limiters) (hpolicy : ∀ i, (g.limiters i).policy = p)
    (hstores : f.store.Extends g.store p) {visits : List (Visit ι)}
    (htimely : ∀ v ∈ visits, v.IsTimely p) : f.answers visits = g.answers visits := by
  induction visits generalizing f g with
  | nil => rfl
  | cons v visits ih =>
    obtain ⟨⟨hshared, hcall⟩, hrest⟩ := List.forall_mem_cons.mp htimely
    have hasked (c : StoreCall) (hasks : (g.limiters v.limiter).asks? v.now v.call = some c) :
        c.IsTimely p v.storeNow := by
      rw [← hpolicy v.limiter] at hcall ⊢
      rw [← hshared]
      exact Limiter.isTimely_of_asks? hcall hasks
    have hanswer : (f.visit v).1 = (g.visit v).1 :=
      visit_fst_congr hlimiters fun c hasks => hstores.answer_eq hidle (hasked c hasks)
    have hafter : (f.visit v).2.store.Extends (g.visit v).2.store p :=
      rel_store_visit (R := (Lasting.Extends · · p)) hlimiters hstores fun c hasks =>
        hstores.perform hidle (hasked c hasks)
    have hpolicy' (i : ι) : ((g.visit v).2.limiters i).policy = p :=
      (policy_visit i).1.trans (hpolicy i)
    exact congrArg₂ List.cons hanswer
      (ih (limiters_visit_congr hlimiters v) hpolicy' hafter hrest)

/-- Limiters of one policy share a store in memory and its clock, which does not run backwards. If a full
bucket flows in during the idle time, they say what they say over a store in which no record ever expires,
whatever the interval between two sweeps and wherever purges fall. -/
theorem expiration_not_noticed (hidle : p.RefillsWhileIdle) (limiters : ι → Limiter)
    (hpolicy : ∀ i, (limiters i).policy = p) (opened : Instant) (encoding : Encoding) (interval : Duration)
    (events : List (Event ι)) (hclock : events.Pairwise fun e e' => e.instant ≤ e'.instant)
    (htimely : ∀ e ∈ events, e.IsTimely p) :
    (Fleet.fresh limiters opened encoding interval).answersAlong events =
      (⟨limiters, .empty encoding⟩ : Fleet ι Lasting).answers (Event.visits events) := by
  have hvisits : ∀ v ∈ Event.visits events, v.IsTimely p := by
    intro v hv
    exact htimely _ (Event.mem_visits.mp hv)
  have hledger : (Fleet.fresh limiters opened encoding interval).answersAlong events =
      (⟨limiters, .empty encoding⟩ : Fleet ι Ledger).answers (Event.visits events) :=
    answersAlong_eq_ledger rfl (.opened opened Int64.minValue encoding interval)
      (fun e _ => Int64.minValue_le e.instant) hclock htimely
  rw [hledger]
  exact (answers_of_extends hidle rfl hpolicy (.empty encoding p) hvisits).symm

/-- A bucket is emptied, and its record is gone when the hour is over: the store that forgets it finds a
full bucket, and so does the one that has it still. Two limiters meet there, a purge falls at the very
instant, and the look after it finds a bucket that is not full any more. -/
theorem expiration_not_noticed_standard :
    let limiters : Fin 2 → Limiter := fun i => .new .standard ⟨if i = 0 then "a:" else "a:b:"⟩
    let events : List (Event (Fin 2)) :=
      [.visit ⟨0, 0, 0, .allow "b:k" 20⟩, .visit ⟨1, 0, 0, .allow "k" 1⟩, .purge 3600000,
        .visit ⟨1, 3600000, 3600000, .allow "k" 5⟩, .visit ⟨0, 3600000, 3600000, .remaining "b:k"⟩]
    Policy.standard.RefillsWhileIdle ∧
      (Fleet.fresh limiters 0 .flag ⟨0⟩).answersAlong events =
        (⟨limiters, .empty .flag⟩ : Fleet (Fin 2) Lasting).answers (Event.visits events) := by
  intro limiters events
  have hidle : Policy.standard.RefillsWhileIdle := by decide +kernel
  have hpolicy (i : Fin 2) : (limiters i).policy = .standard := rfl
  exact ⟨hidle, expiration_not_noticed hidle limiters hpolicy 0 .flag ⟨0⟩ events (by decide) (by decide)⟩

end Fleet

end TokenBucket
