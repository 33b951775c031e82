import TokenBucket.Proofs.Fleet.Asked
import TokenBucket.Proofs.Fleet.Looks

/-!
# Keys are independent

Calls on one store key are answered as if the calls on all others had never been made, whoever has made
them and under whatever parameters (`Fleet.keys_independent`). In memory this is not a matter of the lookup
alone: a call on another key can set off a sweep that drops the records of every key, and puts off the next
one. But over a ledger such a call leaves the key as it was, and limiters over a store in memory say what
they say over the ledger. Closing a limiter is about no key, and concerns them all.

## Main definitions

* `Visit.IsElsewhere`: a visit that is about another store key.

## Main results

* `Fleet.agreesOn_visit`, `Fleet.agreesOn_visit_of_isElsewhere`: what a visit does to a key.
* `Fleet.ownAnswers_of_agreesOn`: the same along a run.
* `Fleet.keys_independent`.
-/

namespace TokenBucket

/-- A visit that is about another store key. -/
def Visit.IsElsewhere {ι : Type} (limiters : ι → Limiter) (storeKey : String) (v : Visit ι) : Prop :=
  ∃ other ∈ v.storeKey? limiters, other ≠ storeKey

instance {ι : Type} (limiters : ι → Limiter) (storeKey : String) (v : Visit ι) :
    Decidable (v.IsElsewhere limiters storeKey) :=
  inferInstanceAs (Decidable (∃ other ∈ v.storeKey? limiters, other ≠ storeKey))

/-- Calls of one key space on one store key are calls on one key. -/
theorem Visit.key?_eq_of_storeKey?_eq {ι : Type} {limiters : ι → Limiter} {v v' : Visit ι}
    (hkeys : (limiters v.limiter).keys = (limiters v'.limiter).keys)
    (h : v.storeKey? limiters = v'.storeKey? limiters) : v.call.key? = v'.call.key? := by
  rw [storeKey?, storeKey?, hkeys] at h
  exact Option.map_injective (limiters v'.limiter).keys.storeKey_injective h

theorem Visit.IsElsewhere.call_ne_close {ι : Type} {limiters : ι → Limiter} {storeKey : String}
    {v : Visit ι} (h : v.IsElsewhere limiters storeKey) : v.call ≠ .close := by
  intro hclose
  obtain ⟨other, hother, -⟩ := h
  rw [storeKey?, hclose] at hother
  cases hother

/-- A store that agrees with another one on a key answers alike what is about no other key. -/
theorem Ledger.AgreesOn.answer_eq_of_forall {l l' : Ledger} {now : Instant} {key : String}
    (h : l.AgreesOn l' key) {call : StoreCall} (hkey : ∀ other ∈ call.key?, other = key) :
    call.answer now l = call.answer now l' := by
  cases hcall : call.key? with
  | some other => exact h.answer_eq (hcall.trans (congrArg some (hkey other hcall)))
  | none =>
    cases call with
    | close => rfl
    | _ => cases hcall

namespace Fleet

variable {ι : Type} [DecidableEq ι] {f g : Fleet ι Ledger} {limiters : ι → Limiter} {storeKey : String}
  {v : Visit ι}

omit [DecidableEq ι] in
/-- What a visit asks of the store is about the store key of the visit. -/
theorem key?_of_asks? {σ : Type} {f : Fleet ι σ} (hkeys : ∀ i, (f.limiters i).keys = (limiters i).keys)
    {c : StoreCall} (hasks : (f.limiters v.limiter).asks? v.now v.call = some c) :
    c.key? = v.storeKey? limiters := by
  rw [Limiter.key?_of_asks? hasks, hkeys, Visit.storeKey?]

/-- Ledgers that agree on a key do so after the same visit to both. -/
theorem agreesOn_visit (hlimiters : f.limiters = g.limiters) (hstores : f.store.AgreesOn g.store storeKey)
    (v : Visit ι) : (f.visit v).2.store.AgreesOn (g.visit v).2.store storeKey :=
  rel_store_visit (R := (Ledger.AgreesOn · · storeKey)) hlimiters hstores fun c _ => hstores.perform c

/-- Ledgers that agree on a key do so after a visit to one of them that is about another key. -/
theorem agreesOn_visit_of_isElsewhere (hkeys : ∀ i, (f.limiters i).keys = (limiters i).keys)
    (hstores : f.store.AgreesOn g.store storeKey) (h : v.IsElsewhere limiters storeKey) :
    (f.visit v).2.store.AgreesOn g.store storeKey := by
  obtain ⟨other, hother, hne⟩ := h
  rw [store_visit_eq]
  cases hasks : (f.limiters v.limiter).asks? v.now v.call with
  | none => exact hstores
  | some c => exact hstores.perform_of_ne ((key?_of_asks? hkeys hasks).trans hother) hne

/-- Over ledgers that agree on a key, a visit that is about no other key is answered alike. -/
theorem visit_fst_of_agreesOn (hlimiters : f.limiters = g.limiters)
    (hkeys : ∀ i, (g.limiters i).keys = (limiters i).keys) (hstores : f.store.AgreesOn g.store storeKey)
    (h : ¬ v.IsElsewhere limiters storeKey) : (f.visit v).1 = (g.visit v).1 := by
  refine visit_fst_congr hlimiters fun c hasks => hstores.answer_eq_of_forall fun other hother => ?_
  rw [key?_of_asks? hkeys hasks] at hother
  exact not_not.mp fun hne => h ⟨other, hother, hne⟩

/-- Over ledgers that agree on a key, the visits that are about no other key are answered as they are
without the rest. -/
theorem ownAnswers_of_agreesOn {run : List (Marked ι)} (hlimiters : f.limiters = g.limiters)
    (hkeys : ∀ i, (g.limiters i).keys = (limiters i).keys) (hstores : f.store.AgreesOn g.store storeKey)
    (hmarked : ∀ m ∈ run, m.isInserted = true ↔ m.visit.IsElsewhere limiters storeKey) :
    Marked.ownAnswers run (f.answers (Marked.all run)) = g.answers (Marked.own run) := by
  induction run generalizing f g with
  | nil => rfl
  | cons m run ih =>
    obtain ⟨hm, hrest⟩ := List.forall_mem_cons.mp hmarked
    change Marked.ownAnswers (m :: run)
      ((f.visit m.visit).1 :: (f.visit m.visit).2.answers (Marked.all run)) = _
    cases hinserted : m.isInserted with
    | false =>
      have hhere : ¬ m.visit.IsElsewhere limiters storeKey := by
        rw [← hm, hinserted]
        exact Bool.false_ne_true
      have hkeys' (i : ι) : ((g.visit m.visit).2.limiters i).keys = (limiters i).keys :=
        (policy_visit i).2.trans (hkeys i)
      rw [Marked.ownAnswers_cons_own hinserted, Marked.own_cons_own hinserted,
        visit_fst_of_agreesOn hlimiters hkeys hstores hhere,
        ih (limiters_visit_congr hlimiters m.visit) hkeys' (agreesOn_visit hlimiters hstores m.visit) hrest]
      rfl
    | true =>
      have helsewhere := hm.mp hinserted
      have hkeys' (i : ι) : (f.limiters i).keys = (limiters i).keys := hlimiters ▸ hkeys i
      rw [Marked.ownAnswers_cons_inserted hinserted, Marked.own_cons_inserted hinserted,
        ih ((limiters_visit helsewhere.call_ne_close).trans hlimiters) hkeys
          (agreesOn_visit_of_isElsewhere hkeys' hstores helsewhere) hrest]

/-- Limiters of any parameters and key spaces share a store whose clock does not run backwards. If all
calls on other store keys than one are left out of a run, the calls that stay are answered as before. And
limiters of one key space meet in a bucket only where they are asked about the same key. -/
theorem keys_independent (limiters : ι → Limiter) (opened : Instant) (encoding : Encoding)
    (interval : Duration) (storeKey : String) (run : List (Marked ι))
    (hclock : (Marked.all run).Pairwise fun v v' => v.storeNow ≤ v'.storeNow)
    (hmarked : ∀ m ∈ run, m.isInserted = true ↔ m.visit.IsElsewhere limiters storeKey) :
    let f := Fleet.fresh limiters opened encoding interval
    Marked.ownAnswers run (f.answers (Marked.all run)) = f.answers (Marked.own run) ∧
    ∀ v v' : Visit ι, (limiters v.limiter).keys = (limiters v'.limiter).keys →
      v.storeKey? limiters = v'.storeKey? limiters → v.call.key? = v'.call.key? := by
  intro f
  constructor
  · rw [answers_over_ledger limiters opened encoding interval hclock,
      answers_over_ledger limiters opened encoding interval (Marked.pairwise_own hclock)]
    exact ownAnswers_of_agreesOn rfl (fun _ => rfl) ⟨rfl, rfl, rfl⟩ hmarked
  · intro v v' hkeys h
    exact Visit.key?_eq_of_storeKey?_eq hkeys h

/-- Two key spaces that overlap: the keys `b:k` of the one and `k` of the other are the same in the store,
which sweeps at every request. A call on another key falls between a draw and the expiration of its record,
and one after it. -/
theorem keys_independent_overlapping :
    let limiters : Fin 2 → Limiter := fun i => .new .standard ⟨if i = 0 then "a:" else "a:b:"⟩
    let f := Fleet.fresh limiters 0 .flag ⟨0⟩
    let look : Visit (Fin 2) := ⟨0, 0, 3601000, .record "b:k"⟩
    let run : List (Marked (Fin 2)) :=
      [⟨⟨0, 0, 0, .allow "b:k" 20⟩, false⟩, ⟨⟨0, 500, 500, .allow "k" 7⟩, true⟩,
        ⟨⟨1, 1000, 1000, .allow "k" 10⟩, false⟩, ⟨⟨1, 3601000, 3601000, .allow "b:k" 1⟩, true⟩,
        ⟨look, false⟩, ⟨⟨1, 0, 3601000, .close⟩, false⟩]
    (∀ m ∈ run, m.isInserted = true ↔ m.visit.IsElsewhere limiters "a:b:k") ∧
      Marked.ownAnswers run (f.answers (Marked.all run)) = f.answers (Marked.own run) ∧
      ∀ key, Visit.storeKey? limiters ⟨0, 0, 0, .remaining key⟩ = look.storeKey? limiters →
        key = "b:k" := by
  intro limiters f look run
  have hmarked : ∀ m ∈ run, m.isInserted = true ↔ m.visit.IsElsewhere limiters "a:b:k" := by decide
  obtain ⟨hanswers, hkeys⟩ :=
    keys_independent limiters 0 .flag ⟨0⟩ "a:b:k" run (by decide) hmarked
  exact ⟨hmarked, hanswers, fun key h => Option.some.inj (hkeys ⟨0, 0, 0, .remaining key⟩ look rfl h)⟩

end Fleet

end TokenBucket
