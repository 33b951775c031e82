import TokenBucket.Proofs.Fleet.Asked

/-!
# What limiters say along a run

Limiters hear of their store only what it answers to their calls. So over two stores that cannot be told
apart they say the same, along a whole run, as long as the clock of the store does not run backwards
(`Fleet.answers_eq_of_simulation`).

To say that some visits do not matter to the others they are marked: a run of marked visits is one run
with and another without the visits that have been inserted, and the answers to the other visits can be
compared.

## Main definitions

* `Fleet.answers`: what the limiters say along a run.
* `Marked`, `Marked.all`, `Marked.own`: a run with and without the visits inserted into it.
* `Marked.ownAnswers`, `Marked.insertedAnswers`: the answers to the visits of either kind.

## Main results

* `Fleet.visit_of_simulation`, `Fleet.answers_eq_of_simulation`.
-/

namespace TokenBucket

/-! ### Limiters over stores that cannot be told apart -/

namespace Fleet

variable {ι σ τ : Type} [DecidableEq ι] [BucketStore σ] [BucketStore τ]
  {R : Instant → σ → τ → Prop} {f : Fleet ι σ} {g : Fleet ι τ}

/-- What the limiters say along a run of visits. -/
def answers (f : Fleet ι σ) : List (Visit ι) → List Answer
  | [] => []
  | v :: visits => (f.visit v).1 :: (f.visit v).2.answers visits

/-- Over related stores a visit is answered alike, and the stores stay related. -/
theorem visit_of_simulation (h : BucketStore.Simulation R) (hlimiters : f.limiters = g.limiters)
    {v : Visit ι} (hstores : R v.storeNow f.store g.store) :
    (f.visit v).1 = (g.visit v).1 ∧ (f.visit v).2.limiters = (g.visit v).2.limiters ∧
      R v.storeNow (f.visit v).2.store (g.visit v).2.store := by
  have hanswer : (f.visit v).1 = (g.visit v).1 :=
    visit_fst_congr hlimiters fun c _ => h.answer_eq hstores c
  have hafter : R v.storeNow (f.visit v).2.store (g.visit v).2.store :=
    rel_store_visit (R := R v.storeNow) hlimiters hstores fun c _ => h.perform hstores c
  exact ⟨hanswer, limiters_visit_congr hlimiters v, hafter⟩

/-- Over related stores a run is answered alike, if the clock of the store does not run backwards. -/
theorem answers_eq_of_simulation (h : BucketStore.Simulation R) {now : Instant}
    (hlimiters : f.limiters = g.limiters) (hstores : R now f.store g.store)
    {visits : List (Visit ι)} (hfrom : ∀ v ∈ visits, now ≤ v.storeNow)
    (hclock : visits.Pairwise fun v v' => v.storeNow ≤ v'.storeNow) :
    f.answers visits = g.answers visits := by
  induction visits generalizing f g now with
  | nil => rfl
  | cons v visits ih =>
    obtain ⟨hnow, -⟩ := List.forall_mem_cons.mp hfrom
    obtain ⟨hlater, hclockRest⟩ := List.pairwise_cons.mp hclock
    obtain ⟨hanswer, hlimiters', hafter⟩ := visit_of_simulation h hlimiters (h.mono hstores hnow)
    exact congrArg₂ List.cons hanswer (ih hlimiters' hafter hlater hclockRest)

end Fleet

/-! ### Runs with visits inserted -/

/-- A visit of a run, or one that has been inserted into it. -/
structure Marked (ι : Type) where
  /-- The visit. -/
  visit : Visit ι
  /-- Whether it has been inserted. -/
  isInserted : Bool
deriving DecidableEq

namespace Marked

variable {ι : Type}

/-- All visits of a run. -/
def all (run : List (Marked ι)) : List (Visit ι) := run.map (·.visit)

/-- The visits of a run without those inserted into it. -/
def own (run : List (Marked ι)) : List (Visit ι) := (run.filter (!·.isInserted)).map (·.visit)

/-- Of the answers to all visits of a run, those to the visits that have not been inserted. -/
def ownAnswers (run : List (Marked ι)) (answers : List Answer) : List Answer :=
  ((run.zip answers).filter (!·.1.isInserted)).map (·.2)

/-- Of the answers to all visits of a run, those to the inserted visits. -/
def insertedAnswers (run : List (Marked ι)) (answers : List Answer) : List Answer :=
  ((run.zip answers).filter (·.1.isInserted)).map (·.2)

theorem pairwise_own {r : Visit ι → Visit ι → Prop} {run : List (Marked ι)}
    (h : (all run).Pairwise r) : (own run).Pairwise r :=
  h.sublist (List.filter_sublist.map _)

theorem ownAnswers_cons_own {m : Marked ι} (hm : m.isInserted = false) (run : List (Marked ι))
    (answer : Answer) (answers : List Answer) :
    ownAnswers (m :: run) (answer :: answers) = answer :: ownAnswers run answers := by
  simp [ownAnswers, hm]

theorem ownAnswers_cons_inserted {m : Marked ι} (hm : m.isInserted = true) (run : List (Marked ι))
    (answer : Answer) (answers : List Answer) :
    ownAnswers (m :: run) (answer :: answers) = ownAnswers run answers := by
  simp [ownAnswers, hm]

theorem insertedAnswers_cons_own {m : Marked ι} (hm : m.isInserted = false) (run : List (Marked ι))
    (answer : Answer) (answers : List Answer) :
    insertedAnswers (m :: run) (answer :: answers) = insertedAnswers run answers := by
  simp [insertedAnswers, hm]

theorem insertedAnswers_cons_inserted {m : Marked ι} (hm : m.isInserted = true) (run : List (Marked ι))
    (answer : Answer) (answers : List Answer) :
    insertedAnswers (m :: run) (answer :: answers) = answer :: insertedAnswers run answers := by
  simp [insertedAnswers, hm]

theorem own_cons_own {m : Marked ι} (hm : m.isInserted = false) (run : List (Marked ι)) :
    own (m :: run) = m.visit :: own run := by
  simp [own, hm]

theorem own_cons_inserted {m : Marked ι} (hm : m.isInserted = true) (run : List (Marked ι)) :
    own (m :: run) = own run := by
  simp [own, hm]

end Marked

end TokenBucket
