/-!
# Finite maps with text keys

A `KeyMap α` holds at most one value for each key, as a list of entries without repeated keys; the
invariant is part of the type. A map is seen through `get?`, and each operation is described by what it
does to that view.

## Main definitions

* `KeyMap`, `KeyMap.get?`, `KeyMap.size`.
* `KeyMap.empty`, `KeyMap.insert`, `KeyMap.erase`, `KeyMap.filter`, `KeyMap.ofList`.

## Main results

* `KeyMap.get?_empty`, `KeyMap.get?_insert`, `KeyMap.get?_erase`, `KeyMap.get?_filter`.
-/

namespace TokenBucket

/-- A finite map from texts to values. -/
structure KeyMap (α : Type) where
  /-- The entries, the most recently inserted first. -/
  entries : List (String × α)
  /-- No key occurs twice. -/
  nodup : (entries.map Prod.fst).Nodup

namespace KeyMap

variable {α : Type}

/-- The map without entries. -/
def empty : KeyMap α := ⟨[], by simp⟩

instance : Inhabited (KeyMap α) := ⟨empty⟩

/-- The value held for a key. -/
def get? (m : KeyMap α) (key : String) : Option α :=
  (m.entries.find? fun entry => entry.1 == key).map Prod.snd

/-- How many keys have a value. -/
def size (m : KeyMap α) : Nat := m.entries.length

/-- The entries that satisfy a test. -/
def filterEntries (m : KeyMap α) (keep : String × α → Bool) : KeyMap α :=
  ⟨m.entries.filter keep, m.nodup.sublist (List.filter_sublist.map Prod.fst)⟩

/-- The entries whose value satisfies a test. -/
def filter (m : KeyMap α) (keep : α → Bool) : KeyMap α :=
  m.filterEntries fun entry => keep entry.2

/-- The map without a key. -/
def erase (m : KeyMap α) (key : String) : KeyMap α :=
  m.filterEntries fun entry => entry.1 != key

/-- The map with a value for a key, in place of any earlier one. -/
def insert (m : KeyMap α) (key : String) (value : α) : KeyMap α where
  entries := (key, value) :: (m.erase key).entries
  nodup := by
    rw [List.map_cons, List.nodup_cons]
    refine ⟨?_, (m.erase key).nodup⟩
    simp [erase, filterEntries]

/-- The map of a list of entries, in which later entries win. -/
def ofList (entries : List (String × α)) : KeyMap α :=
  entries.foldl (fun m entry => m.insert entry.1 entry.2) empty

@[simp] theorem get?_empty (key : String) : (empty : KeyMap α).get? key = none := rfl

/-- Erasing a key forgets it and no other. -/
theorem get?_erase (m : KeyMap α) (erased key : String) :
    (m.erase erased).get? key = if erased = key then none else m.get? key := by
  unfold get? erase filterEntries
  rw [List.find?_filter]
  split
  · next h =>
    subst h
    rw [List.find?_eq_none.mpr]
    · rfl
    · intro entry _
      simp
  · next h =>
    congr 2
    funext entry
    by_cases he : entry.1 = key
    · simp [he, Ne.symm h]
    · simp [he]

/-- Inserting a key sets it and leaves the others alone. -/
theorem get?_insert (m : KeyMap α) (inserted key : String) (value : α) :
    (m.insert inserted value).get? key = if inserted = key then some value else m.get? key := by
  have herase := get?_erase m inserted key
  unfold get? at herase ⊢
  simp only [insert, List.find?_cons]
  by_cases h : inserted = key
  · simp [h]
  · simp only [h, if_false] at herase ⊢
    simp only [beq_eq_false_iff_ne.mpr h]
    exact herase

/-- A key is kept by a filter exactly when its value passes the test. -/
theorem get?_filter (m : KeyMap α) (keep : α → Bool) (key : String) :
    (m.filter keep).get? key = (m.get? key).filter keep := by
  obtain ⟨entries, nodup⟩ := m
  unfold get? filter filterEntries
  simp only
  induction entries with
  | nil => rfl
  | cons entry rest ih =>
    have hrest : (rest.map Prod.fst).Nodup := (List.nodup_cons.mp nodup).2
    have hfresh : entry.1 ∉ rest.map Prod.fst := (List.nodup_cons.mp nodup).1
    by_cases hkey : entry.1 = key
    · by_cases hkeep : keep entry.2
      · simp [hkeep, hkey, Option.filter]
      · have hnone : (rest.filter fun e => keep e.2).find? (fun e => e.1 == key) = none := by
          rw [List.find?_eq_none]
          intro e he
          have hmem : e.1 ∈ rest.map Prod.fst :=
            List.mem_map_of_mem (List.mem_filter.mp he).1
          have : e.1 ≠ key := fun heq => hfresh (hkey ▸ heq ▸ hmem)
          simp [this]
        simp [hkeep, hkey, hnone, Option.filter]
    · have hfalse : (entry.1 == key) = false := beq_eq_false_iff_ne.mpr hkey
      by_cases hkeep : keep entry.2
      · simpa [List.filter_cons, hkeep, hfalse] using ih hrest
      · simpa [List.filter_cons, hkeep, hfalse] using ih hrest

end KeyMap

end TokenBucket
