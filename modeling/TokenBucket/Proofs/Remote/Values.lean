import TokenBucket.Remote.StandardClient
import TokenBucket.Proofs.Wire.Meaning

/-!
# What server values say

A server can send any tree of values. Either an error stands somewhere in it, and then one is the first, or
the value is sound (`ServerValue.isSound_or_exists_firstError`).

Of the sound values only some mean anything to a limiter. They are pairs, and each item is of a type that
replies have too, where it says the same (`ServerValue.Says`): a text comes as a bulk string in UTF-8 or as
a short line. If the first item tells whether tokens were granted and the second gives a balance within the
bounds of the bucket, the value is a verdict (`ServerValue.IsVerdict`), and no other value is understood
(`Outcome.granted_ofReply_iff`).

## Main definitions

* `ServerValue.Says`, `ServerValue.IsVerdict`.

## Main results

* `ServerValue.firstError?_eq_none_iff`, `ServerValue.firstError?_eq_some_iff`: errors can be looked for.
* `ServerValue.isSound_or_exists_firstError`, `ServerValue.FirstError.unique`.
* `ServerValue.says_iff`, `Outcome.granted_ofReply_iff`.
-/

namespace TokenBucket

theorem Reply.Tells.kind_ne {item : Reply} {granted : Bool} (h : item.Tells granted) :
    item.kind ≠ .array ∧ item.kind ≠ .unsupported := by
  cases h <;> simp [Reply.kind]

theorem Reply.Gives.kind_ne {item : Reply} {tokens : Binary64} (h : item.Gives tokens) :
    item.kind ≠ .array ∧ item.kind ≠ .unsupported := by
  cases h <;> simp [Reply.kind]

namespace ServerValue

/-! ### Errors -/

theorem sizeOf_lt_of_mem_pairs {part : ServerValue} {pairs : List (ServerValue × ServerValue)}
    (hpart : part ∈ pairs.flatMap fun pair => [pair.1, pair.2]) : sizeOf part < sizeOf pairs := by
  obtain ⟨pair, hpair, hmember⟩ := List.mem_flatMap.mp hpart
  have hsize := List.sizeOf_lt_of_mem hpair
  rw [Prod.mk.sizeOf_spec] at hsize
  rw [List.mem_cons, List.mem_singleton] at hmember
  rcases hmember with rfl | rfl <;> omega

/-- A value is larger than its parts. -/
theorem sizeOf_lt_of_mem_parts {part v : ServerValue} (hpart : part ∈ v.parts) :
    sizeOf part < sizeOf v := by
  cases v with
  | array items =>
    have hsize : sizeOf part < sizeOf items := List.sizeOf_lt_of_mem hpart
    rw [array.sizeOf_spec]
    omega
  | set items =>
    have hsize : sizeOf part < sizeOf items := List.sizeOf_lt_of_mem hpart
    rw [set.sizeOf_spec]
    omega
  | map pairs =>
    have hsize : sizeOf part < sizeOf pairs := sizeOf_lt_of_mem_pairs hpart
    rw [map.sizeOf_spec]
    omega
  | attributed data attributes =>
    rw [attributed.sizeOf_spec]
    rcases List.mem_cons.mp hpart with rfl | hattribute
    · omega
    · have hsize := sizeOf_lt_of_mem_pairs hattribute
      omega
  | push kind items =>
    have hsize : sizeOf part < sizeOf items := List.sizeOf_lt_of_mem hpart
    rw [push.sizeOf_spec]
    omega
  | _ => cases hpart

theorem firstErrorOf?_eq (items : List ServerValue) :
    firstErrorOf? items = items.findSome? firstError? := by
  induction items with
  | nil => rfl
  | cons item rest ih =>
    rw [firstErrorOf?, ih, List.findSome?_cons]
    cases firstError? item <;> rfl

/-- Pairs are searched as the list of their members. -/
theorem firstErrorOfPairs?_eq (pairs : List (ServerValue × ServerValue)) :
    firstErrorOfPairs? pairs = (pairs.flatMap fun pair => [pair.1, pair.2]).findSome? firstError? := by
  induction pairs with
  | nil => rfl
  | cons pair rest ih =>
    rw [firstErrorOfPairs?, ih, List.flatMap_cons, List.cons_append, List.cons_append, List.nil_append,
      List.findSome?_cons, List.findSome?_cons]
    cases firstError? pair.1 <;> cases firstError? pair.2 <;> rfl

/-- A value that is no error itself is searched part by part. -/
theorem firstError?_eq {v : ServerValue} (hv : ∀ code, v ≠ .error code) :
    v.firstError? = v.parts.findSome? firstError? := by
  cases v with
  | array items => exact firstErrorOf?_eq items
  | set items => exact firstErrorOf?_eq items
  | map pairs => exact firstErrorOfPairs?_eq pairs
  | attributed data attributes =>
    rw [firstError?, firstErrorOfPairs?_eq, parts, List.findSome?_cons]
    cases firstError? data <;> rfl
  | push kind items => exact firstErrorOf?_eq items
  | error code => exact absurd rfl (hv code)
  | _ => rfl

/-- A value that has parts is no error itself. -/
theorem ne_error_of_mem_parts {part v : ServerValue} (hpart : part ∈ v.parts) (code : String) :
    v ≠ .error code := by
  rintro rfl
  cases hpart

/-- The search finds the first error, if there is one. -/
theorem firstError?_spec (v : ServerValue) :
    (v.firstError? = none ∧ v.IsSound) ∨ ∃ code, v.firstError? = some code ∧ v.FirstError code := by
  by_cases hv : ∃ code, v = .error code
  · obtain ⟨code, rfl⟩ := hv
    exact Or.inr ⟨code, rfl, .here⟩
  · have hparts := firstError?_eq (not_exists.mp hv)
    have hsound {part : ServerValue} (hpart : part ∈ v.parts) (hnone : part.firstError? = none) :
        part.IsSound := by
      rcases firstError?_spec part with ⟨-, h⟩ | ⟨code, hsome, -⟩
      · exact h
      · rw [hnone] at hsome
        cases hsome
    cases hfirst : v.firstError? with
    | none =>
      rw [hfirst, eq_comm, List.findSome?_eq_none_iff] at hparts
      refine Or.inl ⟨rfl, ?_⟩
      rintro code (_ | ⟨hpart, herror⟩)
      · exact hv ⟨code, rfl⟩
      · exact hsound hpart (hparts _ hpart) code herror
    | some code =>
      rw [hfirst, eq_comm, List.findSome?_eq_some_iff] at hparts
      obtain ⟨before, part, after, hsplit, hpart, hbefore⟩ := hparts
      have hmem : part ∈ v.parts := by simp [hsplit]
      have hearlier : ∀ earlier ∈ before, earlier.IsSound := fun earlier hearlier =>
        hsound (by simp [hsplit, hearlier]) (hbefore earlier hearlier)
      rcases firstError?_spec part with ⟨hnone, -⟩ | ⟨code', hsome, herror⟩
      · rw [hpart] at hnone
        cases hnone
      · obtain rfl := Option.some.inj (hsome.symm.trans hpart)
        exact Or.inr ⟨code', rfl, .within hsplit hearlier herror⟩
termination_by sizeOf v
decreasing_by
  · exact sizeOf_lt_of_mem_parts hpart
  · exact sizeOf_lt_of_mem_parts hmem

variable {v : ServerValue} {code : String}

/-- The first error of a value is an error in it. -/
theorem FirstError.errorIn (h : v.FirstError code) : v.ErrorIn code := by
  induction h with
  | here => exact .here
  | within hparts _ _ ih => exact .within (by simp [hparts]) ih

theorem firstError?_eq_none_iff : v.firstError? = none ↔ v.IsSound := by
  rcases firstError?_spec v with ⟨hnone, hsound⟩ | ⟨code, hsome, herror⟩
  · exact iff_of_true hnone hsound
  · rw [hsome]
    exact iff_of_false (Option.some_ne_none code) fun hsound => hsound code herror.errorIn

theorem firstError?_eq_some_iff : v.firstError? = some code ↔ v.FirstError code := by
  constructor
  · intro h
    rcases firstError?_spec v with ⟨hnone, -⟩ | ⟨code', hsome, herror⟩
    · rw [h] at hnone
      cases hnone
    · obtain rfl := Option.some.inj (hsome.symm.trans h)
      exact herror
  · intro h
    induction h with
    | here => rfl
    | @within part v before after hparts hbefore _ ih =>
      have hmem : part ∈ v.parts := by simp [hparts]
      rw [firstError?_eq (ne_error_of_mem_parts hmem), List.findSome?_eq_some_iff]
      exact ⟨before, part, after, hparts, ih, fun earlier hearlier =>
        firstError?_eq_none_iff.mpr (hbefore earlier hearlier)⟩

/-- A value is sound, or one of its errors is the first. -/
theorem isSound_or_exists_firstError (v : ServerValue) : v.IsSound ∨ ∃ code, v.FirstError code :=
  (firstError?_spec v).imp And.right fun ⟨code, h⟩ => ⟨code, h.2⟩

theorem FirstError.unique {code' : String} (h : v.FirstError code) (h' : v.FirstError code') :
    code = code' :=
  Option.some.inj ((firstError?_eq_some_iff.mpr h).symm.trans (firstError?_eq_some_iff.mpr h'))

instance (code : String) (v : ServerValue) : Decidable (v.FirstError code) :=
  decidable_of_iff _ firstError?_eq_some_iff

instance (v : ServerValue) : Decidable v.IsSound := decidable_of_iff _ firstError?_eq_none_iff

/-! ### Verdicts -/

/-- The value is of a type that replies have too, and says there what the reply says. A text comes as a
bulk string in UTF-8, or as a short line. -/
inductive Says : ServerValue → Reply → Prop
  | nil : Says .nil .nil
  | integer (n : Int64) : Says (.integer n) (.integer n)
  | boolean (b : Bool) : Says (.boolean b) (.boolean b)
  | double (x : Binary64) : Says (.double x) (.double x)
  | bulk (text : String) : Says (.bulk text.toUTF8.data.toList) (.text text)
  | simple (text : String) : Says (.simple text) (.text text)

/-- The value is a verdict on a draw: a pair that tells whether tokens were granted, and gives a balance
within the bounds of the bucket. -/
def IsVerdict (capacity : Int64) (granted : Bool) (v : ServerValue) : Prop :=
  ∃ first second grant balance tokens, v = .array [first, second] ∧ first.Says grant ∧
    second.Says balance ∧ grant.Tells granted ∧ balance.Gives tokens ∧ tokens.IsWithin capacity

/-- A string of bytes is a text if its bytes are those of the text in UTF-8. -/
theorem bulkText?_eq_some_iff {bytes : List UInt8} {text : String} :
    bulkText? bytes = some text ↔ bytes = text.toUTF8.data.toList := by
  rw [bulkText?, String.fromUTF8?]
  constructor
  · intro h
    split at h
    · next hvalid =>
      obtain rfl := Option.some.inj h
      rfl
    · cases h
  · rintro rfl
    exact dif_pos text.isValidUTF8

/-- There is no error in an item that says something. -/
theorem Says.isSound {reply : Reply} (h : v.Says reply) : v.IsSound := by
  rw [← firstError?_eq_none_iff]
  cases h <;> rfl

/-- Nor is there in a verdict. -/
theorem IsVerdict.isSound {capacity : Int64} {granted : Bool} (h : v.IsVerdict capacity granted) :
    v.IsSound := by
  obtain ⟨first, second, _, _, _, rfl, hfirst, hsecond, -⟩ := h
  rintro code (_ | ⟨hpart, herror⟩)
  rw [parts, List.mem_cons, List.mem_singleton] at hpart
  rcases hpart with rfl | rfl
  · exact hfirst.isSound code herror
  · exact hsecond.isSound code herror

/-- An item says what it becomes, unless it is a list or becomes nothing that a limiter understands. -/
theorem says_iff {reply : Reply} :
    v.Says reply ↔ v.reply = reply ∧ reply.kind ≠ .array ∧ reply.kind ≠ .unsupported := by
  constructor
  · intro h
    cases h with
    | bulk text =>
      rw [ServerValue.reply, bulkText?_eq_some_iff.mpr rfl]
      exact ⟨rfl, by simp [Reply.kind]⟩
    | _ => simp [ServerValue.reply, Reply.kind]
  · rintro ⟨rfl, hlist, hother⟩
    cases v with
    | nil => exact .nil
    | integer n => exact .integer n
    | boolean b => exact .boolean b
    | double x => exact .double x
    | bulk bytes =>
      rw [ServerValue.reply] at hother ⊢
      split at hother
      · next text htext =>
        rw [bulkText?_eq_some_iff.mp htext]
        exact .bulk text
      · exact absurd rfl hother
    | simple text => exact .simple text
    | array items => exact absurd rfl hlist
    | _ => exact absurd rfl hother

/-- Only a pair becomes a pair. -/
theorem reply_eq_pair_iff {grant balance : Reply} :
    v.reply = .array [grant, balance] ↔
      ∃ first second, v = .array [first, second] ∧ first.reply = grant ∧ second.reply = balance := by
  constructor
  · intro h
    cases v with
    | array items =>
      match items with
      | [] | [_] | _ :: _ :: _ :: _ => simp [reply, replies] at h
      | [first, second] =>
        simp only [reply, replies, Reply.array.injEq, List.cons.injEq, and_true] at h
        exact ⟨first, second, rfl, h⟩
    | bulk bytes =>
      rw [reply] at h
      split at h <;> cases h
    | _ => simp [reply] at h
  · rintro ⟨first, second, rfl, rfl, rfl⟩
    rfl

end ServerValue

/-! ### How they are read -/

namespace Outcome

open ServerValue

variable {v : ServerValue} {granted : Bool} {capacity : Int64}

/-- A value is understood, as a grant or as a denial, if it is a verdict that says so. -/
theorem granted_ofReply_iff (hc : 1 ≤ capacity) :
    (∃ outcome, ofReply capacity v.reply = .ok outcome ∧ outcome.granted = granted) ↔
      v.IsVerdict capacity granted := by
  constructor
  · rintro ⟨outcome, hreply, rfl⟩
    obtain ⟨grant, balance, tokens, hpair, htells, hgives, hwithin, -⟩ := (ofReply_iff hc).mp hreply
    obtain ⟨first, second, rfl, hfirst, hsecond⟩ := reply_eq_pair_iff.mp hpair
    refine ⟨first, second, grant, balance, tokens, rfl, says_iff.mpr ⟨hfirst, ?_⟩,
      says_iff.mpr ⟨hsecond, ?_⟩, htells, hgives, hwithin⟩
    · exact htells.kind_ne
    · exact hgives.kind_ne
  · rintro ⟨first, second, grant, balance, tokens, rfl, hfirst, hsecond, htells, hgives, hwithin⟩
    have hpair : (ServerValue.array [first, second]).reply = .array [grant, balance] :=
      reply_eq_pair_iff.mpr ⟨first, second, rfl, (says_iff.mp hfirst).1, (says_iff.mp hsecond).1⟩
    exact ⟨⟨granted, _⟩,
      (ofReply_iff hc).mpr ⟨grant, balance, tokens, hpair, htells, hgives, hwithin, rfl⟩, rfl⟩

end Outcome

end TokenBucket
