import TokenBucket.Script.Run
import TokenBucket.Proofs.Store.Served
import TokenBucket.Proofs.Wire.Replies

/-!
# The bucket script and the store in memory

The script computes with doubles read from text where the store in memory subtracts 64-bit instants, it
keeps a record as two fields of text, and it spells out the lesser and the greater of two numbers. For
requests made under valid policies all this comes to the same, as long as instants have at most 53 bits:
such instants and their differences are taken over exactly or rounded alike, and every text that is
written reads back as the number it stands for.

The two are related by `Fields.Holds`: the fields hold the texts of the record that the store keeps, and
are missing where it keeps none. One request takes related states to related states and has the same
outcome on both sides, so whole runs do (`Script.twin`).

## Main definitions

* `Script.serve`: the fields after some runs of the script.
* `Fields.Holds`: the fields hold a record.
* `Request.IsMadeFor`: a request of a limiter whose instant is a double.

## Main results

* `Fields.record?_of_get?`: what the script writes reads back, whatever the balance.
* `Script.run_eq`, `Script.run_of_look`, `Script.run_of_ne`: what the script does with the arguments of a
  request, whatever it finds in the fields.
* `Script.available_numbers`, `Script.settle_numbers`: both sides settle a request alike.
* `Fields.Holds.run`, `Fields.Holds.serve`: the relation is kept.
* `Script.twin`.
-/

namespace TokenBucket

open Binary64

/-! ### Instants as doubles -/

namespace Binary64

/-- Cutting off below zero before or after rounding is the same. -/
theorem ite_zero_lt_ofInt (n : ℤ) :
    (if Binary64.zero < ofInt n then ofInt n else .zero) = ofInt (max n 0) := by
  have hzero : ofInt 0 = .zero := by
    rw [show (0 : ℤ) = ((0 : ℕ) : ℤ) from rfl, ofInt_natCast, Rung.whole_zero]
    rfl
  rcases lt_trichotomy n 0 with hneg | rfl | hpos
  · have hsign : ¬ Binary64.zero < ofInt n := by
      rintro ⟨-, -, hlt⟩
      simp only [ofInt, ofQuotient, hneg, decide_true, units, Binary64.zero, Rung.units_zero] at hlt
      omega
    rw [if_neg hsign, max_eq_right hneg.le, hzero]
  · simp only [max_self, hzero, ite_self]
  · have hlt : Binary64.zero < ofInt n := by
      rw [ofInt_of_nonneg hpos.le]
      exact number_lt_number.mpr (Rung.zero_lt_whole (by omega))
    rw [if_pos hlt, max_eq_left hpos.le]

/-- An integer of at most 53 bits is its own whole part. -/
theorem truncate_ofInt {n : ℤ} (h : n.natAbs ≤ 2 * Rung.block) : (ofInt n).truncate = n := by
  have hunits : (Rung.whole n.natAbs).units / Rung.unitsPerOne = n.natAbs := by
    rw [Rung.units_whole h, Nat.mul_div_cancel _ Rung.unitsPerOne_pos]
  have hofInt : ofInt n = number (decide (n < 0)) (.whole n.natAbs) := rfl
  rw [hofInt]
  rcases lt_or_ge n 0 with hneg | hnonneg
  · rw [decide_eq_true hneg]
    simp only [truncate, hunits]
    omega
  · rw [decide_eq_false (not_lt.mpr hnonneg)]
    simp only [truncate, hunits]
    omega

/-- The lesser of two numbers without a sign, spelled out. -/
theorem ite_lt_number (r q : Rung) :
    (if number false r < number false q then number false r else number false q) =
      (number false r).capped (number false q) := by
  rw [capped_number]
  by_cases h : r < q
  · rw [if_pos (number_lt_number.mpr h), min_eq_left h.le]
  · rw [if_neg (number_lt_number.not.mpr h), min_eq_right (not_lt.mp h)]

end Binary64

/-! ### Texts -/

namespace Script

theorem number?_eq_some {x : Binary64} {text : String} (h : x.IsText text) :
    number? text = some x := by
  rw [number?, trimAsciiBlanks_eq_self h.plain, h.read]

theorem isText_exactText {s : Bool} {r : Rung} (hr : r < .infinity) :
    (Binary64.number s r).IsText (exactText (.number s r)) := isText_generalText hr

theorem integerText_ofInt {now : Instant} (h : now.toInt.natAbs ≤ 2 * Rung.block) :
    integerText (.ofInt now.toInt) = toString now.toInt := by
  have hmin := now.minValue_le_toInt
  have hmax := now.toInt_le
  have hnan : (Binary64.ofInt now.toInt).isNaN = false := rfl
  rw [integerText, truncate_ofInt h]
  simp only [hnan, true_and]
  rw [if_pos ⟨hmin, hmax⟩]

end Script

/-! ### Requests and fields -/

/-- A request that a limiter makes for a key, under some policy and for a number of tokens that is not
negative, at an instant of at most 53 bits. -/
def Request.IsMadeFor (q : Request) (space : KeySpace) (key : String) : Prop :=
  ∃ (p : Policy) (now : Instant) (n : Int64), q = space.request p key now n ∧ 0 ≤ n ∧
    now.toInt.natAbs ≤ 2 ^ 53

namespace Request.IsMadeFor

variable {q : Request} {space : KeySpace} {key : String}

theorem isValid (h : q.IsMadeFor space key) : q.IsValid := by
  obtain ⟨p, now, n, rfl, hn, -⟩ := h
  exact space.request_isValid p key now hn

theorem key_eq (h : q.IsMadeFor space key) : q.key = space.storeKey key := by
  obtain ⟨p, now, n, rfl, -, -⟩ := h
  rfl

theorem natAbs_le (h : q.IsMadeFor space key) : q.now.toInt.natAbs ≤ 2 * Rung.block := by
  obtain ⟨p, now, n, rfl, -, hnow⟩ := h
  exact hnow.trans (by decide)

end Request.IsMadeFor

/-- The fields hold a record: the texts of its balance, which has no sign and is finite, and of its
instant, which has at most 53 bits. -/
structure Fields.HoldsRecord (fields : Fields) (r : Record) : Prop where
  exists_rung : ∃ t : Rung, r.tokens = .number false t ∧ t < .infinity
  natAbs_le : r.refilledAt.toInt.natAbs ≤ 2 * Rung.block
  get?_tokens : fields.get? Fields.tokensName = some (Script.exactText r.tokens)
  get?_instant : fields.get? Fields.instantName = some (toString r.refilledAt.toInt)

/-- The fields hold a record, if there is one to hold, and else lack both of its texts. -/
def Fields.Holds (fields : Fields) : Option Record → Prop
  | none => fields.get? Fields.tokensName = none ∧ fields.get? Fields.instantName = none
  | some r => fields.HoldsRecord r

namespace Fields

variable {fields : Fields} {held : Option Record}

theorem holds_empty : Fields.Holds .empty none := ⟨rfl, rfl⟩

theorem Holds.isUnsigned (h : fields.Holds held) : ∀ r ∈ held, r.IsUnsigned := by
  intro r hr
  cases held with
  | none => cases hr
  | some r' =>
    obtain rfl := Option.some.inj hr
    obtain ⟨t, ht, -⟩ := h.exists_rung
    exact ⟨t, ht⟩

/-- Every balance that the script can write is read back, infinities and not-a-number included. -/
theorem tokensOf_exactText (x : Binary64) : tokensOf (Script.exactText x) = .ok x := by
  cases x with
  | nan => decide +kernel
  | number s r =>
    rcases (Rung.le_infinity r).eq_or_lt with rfl | hfinite
    · cases s <;> decide +kernel
    · have htext := Script.isText_exactText (s := s) hfinite
      rw [tokensOf, trimBlanks_eq_self htext.plain, htext.read]

theorem instantOf_toString (now : Instant) : instantOf (toString now.toInt) = .ok now := by
  have htext := Binary64.isText_toString_int now.toInt
  rw [instantOf, trimBlanks_eq_self htext.plain, Numeral.int64?_toString]

/-- Fields with the texts of a balance and of an instant read back as that balance and that instant. -/
theorem record?_of_get? {tokens : Binary64} {now : Instant}
    (htokens : fields.get? tokensName = some (Script.exactText tokens))
    (hinstant : fields.get? instantName = some (toString now.toInt)) :
    fields.record? = .ok (some ⟨tokens, now⟩) := by
  rw [record?, htokens, hinstant]
  simp only [tokensOf_exactText, instantOf_toString]
  rfl

/-- The fields read back as the record that they hold. -/
theorem Holds.record?_eq (h : fields.Holds held) : fields.record? = .ok held := by
  cases held with
  | none =>
    rw [record?, h.1, h.2]
    rfl
  | some r => exact record?_of_get? h.get?_tokens h.get?_instant

end Fields

/-! ### One run of the script -/

namespace Script

variable {q : Request} {space : KeySpace} {key : String} {fields : Fields} {held : Option Record}

/-- The numbers of a request. -/
def numbers (q : Request) : Numbers where
  rate := q.rate
  capacity := .ofInt q.capacity.toInt
  now := .ofInt q.now.toInt
  requested := .ofInt q.requested.toInt

/-- The script reads from the arguments of a request the numbers of that request. -/
theorem run_eq (hq : q.IsValid) (fields : Fields) :
    run q.key q.arguments fields =
      runWith q.key (numbers q) (some (.ofInt q.ttl.toNat)) fields := by
  have hrate : number? q.rate.shortestText = some q.rate := by
    rw [hq.rate_eq]
    exact number?_eq_some (isText_shortestText hq.rate_lt)
  have hint (n : ℤ) : number? (toString n) = some (.ofInt n) :=
    number?_eq_some (isText_toString_int n)
  have hnat (n : ℕ) : number? (toString n) = some (.ofInt n) :=
    number?_eq_some (isText_toString_nat n)
  simp only [run, Request.arguments, List.getElem?_cons_zero, List.getElem?_cons_succ,
    Option.bind_some, hrate, hint, hnat]
  rfl

/-- The number asked for is zero as a double only where it is zero. -/
theorem looks_numbers (hq : q.IsValid) :
    ((numbers q).requested ≤ .zero ∧ .zero ≤ (numbers q).requested) ↔ q.requested = 0 := by
  have hnonneg := Int64.le_iff_toInt_le.mp hq.zero_le_requested
  rw [Int64.toInt_zero] at hnonneg
  have hrequested : (numbers q).requested = .number false (.whole q.requested.toInt.toNat) :=
    ofInt_of_nonneg hnonneg
  rw [hrequested, Binary64.zero, number_le_number, number_le_number]
  constructor
  · rintro ⟨hle, -⟩
    have hzero : q.requested.toInt.toNat = 0 := by
      by_contra hne
      exact absurd (Rung.zero_lt_whole (Nat.pos_of_ne_zero hne)) (not_lt.mpr hle)
    rw [← Int64.toInt_inj, Int64.toInt_zero]
    omega
  · intro hzero
    rw [hzero]
    exact ⟨Rung.whole_zero.le, Rung.whole_zero.ge⟩

/-- The script writes where tokens are asked for, whatever it has found. -/
theorem persists_settle_numbers (hq : q.IsValid) (fields : Fields) :
    ((numbers q).settle fields).persists = decide (q.requested ≠ 0) := by
  rw [Numbers.settle]
  by_cases hzero : q.requested = 0
  · simp only [if_pos ((looks_numbers hq).mpr hzero), Settlement.persists, hzero, ne_eq,
      not_true_eq_false, decide_false]
  · simp only [if_neg ((looks_numbers hq).not.mpr hzero), ne_eq, hzero, not_false_eq_true, decide_true]
    split <;> rfl

/-- A run that asks for no tokens reads the fields and does nothing else. -/
theorem run_of_look (hq : q.IsValid) (hlook : q.requested = 0) (fields : Fields) :
    run q.key q.arguments fields = {
      answer := .ok ⟨((numbers q).settle fields).isGranted, exactText ((numbers q).settle fields).tokens⟩
      commands := [readCommand q.key]
      fields := fields } := by
  rw [run_eq hq, runWith]
  simp only [persists_settle_numbers hq, hlook, ne_eq, not_true_eq_false, decide_false,
    Bool.false_eq_true, if_false]

/-- A run that asks for tokens reads the fields, writes both of them and says how long they are kept. -/
theorem run_of_ne (hq : q.IsValid) (hnow : q.now.toInt.natAbs ≤ 2 * Rung.block) (hne : q.requested ≠ 0)
    (fields : Fields) :
    let tokens := exactText ((numbers q).settle fields).tokens
    run q.key q.arguments fields = {
      answer := .ok ⟨((numbers q).settle fields).isGranted, tokens⟩
      commands := [readCommand q.key, writeCommand q.key tokens (toString q.now.toInt),
        keepCommand q.key (.ofInt q.ttl.toNat)]
      fields := (fields.insert Fields.tokensName tokens).insert Fields.instantName
        (toString q.now.toInt) } := by
  have hinstant : integerText (numbers q).now = toString q.now.toInt := integerText_ofInt hnow
  rw [run_eq hq, runWith]
  simp only [persists_settle_numbers hq, hne, ne_eq, not_false_eq_true, decide_true, if_true, hinstant]
  rfl

/-- Refilling as the script does it is refilling. -/
theorem refilled_eq {r : Record} {t rate : Rung} (ht : r.tokens = .number false t)
    (hrate : rate < .infinity) {capacity : Int64} (hc : 1 ≤ capacity) {now : Instant}
    (hnow : now.toInt.natAbs ≤ 2 * Rung.block) (hlast : r.refilledAt.toInt.natAbs ≤ 2 * Rung.block) :
    (let since := Binary64.ofInt now.toInt - Binary64.ofInt r.refilledAt.toInt
      let elapsed := (if Binary64.zero < since then since else .zero) / Binary64.ofInt 1000
      let balance := r.tokens + elapsed * .number false rate
      if balance < .ofInt capacity.toInt then balance else .ofInt capacity.toInt) =
      r.refilled (.number false rate) capacity now := by
  have hbalance := Record.uncapped_eq ht hrate now
  simp only [ofInt_sub hnow hlast, ite_zero_lt_ofInt, Record.refilled]
  rw [Record.elapsedMillis] at hbalance ⊢
  rw [hbalance, ofInt_capacity hc, ite_lt_number]

/-- The script finds the balance that the store in memory would find. -/
theorem available_numbers (hq : q.IsMadeFor space key) (h : fields.Holds held) :
    (numbers q).available fields = q.available held := by
  have hvalid := hq.isValid
  have hnow := hq.natAbs_le
  rw [Draw.available, Numbers.available, hvalid.rate_eq]
  cases held with
  | none =>
    have hfresh : (Record.fresh q.capacity q.now).tokens = .number false (.ofCapacity q.capacity) :=
      ofInt_capacity hvalid.one_le_capacity
    rw [Option.getD_none, ← refilled_eq hfresh hvalid.rate_lt hvalid.one_le_capacity hnow hnow]
    simp only [h.1, h.2, Option.bind_none, numbers]
    rw [hvalid.rate_eq]
    rfl
  | some r =>
    obtain ⟨t, ht, hfinite⟩ := h.exists_rung
    have htokens : number? (exactText r.tokens) = some r.tokens :=
      number?_eq_some (ht ▸ isText_exactText hfinite)
    have hinstant : number? (toString r.refilledAt.toInt) = some (.ofInt r.refilledAt.toInt) :=
      number?_eq_some (isText_toString_int _)
    rw [Option.getD_some, ← refilled_eq ht hvalid.rate_lt hvalid.one_le_capacity hnow h.natAbs_le]
    simp only [h.get?_tokens, h.get?_instant, Option.bind_some, htokens, hinstant, numbers]
    rw [hvalid.rate_eq]
    rfl

/-- The script settles a request as the store in memory does. -/
theorem settle_numbers (hq : q.IsMadeFor space key) (h : fields.Holds held) :
    (numbers q).settle fields = q.settle held := by
  have hlook := looks_numbers hq.isValid
  rw [Numbers.settle, Draw.settle]
  simp only [available_numbers hq h]
  by_cases hzero : q.requested = 0
  · rw [if_pos (hlook.mpr hzero), if_pos hzero]
  · rw [if_neg (hlook.not.mpr hzero), if_neg hzero]
    rfl

/-- The answer of the script is the settlement, with the balance as text. -/
theorem answer_run (hq : q.IsMadeFor space key) (h : fields.Holds held) :
    (run q.key q.arguments fields).answer =
      .ok ⟨(q.settle held).isGranted, exactText (q.settle held).tokens⟩ := by
  by_cases hzero : q.requested = 0
  · rw [run_of_look hq.isValid hzero, settle_numbers hq h]
  · rw [run_of_ne hq.isValid hq.natAbs_le hzero, settle_numbers hq h]

/-- The fields after a run are the old ones after a look, and else the two texts are written. -/
theorem fields_run (hq : q.IsMadeFor space key) (h : fields.Holds held) :
    (run q.key q.arguments fields).fields =
      if q.requested = 0 then fields
      else (fields.insert Fields.tokensName (exactText (q.settle held).tokens)).insert
        Fields.instantName (toString q.now.toInt) := by
  by_cases hzero : q.requested = 0
  · rw [run_of_look hq.isValid hzero, if_pos hzero]
  · rw [run_of_ne hq.isValid hq.natAbs_le hzero, settle_numbers hq h, if_neg hzero]

/-- The reply that carries an answer is understood. -/
theorem Answer.ofReply_reply {capacity : Int64} (hc : 1 ≤ capacity) {granted : Bool}
    {tokens : Binary64} (htokens : tokens.IsBalance capacity) :
    Outcome.ofReply capacity (Answer.reply ⟨granted, exactText tokens⟩) = .ok ⟨granted, tokens⟩ := by
  obtain ⟨r, rfl, hr⟩ := htokens
  have hfinite : r < .infinity := hr.trans_lt (Rung.ofCapacity_lt_infinity capacity)
  exact Outcome.ofReply_array hc (Outcome.grantOf_flag granted)
    (Outcome.balanceOf_text (isText_exactText hfinite)) hr

/-- The balance that a request leaves is finite and has no sign. -/
theorem exists_tokens_settle (hq : q.IsMadeFor space key) (h : fields.Holds held) :
    ∃ t : Rung, (q.settle held).tokens = .number false t ∧ t < .infinity := by
  obtain ⟨t, ht, hle⟩ := Draw.settle_isBalance hq.isValid h.isUnsigned
  exact ⟨t, ht, hle.trans_lt (Rung.ofCapacity_lt_infinity _)⟩

end Script

/-- After a run of the script the fields hold what the draw leaves. -/
theorem Fields.Holds.run {q : Request} {space : KeySpace} {key : String} {fields : Fields}
    {held : Option Record} (hq : q.IsMadeFor space key) (h : fields.Holds held) :
    (Script.run q.key q.arguments fields).fields.Holds (q.leaves held) := by
  rw [Script.fields_run hq h]
  by_cases hzero : q.requested = 0
  · rwa [if_pos hzero, Draw.leaves_of_look hzero]
  · rw [if_neg hzero, Draw.leaves_of_ne hzero]
    exact {
      exists_rung := Script.exists_tokens_settle hq h
      natAbs_le := hq.natAbs_le
      get?_tokens := by
        rw [KeyMap.get?_insert, if_neg (by decide), KeyMap.get?_insert, if_pos rfl]
      get?_instant := by rw [KeyMap.get?_insert, if_pos rfl] }

/-! ### Runs -/

/-- The fields of a key after some runs of the script. -/
def Script.serve (fields : Fields) (requests : List Request) : Fields :=
  requests.foldl (fun fields q => (run q.key q.arguments fields).fields) fields

theorem Script.serve_cons (fields : Fields) (q : Request) (requests : List Request) :
    serve fields (q :: requests) = serve (run q.key q.arguments fields).fields requests := by
  simp only [serve, List.foldl_cons]

/-- After some runs of the script the fields hold what their draws leave. -/
theorem Fields.Holds.serve {space : KeySpace} {key : String} {fields : Fields} {held : Option Record}
    {requests : List Request} (hrequests : ∀ q ∈ requests, q.IsMadeFor space key)
    (h : fields.Holds held) :
    (Script.serve fields requests).Holds (requests.foldl (fun held q => q.leaves held) held) := by
  induction requests generalizing fields held with
  | nil => exact h
  | cons q requests ih =>
    rw [Script.serve_cons, List.foldl_cons]
    obtain ⟨hq, hrest⟩ := List.forall_mem_cons.mp hrequests
    exact ih hrest (h.run hq)

/-- The script on fields that are missing at first and a store in memory that is empty at first, in which
nothing expires, answer the same requests for a key alike: after any of them, the next one has the same
outcome on both sides, and then the fields read back as the record that the store hands out. -/
theorem Script.twin {space : KeySpace} {key : String} (opened : Instant) (interval : Duration)
    {before : List Delivery} {next : Delivery} {later : Instant}
    (hrequests : ∀ d ∈ before ++ [next], d.request.IsMadeFor space key)
    (hlive : (InProcess.open opened .flag interval).KeepsLive (space.storeKey key)
      (before ++ [next]) later) :
    let store := (InProcess.open opened .flag interval).serve before
    let run := Script.run next.request.key next.request.arguments
      (Script.serve .empty (before.map (·.request)))
    ∃ answer reply outcome held,
      run.answer = .ok answer ∧ (store.execute next.storeNow next.request).1 = .ok reply ∧
      Outcome.ofReply next.request.capacity answer.reply = .ok outcome ∧
      Outcome.ofReply next.request.capacity reply = .ok outcome ∧
      run.fields.record? = .ok held ∧
      ((store.execute next.storeNow next.request).2.fetch later (space.storeKey key)).1 =
        .ok held := by
  intro store run
  obtain ⟨hbefore, hlast⟩ := List.forall_mem_append.mp hrequests
  have hnext : next.request.IsMadeFor space key := hlast next (List.mem_singleton.mpr rfl)
  have hopen : store.isClosed = false := InProcess.serve_isClosed
  obtain ⟨hkeeps, hlater⟩ := InProcess.keepsLive_append.mp hlive
  -- both sides hold what the draws so far have left
  have hkept : store.kept (space.storeKey key) =
      (before.map (·.request)).foldl (fun held q => q.leaves held) none :=
    InProcess.kept_serve rfl (fun d hd => (hbefore d hd).key_eq) hkeeps
  have hholds : (Script.serve .empty (before.map (·.request))).Holds
      (store.kept (space.storeKey key)) := by
    rw [hkept]
    exact Fields.Holds.serve (List.forall_mem_map.mpr hbefore) Fields.holds_empty
  rw [← hnext.key_eq] at hkeeps hlater hholds ⊢
  have hbalance := Draw.settle_isBalance hnext.isValid hholds.isUnsigned
  have hreply : (store.execute next.storeNow next.request).1 =
      .ok (Encoding.flag.reply next.request.requested
        (next.request.settle (store.kept next.request.key))) := by
    rw [InProcess.execute_eq hopen, InProcess.live?_eq_kept hkeeps.isLive,
      show store.encoding = .flag from InProcess.serve_encoding]
  have hfetch : ((store.execute next.storeNow next.request).2.fetch later next.request.key).1 =
      .ok (next.request.leaves (store.kept next.request.key)) := by
    rw [InProcess.fetch_eq (by rw [InProcess.execute_isClosed, hopen]),
      InProcess.live?_eq_kept hlater, InProcess.kept_execute hopen hkeeps.isLive]
  exact ⟨_, _, _, _, Script.answer_run hnext hholds, hreply,
    Script.Answer.ofReply_reply hnext.isValid.one_le_capacity hbalance,
    Encoding.flag.ofReply_reply hnext.isValid.one_le_capacity hbalance,
    (hholds.run hnext).record?_eq, hfetch⟩

/-- Two requests under the usual policy, of which the second was made before the first. -/
theorem Script.twin_standard :
    let before : List Delivery := [⟨0, KeySpace.standard.request .standard "k" 1000 15⟩]
    let next : Delivery := ⟨0, KeySpace.standard.request .standard "k" 250 3⟩
    let store := (InProcess.open 0 .flag InProcess.standardSweepInterval).serve before
    let run := Script.run next.request.key next.request.arguments
      (Script.serve .empty (before.map (·.request)))
    ∃ answer reply outcome held,
      run.answer = .ok answer ∧ (store.execute next.storeNow next.request).1 = .ok reply ∧
      Outcome.ofReply next.request.capacity answer.reply = .ok outcome ∧
      Outcome.ofReply next.request.capacity reply = .ok outcome ∧
      run.fields.record? = .ok held ∧
      ((store.execute next.storeNow next.request).2.fetch 0 (KeySpace.standard.storeKey "k")).1 =
        .ok held := by
  intro before next
  have hdeliveries : ∀ d ∈ before ++ [next], d.request.IsMadeFor .standard "k" ∧ d.storeNow = 0 ∧
      0 < d.request.ttl.toNat := by
    intro d hd
    rcases List.mem_cons.mp hd with rfl | hd
    · exact ⟨⟨.standard, 1000, 15, rfl, by decide, by decide⟩, rfl, by decide⟩
    · obtain rfl := List.mem_singleton.mp hd
      exact ⟨⟨.standard, 250, 3, rfl, by decide, by decide⟩, rfl, by decide⟩
  have hlive : (InProcess.open 0 .flag InProcess.standardSweepInterval).KeepsLive
      (KeySpace.standard.storeKey "k") (before ++ [next]) 0 := by
    refine InProcess.keepsLive_of_eq (by decide) ?_ fun d hd => (hdeliveries d hd).2
    rintro h ⟨⟩
  exact Script.twin 0 InProcess.standardSweepInterval (fun d hd => (hdeliveries d hd).1) hlive

end TokenBucket
