import TokenBucket.Proofs.Decimal.Whole
import TokenBucket.Proofs.Script.Twin

/-!
# What the script leaves behind

Whatever the fields of a key hold, a run with the arguments of a request ends with an answer. A look has read
the fields and done nothing else. Any other run has written both fields of the record and said how long they
are kept, so that a record is never left half written nor without an end, and what it has written reads back
as a record: a key with a broken record, or with half of one, is in order after one run (`Script.heals`).

The time to keep is read from its argument as a double and written again in general notation with fourteen
digits. A year has few enough milliseconds for that to come out as the same digits (`Script.plainText_idle`).

## Main results

* `Script.plainText_idle`: the time to keep as the script writes it.
* `Script.heals`.
-/

namespace TokenBucket

open Binary64

namespace Script

/-- The time to keep is written with the digits of the idle expiration. -/
theorem plainText_idle (p : Policy) : plainText (.ofInt p.idleMillis.toNat) = toString p.idle.millis := by
  have hle := p.idle_millis_le
  rw [p.toNat_idleMillis]
  exact generalText_natCast p.one_le_millis (hle.trans (by decide)) (hle.trans_lt (by norm_num))

/-- The script is run for `n` tokens of a key under some policy, at an instant of at most 53 bits, and the
fields of the key may hold anything. The run ends with an answer. If no tokens are asked for, it has read the
two fields of the record and left everything as it was. Otherwise it has read them, written them both, and
set the time to keep to the milliseconds of the idle expiration, of which there is at least one and at most a
year; it has left all other fields alone, answered the very text that it has written, and what it has written
reads back as the balance it has computed and the instant of the request. -/
theorem heals (p : Policy) (space : KeySpace) (key : String) {now : Instant} {n : Int64} (fields : Fields)
    (hn : 0 ≤ n) (hnow : now.toInt.natAbs ≤ 2 ^ 53) :
    let q := space.request p key now n
    let run := Script.run q.key q.arguments fields
    ∃ answer, run.answer = .ok answer ∧
      (n = 0 → run.commands = [["HMGET", q.key, "tokens", "ts"]] ∧ run.fields = fields) ∧
      (n ≠ 0 →
        run.commands = [["HMGET", q.key, "tokens", "ts"],
          ["HSET", q.key, "tokens", answer.tokens, "ts", toString now.toInt],
          ["PEXPIRE", q.key, toString p.idle.millis]] ∧
        1 ≤ p.idle.millis ∧ p.idle.millis ≤ 31536000000 ∧
        (∀ name, name ≠ "tokens" → name ≠ "ts" → run.fields.get? name = fields.get? name) ∧
        run.fields.get? "tokens" = some answer.tokens ∧
        run.fields.record? = .ok (some ⟨((numbers q).settle fields).tokens, now⟩)) := by
  intro q run
  have hq : q.IsValid := space.request_isValid p key now hn
  rcases eq_or_ne n 0 with hzero | hne
  · have hrun : run = _ := run_of_look hq hzero fields
    exact ⟨_, congrArg Run.answer hrun,
      fun _ => ⟨congrArg Run.commands hrun, congrArg Run.fields hrun⟩, fun hne => absurd hzero hne⟩
  · have hrun : run = _ := run_of_ne hq (hnow.trans (by decide)) hne fields
    have hfields := congrArg Run.fields hrun
    have htokens : run.fields.get? Fields.tokensName =
        some (exactText ((numbers q).settle fields).tokens) := by
      rw [hfields, KeyMap.get?_insert, if_neg (by decide), KeyMap.get?_insert, if_pos rfl]
    have hinstant : run.fields.get? Fields.instantName = some (toString now.toInt) := by
      rw [hfields, KeyMap.get?_insert, if_pos rfl]
      rfl
    refine ⟨_, congrArg Run.answer hrun, fun hzero => absurd hzero hne, fun _ =>
      ⟨?_, p.one_le_millis, p.idle_millis_le, ?_, htokens, Fields.record?_of_get? htokens hinstant⟩⟩
    · rw [congrArg Run.commands hrun, keepCommand, show q.ttl = p.idleMillis from rfl, plainText_idle]
      rfl
    · intro name htokensName hinstantName
      have htokensName' : Fields.tokensName ≠ name := htokensName.symm
      have hinstantName' : Fields.instantName ≠ name := hinstantName.symm
      rw [hfields, KeyMap.get?_insert, if_neg hinstantName', KeyMap.get?_insert, if_neg htokensName']

/-- Half of a record, and that no number, next to a field that the script does not know. -/
theorem heals_half :
    let fields : Fields := (KeyMap.empty.insert "owner" "x").insert "tokens" "many"
    let q := KeySpace.standard.request .standard "k" (-5) 3
    let run := Script.run q.key q.arguments fields
    fields.record? = .error (.protocol .recordIncomplete) ∧
      ∃ answer, run.answer = .ok answer ∧
        run.commands = [["HMGET", q.key, "tokens", "ts"],
          ["HSET", q.key, "tokens", answer.tokens, "ts", "-5"], ["PEXPIRE", q.key, "3600000"]] ∧
        run.fields.get? "owner" = some "x" ∧
        run.fields.record? = .ok (some ⟨.ofInt 17, -5⟩) := by
  intro fields q run
  obtain ⟨answer, hanswer, -, hwritten⟩ :=
    heals .standard .standard "k" fields (show 0 ≤ (3 : Int64) by decide)
      (show (Int64.toInt (-5)).natAbs ≤ 2 ^ 53 by decide)
  obtain ⟨hcommands, -, -, hothers, -, hrecord⟩ := hwritten (by decide)
  have htokens : ((numbers q).settle fields).tokens = .ofInt 17 := by decide +kernel
  exact ⟨rfl, answer, hanswer, hcommands, hothers "owner" (by decide) (by decide), htokens ▸ hrecord⟩

end Script

end TokenBucket
