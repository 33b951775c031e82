import TokenBucket.Remote.Store
import TokenBucket.Proofs.Remote.Values

/-!
# Conversations with a server

What comes of a conversation, and what is said in it, hangs on the answers of the server alone. With a
library that does what it promises a run of a script takes one command, or up to three from a server that
reports that it does not know the script (`Remote.converse_invoke`); fields are read and keys deleted by one
command each.

The answers are described by the errors that stand in them, and not by what a library makes of them. An
answer succeeds if it is a sound value (`ServerAnswer.Succeeds`); it reports the code of the first error in it
otherwise (`ServerAnswer.Reports`), or does not come at all.

## Main definitions

* `ServerAnswer.Reports`, `ServerAnswer.Succeeds`.
* `Remote.answerTo`, `Remote.sending`.
* `Remote.lastAnswer`, `Remote.scriptWords`: how a run of a script ends, and what it sends.

## Main results

* `ServerAnswer.cases`: no answer, a success, or a report.
* `Client.IsDocumented.check_eq_missingScript_iff`, `Client.IsDocumented.kind_failure`.
* `Client.isDocumented_standard`: the standard client does what it promises.
* `Remote.converse_bind`, `Remote.converse_invoke`.
-/

namespace TokenBucket

/-! ### Answers -/

namespace ServerAnswer

/-- The server reports an error: the first one in its answer has the given code. -/
def Reports (code : String) (answer : ServerAnswer) : Prop := ∃ value ∈ answer, value.FirstError code

/-- The server answers without an error. -/
def Succeeds (answer : ServerAnswer) : Prop := ∃ value ∈ answer, value.IsSound

instance (code : String) (answer : ServerAnswer) : Decidable (answer.Reports code) :=
  inferInstanceAs (Decidable (∃ value ∈ answer, value.FirstError code))

instance (answer : ServerAnswer) : Decidable answer.Succeeds :=
  inferInstanceAs (Decidable (∃ value ∈ answer, value.IsSound))

/-- A server keeps silent, answers without an error, or reports one. -/
theorem cases (answer : ServerAnswer) :
    answer = none ∨ answer.Succeeds ∨ ∃ code, answer.Reports code := by
  cases answer with
  | none => exact Or.inl rfl
  | some value =>
    rcases value.isSound_or_exists_firstError with hsound | ⟨code, herror⟩
    · exact Or.inr (Or.inl ⟨value, rfl, hsound⟩)
    · exact Or.inr (Or.inr ⟨code, value, rfl, herror⟩)

end ServerAnswer

/-! ### Libraries -/

namespace Client

namespace IsDocumented

variable {client : Client} (hc : client.IsDocumented) {v : ServerValue}

include hc

/-- Only a server that does not know a script is taken for one. -/
theorem check_eq_missingScript_iff : client.check v = .error .missingScript ↔ v.FirstError "NOSCRIPT" := by
  constructor
  · intro h
    rcases v.isSound_or_exists_firstError with hsound | ⟨code, herror⟩
    · rw [hc.check_of_isSound hsound] at h
      cases h
    · rw [hc.check_of_firstError herror, Except.error.injEq] at h
      by_cases hrejected : code = "ERR"
      · rw [hrejected, hc.kindOf_err] at h
        cases h
      · by_cases hmissing : code = "NOSCRIPT"
        · exact hmissing ▸ herror
        · rw [hc.kindOf_of_ne hrejected hmissing] at h
          cases h
  · intro h
    rw [hc.check_of_firstError h, hc.kindOf_noScript]

/-- A reported error means that the server could not be consulted, unless it has rejected the command. -/
theorem kind_failure (code : String) :
    (client.kindOf code).failure.kind = if code = "ERR" then .protocol else .storeUnavailable := by
  split
  · next hrejected =>
    rw [hrejected, hc.kindOf_err]
    rfl
  · next hother =>
    by_cases hmissing : code = "NOSCRIPT"
    · rw [hmissing, hc.kindOf_noScript]
      rfl
    · rw [hc.kindOf_of_ne hother hmissing]
      rfl

end IsDocumented

/-- The standard client does what a library promises. -/
theorem isDocumented_standard : standard.IsDocumented where
  check_of_isSound h := by
    change checked _ = _
    rw [checked, ServerValue.firstError?_eq_none_iff.mpr h]
  check_of_firstError h := by
    change checked _ = .error (RemoteFault.ofCode _)
    rw [checked, ServerValue.firstError?_eq_some_iff.mpr h]
  kindOf_err := rfl
  kindOf_noScript := rfl
  kindOf_of_ne herr hmissing := by
    change RemoteFault.ofCode _ = _
    rw [RemoteFault.ofCode, if_neg herr, if_neg hmissing]
  invoke_eq source keys arguments := rfl
  readFields_eq key := ⟨_, rfl⟩
  delete_eq key := ⟨_, rfl⟩

end Client

/-! ### What is said, and what comes of it -/

namespace Remote

variable {client : Client} {α β : Type} {s : Remote client}

/-- The answer to one of the next commands, counted from zero; there is none where the server keeps
silent. -/
def answerTo (s : Remote client) (i : ℕ) : ServerAnswer := s.answers.getD i none

/-- The connection after some commands, each of which has taken one answer. -/
def sending (s : Remote client) (commands : List (List String)) : Remote client :=
  { s with answers := s.answers.drop commands.length, sent := s.sent ++ commands }

@[simp] theorem answerTo_sending (commands : List (List String)) (i : ℕ) :
    (s.sending commands).answerTo i = s.answerTo (commands.length + i) := by
  simp [answerTo, sending]

theorem sending_sending (first second : List (List String)) :
    (s.sending first).sending second = s.sending (first ++ second) := by
  simp [sending]

/-- A conversation of one command. -/
theorem converse_send_done (words : List String) (read : ServerValue → α) :
    s.converse (.send words fun answer => .done (read answer)) =
      ((s.answerTo 0).map read, s.sending [words]) := by
  obtain ⟨limit, answers, sent, isClosed⟩ := s
  match answers with
  | [] | none :: _ | some _ :: _ => simp [converse, answerTo, sending]

theorem converse_ask (words : List String) :
    s.converse (client.ask words) = ((s.answerTo 0).map client.check, s.sending [words]) :=
  converse_send_done words client.check

/-- A conversation that goes on with another one ends with it, or where the server keeps silent. -/
theorem converse_bind (talk : Talk α) (rest : α → Talk β) (s : Remote client) :
    s.converse (talk.bind rest) =
      match s.converse talk with
      | (none, s) => (none, s)
      | (some result, s) => s.converse (rest result) := by
  induction talk generalizing s with
  | done result => rfl
  | send words next ih =>
    simp only [Talk.bind, converse]
    cases s.answers.headD none with
    | none => rfl
    | some value => exact ih value _

/-- The time limit has no say in what is sent. -/
theorem bounded_snd (operation : RemoteOperation) (talk : Talk (Except RemoteFault α)) :
    (s.bounded operation talk).2 = (s.converse talk).2 := by
  rw [bounded]
  split <;> next h => rw [h]

theorem whenOpen_of_isClosed (h : s.isClosed = true)
    (operation : Remote client → Except Failure α × Remote client) :
    s.whenOpen operation = (.error (.storeUnavailable .remoteClosed), s) := if_pos h

theorem whenOpen_of_isOpen (h : s.isClosed = false)
    (operation : Remote client → Except Failure α × Remote client) :
    s.whenOpen operation = operation s := if_neg (Bool.eq_false_iff.mp h)

/-- The answer to the last command of a run of a script, which may be the one that loads it. -/
def lastAnswer (s : Remote client) : ServerAnswer :=
  if (s.answerTo 0).Reports "NOSCRIPT" then
    if (s.answerTo 1).Succeeds then s.answerTo 2 else s.answerTo 1
  else s.answerTo 0

/-- The commands of a run of a script. -/
def scriptWords (s : Remote client) (source : String) (keys arguments : List String) :
    List (List String) :=
  let run := Client.runWords source keys arguments
  if (s.answerTo 0).Reports "NOSCRIPT" then
    if (s.answerTo 1).Succeeds then [run, Client.loadWords source, run]
    else [run, Client.loadWords source]
  else [run]

/-- A run of a script is decided by the last answer. -/
theorem converse_invoke (hc : client.IsDocumented) (source : String) (keys arguments : List String) :
    s.converse (client.invoke source keys arguments) =
      (s.lastAnswer.map client.check, s.sending (s.scriptWords source keys arguments)) := by
  rw [hc.invoke_eq, converse_bind, converse_ask, lastAnswer, scriptWords]
  by_cases hlacks : (s.answerTo 0).Reports "NOSCRIPT"
  · rw [if_pos hlacks, if_pos hlacks]
    obtain ⟨first, hfirst, herror⟩ := hlacks
    rw [Option.mem_def.mp hfirst, Option.map_some, hc.check_eq_missingScript_iff.mpr herror]
    simp only [converse_bind, converse_ask, answerTo_sending, sending_sending, List.length_singleton]
    by_cases hloads : (s.answerTo 1).Succeeds
    · rw [if_pos hloads, if_pos hloads]
      obtain ⟨loaded, hloaded, hsound⟩ := hloads
      simp only [Nat.add_zero, Option.mem_def.mp hloaded, Option.map_some, hc.check_of_isSound hsound,
        converse_ask, answerTo_sending, sending_sending]
      rfl
    · rw [if_neg hloads, if_neg hloads]
      rcases (s.answerTo 1).cases with hsilent | hsucceeds | ⟨code, loaded, hloaded, hfault⟩
      · simp only [Nat.add_zero, hsilent]
        rfl
      · exact absurd hsucceeds hloads
      · simp only [Nat.add_zero, Option.mem_def.mp hloaded, Option.map_some, hc.check_of_firstError hfault]
        rfl
  · rw [if_neg hlacks, if_neg hlacks]
    cases hanswer : s.answerTo 0 with
    | none => rfl
    | some first =>
      have hknown : client.check first ≠ .error .missingScript := fun h =>
        hlacks ⟨first, hanswer, hc.check_eq_missingScript_iff.mp h⟩
      simp only [Option.map_some]
      rfl

end Remote

end TokenBucket
