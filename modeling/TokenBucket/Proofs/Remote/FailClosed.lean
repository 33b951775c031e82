import TokenBucket.Proofs.Fleet.Basic
import TokenBucket.Proofs.Remote.Conversations

/-!
# The remote store fails closed

Whatever a server sends, it cannot bring about a grant but by saying so in full: the value that it finally
answers to the script has to be a verdict, a pair that tells of a grant and gives a balance within the
bounds of the bucket. A call is denied only by a verdict too. Everything else is a failure, and its kind
tells what is at fault: an argument, a store that could not be consulted, or an answer that makes no sense
(`Remote.fail_closed`).

The value finally answered is the answer to the first command, or, from a server that does not know the
script and loads it without an error, the answer to the third (`Remote.Concludes`). The server may be silent
or report an error at each of the commands, at any depth of a value. Of the library that talks to the server
no more is used than what it promises.

## Main definitions

* `Remote.Concludes`: what the server says in the end.
* `Ruling`, `Ruling.ofAnswer`: what a call for tokens comes to.
* `Remote.Warrants`: what a call has to come to.

## Main results

* `Remote.allow_fst`: a call for tokens is decided by the last answer.
* `Remote.ofAnswer_of_warrants`, `Remote.exists_warrants`, `Remote.fail_closed`.
-/

namespace TokenBucket

/-! ### What a call comes to -/

/-- What a call for tokens comes to. -/
inductive Ruling where
  /-- The tokens may be taken. -/
  | allowed
  /-- The tokens may not be taken. -/
  | denied
  /-- The call fails. -/
  | failed (kind : Failure.Kind)
deriving DecidableEq

/-- What an answer to a call for tokens amounts to. -/
def Ruling.ofAnswer : Except Failure Decision → Ruling
  | .ok d => if d.allowed then .allowed else .denied
  | .error failure => .failed failure.kind

namespace Remote

variable {client : Client} {s : Remote client} {l : Limiter} {now storeNow : Instant} {key : String}
  {n : Int64} {value : ServerValue} {ruling : Ruling}

/-- The value that the server finally answers to the script: at once, or after it has loaded it. -/
def Concludes (s : Remote client) (value : ServerValue) : Prop :=
  (¬ (s.answerTo 0).Reports "NOSCRIPT" ∧ s.answerTo 0 = some value) ∨
    ((s.answerTo 0).Reports "NOSCRIPT" ∧ (s.answerTo 1).Succeeds ∧ s.answerTo 2 = some value)

theorem Concludes.lastAnswer_eq (h : s.Concludes value) : s.lastAnswer = some value := by
  rcases h with ⟨hknown, hanswer⟩ | ⟨hlacks, hloads, hanswer⟩
  · rw [lastAnswer, if_neg hknown, hanswer]
  · rw [lastAnswer, if_pos hlacks, if_pos hloads, hanswer]

/-- A last answer without an error is an answer to the script. -/
theorem concludes_of_lastAnswer (h : s.lastAnswer = some value) (hvalue : value.IsSound) :
    s.Concludes value := by
  rw [lastAnswer] at h
  split at h
  · next hlacks =>
    split at h
    · next hloads => exact Or.inr ⟨hlacks, hloads, h⟩
    · next hfails => exact absurd ⟨value, h, hvalue⟩ hfails
  · next hknown => exact Or.inl ⟨hknown, h⟩

/-- The call is about a key, and neither the limiter nor the store has been closed. -/
structure Serves (s : Remote client) (l : Limiter) (key : String) : Prop where
  key_ne : key ≠ ""
  limiter_isOpen : l.isClosed = false
  isOpen : s.isClosed = false

theorem serves_of_not_isClosed (hkey : key ≠ "") (h : ¬ (l.isClosed = true ∨ s.isClosed = true)) :
    s.Serves l key := by
  rw [not_or, Bool.not_eq_true, Bool.not_eq_true] at h
  exact ⟨hkey, h.1, h.2⟩

/-- What a call for some tokens has to come to, by what the server says. -/
def Warrants (s : Remote client) (l : Limiter) (key : String) : Ruling → Prop
  | .allowed => s.Serves l key ∧ ∃ value, s.Concludes value ∧ value.IsVerdict l.policy.capacity true
  | .denied => s.Serves l key ∧ ∃ value, s.Concludes value ∧ value.IsVerdict l.policy.capacity false
  | .failed .invalidArgument => key = ""
  | .failed .storeUnavailable => key ≠ "" ∧ (l.isClosed = true ∨ s.isClosed = true ∨
      s.lastAnswer = none ∨ ∃ code, s.lastAnswer.Reports code ∧ code ≠ "ERR")
  | .failed .protocol => s.Serves l key ∧ (s.lastAnswer.Reports "ERR" ∨
      ∃ value, s.Concludes value ∧ value.IsSound ∧
        ∀ granted, ¬ value.IsVerdict l.policy.capacity granted)
  | .failed .settings => False
  | .failed .unreadableFile => False

/-- What the limiter makes of the last answer. -/
def decideOn (s : Remote client) (l : Limiter) (n : Int64) : ServerAnswer → Except Failure Decision
  | none => .error (.storeUnavailable (.commandTimedOut .script s.limit))
  | some value =>
    match client.check value with
    | .error fault => .error fault.failure
    | .ok value => l.decide n value.reply

section Library

variable (hc : client.IsDocumented)

include hc

/-- Served, a call is decided by the last answer of the server. -/
theorem allow_fst (hserves : s.Serves l key) (hn : 0 ≤ n) :
    (l.allow now storeNow key n s).1 = s.decideOn l n s.lastAnswer := by
  have hrequest : l.request now key n = .ok (l.keys.request l.policy key now n) :=
    Limiter.request_eq_ok_iff.mpr ⟨hn, hserves.key_ne, hserves.limiter_isOpen, rfl⟩
  simp only [Limiter.allow, hrequest]
  change Except.bind (s.execute _).1 _ = _
  rw [execute, whenOpen_of_isOpen hserves.isOpen, bounded, converse_invoke hc]
  cases s.lastAnswer with
  | none => rfl
  | some value =>
    rw [decideOn, Option.map_some]
    cases client.check value <;> rfl

section Served

variable (hserves : s.Serves l key) (hn : 0 ≤ n)

include hserves hn

theorem ofAnswer_of_isSilent (h : s.lastAnswer = none) :
    Ruling.ofAnswer (l.allow now storeNow key n s).1 = .failed .storeUnavailable := by
  rw [allow_fst hc hserves hn, h]
  rfl

theorem ofAnswer_of_reports {code : String} (h : s.lastAnswer.Reports code) :
    Ruling.ofAnswer (l.allow now storeNow key n s).1 =
      .failed (if code = "ERR" then .protocol else .storeUnavailable) := by
  obtain ⟨value, hlast, herror⟩ := h
  rw [allow_fst hc hserves hn, Option.mem_def.mp hlast, decideOn, hc.check_of_firstError herror]
  exact congrArg Ruling.failed (hc.kind_failure code)

/-- A value without an error is taken for the reply. -/
theorem allow_fst_of_concludes (h : s.Concludes value) (hvalue : value.IsSound) :
    (l.allow now storeNow key n s).1 = l.decide n value.reply := by
  rw [allow_fst hc hserves hn, h.lastAnswer_eq, decideOn, hc.check_of_isSound hvalue]

/-- A verdict decides a call for some tokens. -/
theorem ofAnswer_of_isVerdict (hne : n ≠ 0) {granted : Bool} (h : s.Concludes value)
    (hverdict : value.IsVerdict l.policy.capacity granted) :
    Ruling.ofAnswer (l.allow now storeNow key n s).1 = if granted then .allowed else .denied := by
  obtain ⟨outcome, houtcome, rfl⟩ :=
    (Outcome.granted_ofReply_iff l.policy.one_le_capacity).mpr hverdict
  have hdraw : (n == 0) = false := beq_eq_false_iff_ne.mpr hne
  rw [allow_fst_of_concludes hc hserves hn h hverdict.isSound, Limiter.decide, houtcome, hdraw]
  rfl

/-- A value that is no verdict fails the call. -/
theorem ofAnswer_of_malformed (h : s.Concludes value) (hvalue : value.IsSound)
    (hmalformed : ∀ granted, ¬ value.IsVerdict l.policy.capacity granted) :
    Ruling.ofAnswer (l.allow now storeNow key n s).1 = .failed .protocol := by
  rw [allow_fst_of_concludes hc hserves hn h hvalue, Limiter.decide]
  cases houtcome : Outcome.ofReply l.policy.capacity value.reply with
  | ok outcome =>
    exact absurd ((Outcome.granted_ofReply_iff l.policy.one_le_capacity).mp ⟨outcome, houtcome, rfl⟩)
      (hmalformed outcome.granted)
  | error failure =>
    obtain ⟨fault, rfl⟩ := Outcome.exists_of_ofReply_eq_error houtcome
    rfl

end Served

end Library

/-- A limiter or a store that has been closed serves no call. -/
theorem ofAnswer_of_isClosed (hn : 0 ≤ n) (hkey : key ≠ "")
    (hclosed : l.isClosed = true ∨ s.isClosed = true) :
    Ruling.ofAnswer (l.allow now storeNow key n s).1 = .failed .storeUnavailable := by
  cases hlimiter : l.isClosed with
  | true =>
    rw [Limiter.allow_of_error (Limiter.request_of_isClosed hn hkey hlimiter)]
    rfl
  | false =>
    have hstore : s.isClosed = true := hclosed.resolve_left (by rw [hlimiter]; exact Bool.false_ne_true)
    have hrequest : l.request now key n = .ok (l.keys.request l.policy key now n) :=
      Limiter.request_eq_ok_iff.mpr ⟨hn, hkey, hlimiter, rfl⟩
    simp only [Limiter.allow, hrequest]
    change Ruling.ofAnswer (Except.bind (s.execute _).1 _) = _
    rw [execute, whenOpen_of_isClosed hstore]
    rfl

/-- A call comes to what is warranted. -/
theorem ofAnswer_of_warrants (hc : client.IsDocumented) (hn : 1 ≤ n) (h : s.Warrants l key ruling) :
    Ruling.ofAnswer (l.allow now storeNow key n s).1 = ruling := by
  have hnonneg : 0 ≤ n := Int64.le_trans (by decide) hn
  have hne : n ≠ 0 := by
    rintro rfl
    exact absurd hn (by decide)
  match ruling, h with
  | .allowed, ⟨hserves, value, hconcludes, hverdict⟩ =>
    exact ofAnswer_of_isVerdict hc hserves hnonneg hne hconcludes hverdict
  | .denied, ⟨hserves, value, hconcludes, hverdict⟩ =>
    exact ofAnswer_of_isVerdict hc hserves hnonneg hne hconcludes hverdict
  | .failed .invalidArgument, h =>
    obtain rfl : key = "" := h
    rw [Limiter.allow_of_error (Limiter.request_of_empty hnonneg)]
    rfl
  | .failed .storeUnavailable, ⟨hkey, h⟩ =>
    by_cases hclosed : l.isClosed = true ∨ s.isClosed = true
    · exact ofAnswer_of_isClosed hnonneg hkey hclosed
    · have hserves := serves_of_not_isClosed hkey hclosed
      rcases h with hlimiter | hstore | hsilent | ⟨code, hreports, hcode⟩
      · exact absurd (Or.inl hlimiter) hclosed
      · exact absurd (Or.inr hstore) hclosed
      · exact ofAnswer_of_isSilent hc hserves hnonneg hsilent
      · rw [ofAnswer_of_reports hc hserves hnonneg hreports, if_neg hcode]
  | .failed .protocol, ⟨hserves, h⟩ =>
    rcases h with hreports | ⟨value, hconcludes, hvalue, hmalformed⟩
    · rw [ofAnswer_of_reports hc hserves hnonneg hreports, if_pos rfl]
    · exact ofAnswer_of_malformed hc hserves hnonneg hconcludes hvalue hmalformed

/-- Something is always warranted. -/
theorem exists_warrants (s : Remote client) (l : Limiter) (key : String) :
    ∃ ruling, s.Warrants l key ruling := by
  by_cases hkey : key = ""
  · exact ⟨.failed .invalidArgument, hkey⟩
  by_cases hclosed : l.isClosed = true ∨ s.isClosed = true
  · exact ⟨.failed .storeUnavailable, hkey, hclosed.imp_right Or.inl⟩
  have hserves := serves_of_not_isClosed hkey hclosed
  rcases s.lastAnswer.cases with hsilent | ⟨value, hlast, hvalue⟩ | ⟨code, hreports⟩
  · exact ⟨.failed .storeUnavailable, hkey, Or.inr (Or.inr (Or.inl hsilent))⟩
  · have hconcludes := concludes_of_lastAnswer hlast hvalue
    by_cases hallowed : value.IsVerdict l.policy.capacity true
    · exact ⟨.allowed, hserves, value, hconcludes, hallowed⟩
    by_cases hdenied : value.IsVerdict l.policy.capacity false
    · exact ⟨.denied, hserves, value, hconcludes, hdenied⟩
    refine ⟨.failed .protocol, hserves, Or.inr ⟨value, hconcludes, hvalue, ?_⟩⟩
    rintro (_ | _)
    · exact hdenied
    · exact hallowed
  · by_cases hcode : code = "ERR"
    · exact ⟨.failed .protocol, hserves, Or.inl (hcode ▸ hreports)⟩
    · exact ⟨.failed .storeUnavailable, hkey, Or.inr (Or.inr (Or.inr ⟨code, hreports, hcode⟩))⟩

/-- With a library that does what it promises, a call for some tokens comes to an outcome exactly if it is
warranted, whatever the server sends. -/
theorem fail_closed (hc : client.IsDocumented) (l : Limiter) (now storeNow : Instant) (key : String)
    {n : Int64} (hn : 1 ≤ n) (s : Remote client) (ruling : Ruling) :
    Ruling.ofAnswer (l.allow now storeNow key n s).1 = ruling ↔ s.Warrants l key ruling := by
  constructor
  · rintro rfl
    obtain ⟨ruling, h⟩ := exists_warrants s l key
    rwa [ofAnswer_of_warrants hc hn h]
  · exact ofAnswer_of_warrants hc hn

/-- A server that has to load the script first, and says so within a list. The verdict that it then sends
with a balance in bytes lets the tokens be taken; with an infinite balance it is no verdict, whatever it
tells of a grant, and with an error beside the balance it is none either. -/
theorem fail_closed_standard :
    let server (last : ServerValue) : Remote .standard :=
      ⟨standardLimit, [some (.array [.error "NOSCRIPT"]), some (.simple "loaded"), some last], [], false⟩
    let ruling (last : ServerValue) : Ruling :=
      .ofAnswer ((Limiter.new .standard .standard).allow 0 0 "k" 1 (server last)).1
    Client.standard.IsDocumented ∧ (1 : Int64) ≤ 1 ∧
      ruling (.array [.integer 3, .bulk [32, 49, 50, 46, 53, 10]]) = .allowed ∧
      ruling (.array [.boolean true, .simple "1e999"]) = .failed .protocol ∧
      ruling (.array [.boolean true, .integer 5, .push "" [.error "LOADING"]]) =
        .failed .storeUnavailable := by
  intro server ruling
  have hserves (last : ServerValue) : (server last).Serves (.new .standard .standard) "k" :=
    ⟨by decide, rfl, rfl⟩
  have hlacks (last : ServerValue) : ((server last).answerTo 0).Reports "NOSCRIPT" :=
    ⟨.array [.error "NOSCRIPT"], rfl, ServerValue.firstError?_eq_some_iff.mp rfl⟩
  have hloads (last : ServerValue) : ((server last).answerTo 1).Succeeds :=
    ⟨.simple "loaded", rfl, ServerValue.firstError?_eq_none_iff.mp rfl⟩
  have hconcludes (last : ServerValue) : (server last).Concludes last :=
    Or.inr ⟨hlacks last, hloads last, rfl⟩
  have hgrant : (ServerValue.array [.integer 3, .bulk [32, 49, 50, 46, 53, 10]]).IsVerdict 20 true :=
    ⟨_, _, _, .text " 12.5\n", .ofDecimal false ⟨125, -1⟩, rfl, .integer 3, .bulk " 12.5\n",
      .positive 3 (by decide), .text _ _ (Numeral.binary64?_trimBlanks_iff.mp (by decide +kernel)),
      Outcome.isWithin_iff.mpr ⟨by decide +kernel, by decide +kernel, by decide +kernel⟩⟩
  have hinfinite : ∀ granted,
      ¬ (ServerValue.array [.boolean true, .simple "1e999"]).IsVerdict 20 granted := by
    rintro granted ⟨_, _, _, _, tokens, hpair, -, hsays, -, hgives, hfinite, -⟩
    cases hpair
    cases hsays
    cases hgives with
    | text _ _ htext =>
      have hinfinity : Numeral.binary64? (trimBlanks "1e999".toList) = some (.infinity false) := by
        decide +kernel
      cases (Numeral.binary64?_trimBlanks_iff.mpr htext).symm.trans hinfinity
      cases hfinite
  have hsound : (ServerValue.array [.boolean true, .simple "1e999"]).IsSound :=
    ServerValue.firstError?_eq_none_iff.mp rfl
  let busy : ServerValue := .array [.boolean true, .integer 5, .push "" [.error "LOADING"]]
  have hloading : (server busy).lastAnswer.Reports "LOADING" := by
    rw [(hconcludes _).lastAnswer_eq]
    exact ⟨_, rfl, ServerValue.firstError?_eq_some_iff.mp rfl⟩
  have hc := Client.isDocumented_standard
  have hn : (1 : Int64) ≤ 1 := Int64.le_refl 1
  exact ⟨hc, hn, (fail_closed hc _ 0 0 "k" hn _ .allowed).mpr ⟨hserves _, _, hconcludes _, hgrant⟩,
    (fail_closed hc _ 0 0 "k" hn _ (.failed .protocol)).mpr
      ⟨hserves _, Or.inr ⟨_, hconcludes _, hsound, hinfinite⟩⟩,
    (fail_closed hc _ 0 0 "k" hn _ (.failed .storeUnavailable)).mpr
      ⟨by decide, Or.inr (Or.inr (Or.inr ⟨"LOADING", hloading, by decide⟩))⟩⟩

end Remote

end TokenBucket
