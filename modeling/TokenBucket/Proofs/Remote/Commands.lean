import TokenBucket.Proofs.Fleet.Closing
import TokenBucket.Proofs.Fleet.RoundTrips
import TokenBucket.Proofs.Remote.Conversations

/-!
# At most one charge

A run of the bucket script takes tokens on the server, and whether it did is not known if its answer does
not come. So a command that may have run the script must never be sent again. This file follows limiters
over a remote store through any run of calls, on the limiters or on the store past them, while the server
answers whatever it likes or keeps silent (`Turn`), and looks at the exchanges of each call
(`Fleet.dialogue`).

What a call sends is settled by what it asks of the store and by the answers alone (`StoreCall.Takes`),
since the library that talks to the server does no more than what it promises. A call that is refused, or
that comes after a close, sends nothing. A record is read by one command and deleted by one. The script is
run by one command too, and only a server that reports that it does not know the script is sent more: the
script, and after a success the first command once again. So in every dialogue at most one command may have
charged the bucket (`Fleet.at_most_one_charge`), and nothing follows a command that was answered otherwise
or not at all.

## Main definitions

* `Exchange`, `Exchange.MayCharge`, `Exchange.IsFollowed`.
* `StoreCall.Takes`: the exchanges that an order takes.
* `Turn`, `Fleet.take`, `Fleet.afterTurns`, `Fleet.dialogue`.

## Main results

* `StoreCall.Takes.countP_mayCharge_le`, `StoreCall.Takes.isChain`.
* `Remote.perform_of_isOpen`, `Remote.takes_commands`: what a call of the store sends.
* `Fleet.isAfter_afterTurns`: what a run of turns leaves.
* `Fleet.at_most_one_charge`.
-/

namespace TokenBucket

/-! ### Exchanges -/

/-- A command in words, and what the server answers to it, if it answers. -/
structure Exchange where
  /-- The words of the command. -/
  words : List String
  /-- The answer; there is none if the server keeps silent. -/
  answer : ServerAnswer

namespace Exchange

/-- The command runs a script. -/
def RunsScript (e : Exchange) : Prop := e.words.head? = some "EVALSHA"

/-- The command makes the bucket script known. -/
def LoadsScript (e : Exchange) : Prop := e.words = ["SCRIPT", "LOAD", Script.source]

/-- The exchange may have taken tokens: the script was to be run, and the server has not reported that it
does not know it. -/
def MayCharge (e : Exchange) : Prop := e.RunsScript ∧ ¬ e.answer.Reports "NOSCRIPT"

/-- The two exchanges after which there may be another one: the script was to be run and is not known, or
it was to be loaded and has been. -/
def IsFollowed (e : Exchange) : Prop :=
  e.RunsScript ∧ e.answer.Reports "NOSCRIPT" ∨ e.LoadsScript ∧ e.answer.Succeeds

instance : DecidablePred MayCharge := fun e =>
  inferInstanceAs (Decidable (e.words.head? = some "EVALSHA" ∧ ¬ e.answer.Reports "NOSCRIPT"))

end Exchange

/-- The words that run the bucket script for a request: its digest, the one key and the five arguments. -/
def Request.runWords (r : Request) : List String :=
  ["EVALSHA", Script.digest, "1", r.key, r.rate.shortestText, toString r.capacity.toInt,
    toString r.now.toInt, toString r.requested.toInt, toString r.ttl.toNat]

theorem Request.runWords_eq (r : Request) :
    Client.runWords Script.source [r.key] r.arguments = r.runWords := by
  have hone : toString 1 = "1" := by decide
  rw [Client.runWords, List.length_singleton, hone]
  rfl

/-- The exchanges that an order of the store takes, by the answers of the server. A request is sent a second
time only to a server that did not know the script and has loaded it since. -/
inductive StoreCall.Takes (answer : ℕ → ServerAnswer) : StoreCall → List Exchange → Prop
  | fetch (storeKey : String) : Takes answer (.fetch storeKey) [⟨["HGETALL", storeKey], answer 0⟩]
  | delete (storeKey : String) : Takes answer (.delete storeKey) [⟨["DEL", storeKey], answer 0⟩]
  | close : Takes answer .close []
  | known (request : Request) (h : ¬ (answer 0).Reports "NOSCRIPT") :
      Takes answer (.execute request) [⟨request.runWords, answer 0⟩]
  | refused (request : Request) (h : (answer 0).Reports "NOSCRIPT") (hload : ¬ (answer 1).Succeeds) :
      Takes answer (.execute request)
        [⟨request.runWords, answer 0⟩, ⟨["SCRIPT", "LOAD", Script.source], answer 1⟩]
  | loaded (request : Request) (h : (answer 0).Reports "NOSCRIPT") (hload : (answer 1).Succeeds) :
      Takes answer (.execute request)
        [⟨request.runWords, answer 0⟩, ⟨["SCRIPT", "LOAD", Script.source], answer 1⟩,
          ⟨request.runWords, answer 2⟩]

namespace StoreCall.Takes

variable {answer : ℕ → ServerAnswer} {call : StoreCall} {exchanges : List Exchange}

/-- At most one of the exchanges may have taken tokens. -/
theorem countP_mayCharge_le (h : call.Takes answer exchanges) :
    exchanges.countP (fun e => e.MayCharge) ≤ 1 := by
  cases h with
  | fetch storeKey => exact List.countP_le_length
  | delete storeKey => exact List.countP_le_length
  | close => exact Nat.zero_le 1
  | known request h => exact List.countP_le_length
  | refused request h hload =>
    have hfirst : ¬ (⟨request.runWords, answer 0⟩ : Exchange).MayCharge := fun hcharge => hcharge.2 h
    rw [List.countP_cons_of_neg (by simpa using hfirst)]
    exact List.countP_le_length
  | loaded request h hload =>
    have hfirst : ¬ (⟨request.runWords, answer 0⟩ : Exchange).MayCharge := fun hcharge => hcharge.2 h
    have hsecond : ¬ (⟨["SCRIPT", "LOAD", Script.source], answer 1⟩ : Exchange).MayCharge := by
      rintro ⟨hruns, -⟩
      exact absurd (Option.some.inj hruns) (by decide)
    rw [List.countP_cons_of_neg (by simpa using hfirst), List.countP_cons_of_neg (by simpa using hsecond)]
    exact List.countP_le_length

/-- An exchange is followed by another one only if the server does not know the script, or has just loaded
it. -/
theorem isChain (h : call.Takes answer exchanges) : exchanges.IsChain fun e _ => e.IsFollowed := by
  cases h with
  | fetch storeKey => exact .singleton _
  | delete storeKey => exact .singleton _
  | close => exact .nil
  | known request h => exact .singleton _
  | refused request h hload => exact .cons_cons (Or.inl ⟨rfl, h⟩) (.singleton _)
  | loaded request h hload =>
    exact .cons_cons (Or.inl ⟨rfl, h⟩) (.cons_cons (Or.inr ⟨rfl, hload⟩) (.singleton _))

/-- A request to a server that has to load the script, and does, takes three exchanges. -/
theorem length_of_loaded {request : Request} (h : (StoreCall.execute request).Takes answer exchanges)
    (hlacks : (answer 0).Reports "NOSCRIPT") (hload : (answer 1).Succeeds) : exchanges.length = 3 := by
  cases h with
  | known _ h => exact absurd hlacks h
  | refused _ _ hnot => exact absurd hload hnot
  | loaded => rfl

end StoreCall.Takes

/-! ### What a call of the store sends -/

namespace Remote

variable {client : Client} {s : Remote client} {request : Request} {call : StoreCall} {now : Instant}

/-- The commands that an order takes over an open connection, in words. -/
def commands (s : Remote client) : StoreCall → List (List String)
  | .execute request => s.scriptWords Script.source [request.key] request.arguments
  | .fetch storeKey => [["HGETALL", storeKey]]
  | .delete storeKey => [["DEL", storeKey]]
  | .close => []

/-- A connection that has been given up sends nothing. -/
theorem perform_of_isClosed (h : s.isClosed = true) : call.perform now s = s := by
  cases call with
  | close =>
    obtain ⟨limit, answers, sent, isClosed⟩ := s
    obtain rfl : isClosed = true := h
    rfl
  | execute request => exact congrArg Prod.snd (whenOpen_of_isClosed h _)
  | fetch storeKey => exact congrArg Prod.snd (whenOpen_of_isClosed h _)
  | delete storeKey => exact congrArg Prod.snd (whenOpen_of_isClosed h _)

/-- Over an open connection an order carries on the conversation that the library has for it, whatever is
then made of the result. -/
theorem perform_of_converse {α β : Type} {commands : List (List String)} (h : s.isClosed = false)
    (hcall : call ≠ .close) (operation : RemoteOperation) (talk : Talk (Except RemoteFault α))
    (read : Except Failure α → Except Failure β)
    (hperform : call.perform now s = (s.whenOpen fun s =>
      (read (s.bounded operation talk).1, (s.bounded operation talk).2)).2)
    (htalk : (s.converse talk).2 = s.sending commands) :
    call.perform now s = { s.sending commands with isClosed := decide (call = .close) } := by
  rw [hperform, whenOpen_of_isOpen h, bounded_snd, htalk, decide_eq_false hcall, ← h]
  rfl

/-- An open connection sends the commands of the order. -/
theorem perform_of_isOpen (hc : client.IsDocumented) (h : s.isClosed = false) :
    call.perform now s = { s.sending (s.commands call) with isClosed := decide (call = .close) } := by
  cases call with
  | close => simp [StoreCall.perform, BucketStore.close, close, commands, sending]
  | execute request =>
    exact perform_of_converse h StoreCall.noConfusion .script _ (·.map ServerValue.reply) rfl
      (congrArg Prod.snd (converse_invoke hc _ _ _))
  | fetch storeKey =>
    obtain ⟨read, hread⟩ := hc.readFields_eq storeKey
    have htalk := congrArg Prod.snd (s.converse_send_done ["HGETALL", storeKey] read)
    exact perform_of_converse h StoreCall.noConfusion .readFields _ (·.bind Fields.record?) rfl
      (hread ▸ htalk)
  | delete storeKey =>
    obtain ⟨read, hread⟩ := hc.delete_eq storeKey
    have htalk := congrArg Prod.snd (s.converse_send_done ["DEL", storeKey] read)
    exact perform_of_converse h StoreCall.noConfusion .delete _ (·.map fun removed => decide (0 < removed))
      rfl (hread ▸ htalk)

/-- A connection is given up after a call if it was before, or if this is what it was told to do. -/
theorem isClosed_perform (hc : client.IsDocumented) :
    (call.perform now s).isClosed = true ↔ s.isClosed = true ∨ call = .close := by
  cases h : s.isClosed with
  | true => simp [perform_of_isClosed h, h]
  | false => simp [perform_of_isOpen hc h]

/-- The commands of an order with the answers of the server are the exchanges that it takes. -/
theorem takes_commands (s : Remote client) (call : StoreCall) :
    call.Takes s.answerTo ((s.commands call).mapIdx fun i words => ⟨words, s.answerTo i⟩) := by
  cases call with
  | execute request =>
    rw [commands, scriptWords, Request.runWords_eq]
    split
    · next hlacks =>
      split
      · next hloads => exact .loaded request hlacks hloads
      · next hfails => exact .refused request hlacks hfails
    · next hknown => exact .known request hknown
  | fetch storeKey => exact .fetch storeKey
  | delete storeKey => exact .delete storeKey
  | close => exact .close

end Remote

/-! ### Turns -/

/-- A call that reaches a remote store, through one of the limiters that share it or past all of them, with
the answers that the server has for its commands. -/
inductive Turn (ι : Type) where
  /-- A limiter is called. -/
  | visit (v : Visit ι) (answers : List ServerAnswer)
  /-- The store is asked past all limiters. -/
  | direct (storeNow : Instant) (call : StoreCall) (answers : List ServerAnswer)

namespace Turn

variable {ι : Type}

/-- The answers of the server to the commands of a turn, in order; it is silent when they are used up. -/
def answers : Turn ι → List ServerAnswer
  | .visit _ answers => answers
  | .direct _ _ answers => answers

/-- The answer of the server to one of the commands, counted from zero. -/
def answerTo (t : Turn ι) (i : ℕ) : ServerAnswer := t.answers.getD i none

/-- The visit that a turn is, if it is one. -/
def visit? : Turn ι → Option (Visit ι)
  | .visit v _ => some v
  | .direct .. => none

/-- What the clock of the store shows. -/
def storeNow : Turn ι → Instant
  | .visit v _ => v.storeNow
  | .direct storeNow _ _ => storeNow

/-- What is wrong with the arguments, if anything is. The store itself checks none. -/
def fault? : Turn ι → Option ArgumentFault
  | .visit v _ => v.call.fault?
  | .direct .. => none

/-- The turn closes a limiter, or the store past all of them. -/
def Closes : Turn ι → Prop
  | .visit v _ => v.call = .close
  | .direct _ call _ => call = .close

/-- What the turn orders from an open store. -/
def order? (policies : ι → Policy) (spaces : ι → KeySpace) : Turn ι → Option StoreCall
  | .visit v _ => v.call.order? (policies v.limiter) (spaces v.limiter) v.now
  | .direct _ call _ => some call

end Turn

/-- A call orders something from the store exactly if its arguments are in order. -/
theorem Call.order?_eq_none_iff {call : Call} {p : Policy} {space : KeySpace} {now : Instant} :
    call.order? p space now = none ↔ call.fault? ≠ none := by
  cases call with
  | allow key n =>
    rw [order?, drawOrder?, fault?]
    by_cases hn : n < 0
    · simp [hn, Int64.not_le.mpr hn]
    · by_cases hkey : key = "" <;> simp [hn, hkey, Int64.not_lt.mp hn]
  | remaining key => by_cases hkey : key = "" <;> simp [order?, drawOrder?, fault?, hkey]
  | record key => by_cases hkey : key = "" <;> simp [order?, fault?, hkey]
  | reset key => by_cases hkey : key = "" <;> simp [order?, fault?, hkey]
  | close => simp [order?, fault?]

namespace Turn

variable {ι : Type} {policies : ι → Policy} {spaces : ι → KeySpace} {t : Turn ι}

theorem order?_eq_none_iff : t.order? policies spaces = none ↔ t.fault? ≠ none := by
  cases t with
  | visit v answers => exact Call.order?_eq_none_iff
  | direct storeNow call answers => simp [order?, fault?]

/-- A visit that is a close is a turn that is one. -/
theorem closes_of_visit? (t : Turn ι) : ∀ v ∈ t.visit?, v.call = .close → t.Closes := by
  intro v hv hcall
  cases t with
  | visit w answers =>
    obtain rfl := Option.some.inj hv
    exact hcall
  | direct storeNow call answers => cases hv

end Turn

/-! ### Runs of turns -/

namespace Fleet

variable {ι : Type} {client : Client}

/-- Limiters over a remote store to which a connection has just been opened. -/
def connected (limiters : ι → Limiter) (limit : Duration) : Fleet ι (Remote client) :=
  ⟨limiters, ⟨limit, [], [], false⟩⟩

/-- The fleet before a turn: the server has its answers ready, and no command has been sent. -/
def facing (f : Fleet ι (Remote client)) (t : Turn ι) : Fleet ι (Remote client) :=
  { f with store := { f.store with answers := t.answers, sent := [] } }

/-- What a turn asks of the store. -/
def asked? (f : Fleet ι (Remote client)) : Turn ι → Option StoreCall
  | .visit v _ => (f.limiters v.limiter).asks? v.now v.call
  | .direct _ call _ => some call

variable [DecidableEq ι]

/-- The fleet after a turn. -/
def take (f : Fleet ι (Remote client)) (t : Turn ι) : Fleet ι (Remote client) :=
  match t with
  | .visit v _ => ((f.facing t).visit v).2
  | .direct storeNow call _ => { f with store := call.perform storeNow (f.facing t).store }

/-- The fleet after a run of turns. -/
def afterTurns (f : Fleet ι (Remote client)) (turns : List (Turn ι)) : Fleet ι (Remote client) :=
  turns.foldl take f

/-- The exchanges of a turn: each command that is sent, with the next answer of the server. -/
def dialogue (f : Fleet ι (Remote client)) (t : Turn ι) : List Exchange :=
  (f.take t).store.sent.mapIdx fun i words => ⟨words, t.answerTo i⟩

/-- A turn changes the store by what it asks, if it asks anything. -/
theorem store_take (f : Fleet ι (Remote client)) (t : Turn ι) :
    (f.take t).store = (f.asked? t).elim (f.facing t).store (·.perform t.storeNow (f.facing t).store) := by
  cases t with
  | visit v answers => exact store_visit_eq (f.facing (.visit v answers)) v
  | direct storeNow call answers => rfl

/-- A turn changes the limiters only as a visit. -/
theorem limiters_take (f : Fleet ι (Remote client)) (t : Turn ι) :
    (f.take t).limiters = limitersAfter f.limiters t.visit?.toList := by
  cases t with
  | visit v answers => exact limiters_visit_eq (f.facing (.visit v answers)) v
  | direct storeNow call answers => rfl

/-- The store is closed after a turn if it was before, or if the turn is a close. -/
theorem store_isClosed_take (hc : client.IsDocumented) (f : Fleet ι (Remote client)) (t : Turn ι)
    (hf : f.ClosesTogether Remote.isClosed) :
    (f.take t).store.isClosed = true ↔ f.store.isClosed = true ∨ t.Closes := by
  cases t with
  | visit v answers =>
    have hfacing : (f.facing (.visit v answers)).ClosesTogether Remote.isClosed := hf
    exact hfacing.closed_visit (fun _ _ _ => Remote.isClosed_perform hc) v
  | direct storeNow call answers => exact Remote.isClosed_perform hc

/-- What limiters and their store are after a run of turns in which something was closed or not: no
parameter has changed, the store is closed if anything was, and a limiter only together with the store. -/
structure IsAfter (f : Fleet ι (Remote client)) (policies : ι → Policy) (spaces : ι → KeySpace)
    (closed : Prop) : Prop where
  policy_eq : ∀ i, (f.limiters i).policy = policies i
  keys_eq : ∀ i, (f.limiters i).keys = spaces i
  store_isClosed : f.store.isClosed = true ↔ closed
  closesTogether : f.ClosesTogether Remote.isClosed

variable {f : Fleet ι (Remote client)} {policies : ι → Policy} {spaces : ι → KeySpace} {closed : Prop}

/-- What a run of turns leaves of limiters and a store to which a connection has just been opened. -/
theorem isAfter_afterTurns (hc : client.IsDocumented) (policies : ι → Policy) (spaces : ι → KeySpace)
    (limit : Duration) (turns : List (Turn ι)) :
    let opened : Fleet ι (Remote client) := connected (fun i => .new (policies i) (spaces i)) limit
    (opened.afterTurns turns).IsAfter policies spaces (∃ t ∈ turns, t.Closes) := by
  intro opened
  have hlimiters : (opened.afterTurns turns).limiters =
      limitersAfter opened.limiters (turns.filterMap Turn.visit?) :=
    limiters_foldl limiters_take opened turns
  have hopen : opened.ClosesTogether Remote.isClosed := fun i h => absurd h Bool.false_ne_true
  obtain ⟨htogether, hclosed⟩ :=
    hopen.foldl limiters_take Turn.closes_of_visit? (store_isClosed_take hc) turns
  refine ⟨fun i => ?_, fun i => ?_, hclosed.trans (or_iff_right Bool.false_ne_true), htogether⟩
  · rw [hlimiters, policy_limitersAfter]
    rfl
  · rw [hlimiters, keys_limitersAfter]
    rfl

namespace IsAfter

omit [DecidableEq ι] in
/-- What a turn asks of an open store is its order. -/
theorem asked?_eq (hf : f.IsAfter policies spaces closed) (hopen : ¬ closed) (t : Turn ι) :
    f.asked? t = t.order? policies spaces := by
  cases t with
  | visit v answers =>
    have hlimiter : ¬ (f.limiters v.limiter).isClosed = true := fun h =>
      hopen (hf.store_isClosed.mp (hf.closesTogether _ h))
    rw [asked?, Turn.order?, Limiter.asks?_eq_ite, if_neg hlimiter, hf.policy_eq, hf.keys_eq]
  | direct storeNow call answers => rfl

/-- After a close a turn leaves the store as it finds it. -/
theorem store_take_of_closed (hf : f.IsAfter policies spaces closed) (hclosed : closed) (t : Turn ι) :
    (f.take t).store = (f.facing t).store := by
  have hstore : (f.facing t).store.isClosed = true := hf.store_isClosed.mpr hclosed
  rw [store_take]
  cases f.asked? t with
  | none => rfl
  | some call => exact Remote.perform_of_isClosed hstore

/-- Before any close a turn without an order leaves the store as it finds it, and one with an order sends
the commands of the order. -/
theorem store_take_of_open (hc : client.IsDocumented) (hf : f.IsAfter policies spaces closed)
    (hopen : ¬ closed) (t : Turn ι) :
    (t.order? policies spaces = none ∧ (f.take t).store = (f.facing t).store) ∨
      ∃ order, t.order? policies spaces = some order ∧
        (f.take t).store = { (f.facing t).store.sending ((f.facing t).store.commands order) with
          isClosed := decide (order = .close) } := by
  have hstore : (f.facing t).store.isClosed = false := by
    rw [← Bool.not_eq_true]
    exact fun h => hopen (hf.store_isClosed.mp h)
  rw [store_take, hf.asked?_eq hopen]
  cases t.order? policies spaces with
  | none => exact Or.inl ⟨rfl, rfl⟩
  | some order => exact Or.inr ⟨order, rfl, Remote.perform_of_isOpen hc hstore⟩

/-- A turn that has no order, or comes after a close, sends nothing. -/
theorem dialogue_eq_nil (hc : client.IsDocumented) (hf : f.IsAfter policies spaces closed) {t : Turn ι}
    (h : t.order? policies spaces = none ∨ closed) : f.dialogue t = [] := by
  have hstore : (f.take t).store = (f.facing t).store := by
    by_cases hclosed : closed
    · exact hf.store_take_of_closed hclosed t
    · have hnone := h.resolve_right hclosed
      rcases hf.store_take_of_open hc hclosed t with ⟨-, hstore⟩ | ⟨order, horder, -⟩
      · exact hstore
      · rw [hnone] at horder
        cases horder
  rw [dialogue, hstore]
  rfl

/-- Before any close a turn has the exchanges that its order takes. -/
theorem takes_dialogue (hc : client.IsDocumented) (hf : f.IsAfter policies spaces closed)
    (hopen : ¬ closed) {t : Turn ι} {order : StoreCall} (h : t.order? policies spaces = some order) :
    order.Takes t.answerTo (f.dialogue t) := by
  rcases hf.store_take_of_open hc hopen t with ⟨hnone, -⟩ | ⟨order', horder, hstore⟩
  · rw [hnone] at h
    cases h
  · obtain rfl := Option.some.inj (h.symm.trans horder)
    have htakes := (f.facing t).store.takes_commands order
    rw [dialogue, hstore]
    exact htakes

/-- Each command of a turn takes one answer of the server. -/
theorem answers_take (hc : client.IsDocumented) (hf : f.IsAfter policies spaces closed) (t : Turn ι) :
    (f.take t).store.answers = t.answers.drop (f.dialogue t).length := by
  have hlength : (f.dialogue t).length = (f.take t).store.sent.length := List.length_mapIdx
  rw [hlength]
  by_cases hclosed : closed
  · rw [hf.store_take_of_closed hclosed]
    rfl
  · rcases hf.store_take_of_open hc hclosed t with ⟨-, hstore⟩ | ⟨order, -, hstore⟩
    · rw [hstore]
      rfl
    · rw [hstore]
      rfl

end IsAfter

/-- **At most one charge.** Limiters share a remote store through a library that does what it promises.
Whatever has been called before, on them or past them, and whatever the server has answered: a call with a
fault in its arguments, or after a close of a limiter or of the store, sends no command, and every other
call has the exchanges that its order takes. In all of them at most one may have taken tokens, and an
exchange is followed by another one only where the server reported that it does not know the script, or has
loaded it just now. -/
theorem at_most_one_charge (hc : client.IsDocumented) (policies : ι → Policy) (spaces : ι → KeySpace)
    (limit : Duration) (before : List (Turn ι)) (t : Turn ι) :
    let opened : Fleet ι (Remote client) := connected (fun i => .new (policies i) (spaces i)) limit
    let f := opened.afterTurns before
    (f.take t).store.answers = t.answers.drop (f.dialogue t).length ∧
    (t.fault? ≠ none ∨ (∃ e ∈ before, e.Closes) → f.dialogue t = []) ∧
    (t.fault? = none → (∀ e ∈ before, ¬ e.Closes) → ∃ order,
      t.order? policies spaces = some order ∧ order.Takes t.answerTo (f.dialogue t)) ∧
    (f.dialogue t).countP (fun e => e.MayCharge) ≤ 1 ∧
    (f.dialogue t).IsChain fun e _ => e.IsFollowed := by
  intro opened f
  have hf : f.IsAfter policies spaces (∃ e ∈ before, e.Closes) :=
    isAfter_afterTurns hc policies spaces limit before
  have hnothing : t.fault? ≠ none ∨ (∃ e ∈ before, e.Closes) → f.dialogue t = [] := fun h =>
    hf.dialogue_eq_nil hc (h.imp_left Turn.order?_eq_none_iff.mpr)
  have hsomething : t.fault? = none → (∀ e ∈ before, ¬ e.Closes) → ∃ order,
      t.order? policies spaces = some order ∧ order.Takes t.answerTo (f.dialogue t) := by
    intro hfault hopen
    obtain ⟨order, horder⟩ := Option.ne_none_iff_exists'.mp fun hnone =>
      Turn.order?_eq_none_iff.mp hnone hfault
    exact ⟨order, horder, hf.takes_dialogue hc (by simpa using hopen) horder⟩
  have htakes : ∃ order : StoreCall, order.Takes t.answerTo (f.dialogue t) := by
    by_cases h : t.fault? ≠ none ∨ ∃ e ∈ before, e.Closes
    · -- without any exchange it is as for a close
      rw [hnothing h]
      exact ⟨.close, .close⟩
    · obtain ⟨hfault, hopen⟩ := not_or.mp h
      obtain ⟨order, -, htakes⟩ := hsomething (not_not.mp hfault) (by simpa using hopen)
      exact ⟨order, htakes⟩
  obtain ⟨order, htakes⟩ := htakes
  exact ⟨hf.answers_take hc t, hnothing, hsomething, htakes.countP_mayCharge_le, htakes.isChain⟩

/-- A server that has to load the script first, and is silent when it is to run it again: three exchanges,
and no fourth. After the store has been closed past the limiters the same call sends nothing. -/
theorem at_most_one_charge_silent :
    let answers : List ServerAnswer :=
      [some (.error "NOSCRIPT"), some (.simple "loaded"), none, some .nil]
    let t : Turn (Fin 2) := .visit ⟨1, 0, 0, .allow "k" 1⟩ answers
    let early : List (Turn (Fin 2)) := [.visit ⟨0, 0, 0, .record "k"⟩ [none]]
    let late : List (Turn (Fin 2)) := early ++ [.direct 0 .close []]
    let f : Fleet (Fin 2) (Remote .standard) :=
      connected (fun _ => .new .standard .standard) Remote.standardLimit
    Client.standard.IsDocumented ∧ t.fault? = none ∧ (∀ e ∈ early, ¬ e.Closes) ∧
      ((f.afterTurns early).dialogue t).length = 3 ∧
      ((f.afterTurns early).take t).store.answers = [some .nil] ∧
      (∃ e ∈ late, e.Closes) ∧ (f.afterTurns late).dialogue t = [] := by
  intro answers t early late f
  have hc := Client.isDocumented_standard
  have hfault : t.fault? = none := by decide
  have hopen : ∀ e ∈ early, ¬ e.Closes := by
    intro e he
    obtain rfl := List.mem_singleton.mp he
    exact Call.noConfusion
  have hclose : ∃ e ∈ late, e.Closes := ⟨.direct 0 .close [], by simp [late], rfl⟩
  obtain ⟨hanswers, -, hsomething, -, -⟩ :=
    at_most_one_charge hc (fun _ => .standard) (fun _ => .standard) Remote.standardLimit early t
  obtain ⟨-, hnothing, -⟩ :=
    at_most_one_charge hc (fun _ => .standard) (fun _ => .standard) Remote.standardLimit late t
  obtain ⟨order, horder, htakes⟩ := hsomething hfault hopen
  obtain ⟨request, rfl⟩ : ∃ request, order = .execute request :=
    ⟨_, Option.some.inj (horder.symm.trans rfl)⟩
  have hlength := htakes.length_of_loaded ⟨.error "NOSCRIPT", rfl, .here⟩
    ⟨.simple "loaded", rfl, ServerValue.firstError?_eq_none_iff.mp rfl⟩
  exact ⟨hc, hfault, hopen, hlength, hanswers.trans (by rw [hlength]; rfl), hclose,
    hnothing (Or.inr hclose)⟩

end Fleet

end TokenBucket
