import TokenBucket.CommandLine.Arguments
import TokenBucket.CommandLine.Log
import TokenBucket.Settings.Build
import TokenBucket.Settings.Layers

/-!
# The program

The program loads its settings, builds a limiter, carries out one command with it, and closes it. It
talks to a *host*, which shows the time, reads files and environment variables, pauses, and takes lines of
output and log entries. The program is the same whatever the host: one is the machine it runs on, another
a *stage* on which everything the program sees is set up beforehand and everything it does is kept.

A host without a network never completes the opening of a connection, so a store on a server is
unavailable there.

## Main definitions

* `Host`, `Program.run`.
* `Stage`, `Staged`: the host on which a run can be looked at.
* `ExitCode`: how a run ends.
-/

namespace TokenBucket

/-- What the program asks of the place where it runs. -/
structure Host (m : Type → Type) where
  /-- The reading of the clock. -/
  now : m Instant
  /-- The text of a file, if it can be read. -/
  readFile : String → m (Option String)
  /-- The environment variables. -/
  environment : m (List (String × String))
  /-- Waits for a number of milliseconds. -/
  pause : Nat → m Unit
  /-- Puts a line out. -/
  print : String → m Unit
  /-- Notes something in the log. -/
  log : LogEntry → m Unit

/-- How a run ends. -/
inductive ExitCode where
  /-- The command was carried out. -/
  | success
  /-- The command failed. -/
  | failed (failure : Failure)
  /-- The arguments make no sense. -/
  | misused
deriving DecidableEq

/-- The number of an exit code. -/
def ExitCode.toNat : ExitCode → Nat
  | .success => 0
  | .failed _ => 1
  | .misused => 2

namespace Program

/-- The line that tells the version. -/
def versionLine : String := "tollgate 0.1.0"

/-- The line that tells how the program is used. -/
def usageLine : String :=
  "Usage: tollgate [--config FILE] [--json] [--json-logs] check|burst|reset --key KEY [OPTIONS]"

/-- The line that tells a decision. -/
def decisionLine (json : Bool) (key : String) (decision : Decision) : String :=
  let remaining := toString decision.remaining.toInt
  if json then
    "\x7b\"allowed\":" ++ (if decision.allowed then "true" else "false") ++ ",\"remaining\":" ++
      remaining ++ "\x7d"
  else key ++ (if decision.allowed then " allowed" else " denied") ++ " remaining=" ++ remaining

variable {m : Type → Type} [Monad m] (host : Host m)

/-- One call on a limiter. -/
def call (limiter : Limiter) (key : String) (tokens : Int64) (store : AnyStore) :
    m (Except Failure Decision × AnyStore) := do
  let now ← host.now
  return limiter.allow now now key tokens store

/-- The calls of a burst, of which `left` are still to come and `granted` have been granted. A call that
fails ends the burst. -/
def burst (limiter : Limiter) (json : Bool) (key : String) (tokens : Int64) (pauseMillis : Nat)
    (count : Nat) : (left granted : Nat) → AnyStore → m (Except Failure Unit)
  | 0, granted, _ => do
    host.log (.burstFinished key count granted)
    return .ok ()
  | left + 1, granted, store => do
    if left + 1 < count && 0 < pauseMillis then host.pause pauseMillis
    match ← call host limiter key tokens store with
    | (.error failure, _) => return .error failure
    | (.ok decision, store) =>
      host.print (decisionLine json key decision)
      burst limiter json key tokens pauseMillis count left
        (if decision.allowed then granted + 1 else granted) store

/-- Carries out a command. -/
def carryOut (limiter : Limiter) (json : Bool) (store : AnyStore) :
    Command → m (Except Failure Unit)
  | .check key tokens => do
    match ← call host limiter key tokens store with
    | (.error failure, _) => return .error failure
    | (.ok decision, _) =>
      host.print (decisionLine json key decision)
      return .ok ()
  | .burst key count tokens pauseMillis =>
    burst host limiter json key tokens pauseMillis.toNat count count 0 store
  | .reset key => do
    match limiter.reset (← host.now) key store with
    | (.error failure, _) => return .error failure
    | (.ok existed, _) =>
      host.log (.bucketReset key existed)
      return .ok ()

/-- The settings of an invocation. -/
def settings (file : Option String) : m (Except Failure Settings) := do
  let text ← match file with
    | none => pure none
    | some path => do
      host.log (.loading path)
      pure (some (← host.readFile path))
  return Settings.load text (← host.environment)

/-- Carries out an invocation. -/
def invoke (invocation : Invocation) : m (Except Failure Unit) := do
  match ← settings host invocation.file with
  | .error failure => return .error failure
  | .ok settings =>
    match settings.build (← host.now) .unanswered with
    | .error failure => return .error failure
    | .ok (limiter, store) =>
      if settings.store.backend = .inProcess then host.log (.usingInProcess settings.store)
      host.log (.ready limiter.policy settings.store.backend)
      match ← carryOut host limiter invocation.json store invocation.command with
      | .error failure =>
        host.log (.commandFailed failure)
        return .error failure
      | .ok () => return .ok ()

/-- Runs the program with the given arguments. -/
def run (arguments : List String) : m ExitCode := do
  match Parsed.ofArguments arguments with
  | .run invocation =>
    match ← invoke host invocation with
    | .ok () => return .success
    | .error failure => return .failed failure
  | .version => do
    host.print versionLine
    return .success
  | .help => do
    host.print usageLine
    return .success
  | .misuse => return .misused

end Program

/-- A host on which everything is set up beforehand and kept afterwards. -/
structure Stage where
  /-- The reading of the clock. -/
  now : Instant
  /-- The files that can be read, by path. -/
  files : List (String × String)
  /-- The environment variables. -/
  environment : List (String × String)
  /-- The lines put out so far. -/
  output : List String
  /-- The log so far. -/
  log : List LogEntry

/-- A run on a stage. -/
abbrev Staged := StateM Stage

/-- The stage as a host. A pause moves its clock and nothing else does. -/
def Stage.host : Host Staged where
  now := return (← get).now
  readFile path := return (← get).files.lookup path
  environment := return (← get).environment
  pause millis := modify fun s => { s with now := Instant.advance s.now (.ofMillis millis) }
  print line := modify fun s => { s with output := s.output ++ [line] }
  log entry := modify fun s => { s with log := s.log ++ [entry] }

end TokenBucket
