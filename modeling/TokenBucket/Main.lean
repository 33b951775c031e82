import TokenBucket.CommandLine.Program

/-!
# The executable

The machine as a host: its clock, files and environment, standard output for decisions, and standard
error for the log.
-/

namespace TokenBucket

/-- The environment variables that can be settings, each with its value if it is set. -/
def settingVariables : List String :=
  let sections := [("STORE", StoreSettings.names), ("LIMITER", LimiterSettings.names)]
  sections.flatMap fun (part, names) =>
    names.map fun name =>
      Layers.variableBeginning ++ "__" ++ part ++ "__" ++ String.ofList (name.toList.map Char.toUpper)

/-- The machine as a host. -/
def machine (jsonLogs : Bool) : Host IO where
  now := return Int64.ofNat (← IO.monoMsNow)
  readFile path := try some <$> IO.FS.readFile path catch _ => return none
  environment := do
    let values ← settingVariables.mapM fun name => return (name, ← IO.getEnv name)
    return values.filterMap fun (name, value) => value.map (name, ·)
  pause millis := IO.sleep (UInt32.ofNat millis)
  print line := IO.println line
  log entry := IO.eprintln (if jsonLogs then entry.objectLine else entry.plainLine)

/-- Runs the program on the machine. -/
def runOnMachine (arguments : List String) : IO UInt32 := do
  let jsonLogs := match Parsed.ofArguments arguments with
    | .run invocation => invocation.jsonLogs
    | _ => false
  let code ← Program.run (machine jsonLogs) arguments
  match code with
  | .success => pure ()
  | .failed failure => IO.eprintln ("Error: " ++ failure.message)
  | .misused => IO.eprintln Program.usageLine
  return UInt32.ofNat code.toNat

end TokenBucket

/-- The entry point. -/
def main (arguments : List String) : IO UInt32 := TokenBucket.runOnMachine arguments
