import SystolicGemm.Program.Basic

/-!
# The command line

The program with real arguments, files and streams. What it does is decided by
`SystolicGemm.Program`; here its journal is printed and its input is read, a line
at a time in step mode.
-/

namespace SystolicGemm

namespace CommandLine

/-- A bench whose journal has been printed up to some line. -/
structure Session where
  bench : Bench
  memory : Memory
  printed : Nat
  trace : Option IO.FS.Handle

/-- Prints a line on its channel. -/
def printLine (trace : Option IO.FS.Handle) : Channel × String → IO Unit
  | (.output, line) => do
    let out ← IO.getStdout
    out.putStrLn line
    out.flush
  | (.diagnostics, line) => do (← IO.getStderr).putStrLn line
  | (.trace _, line) => do
    match trace with
    | some file =>
      file.putStrLn line
      file.flush
    | none => return

/-- What the system says to a file that cannot be created or written. -/
def refusal : IO.Error → String
  | .noFileOrDirectory _ code details | .permissionDenied (some _) code details
  | .inappropriateType (some _) code details | .resourceExhausted _ code details =>
    s!"{details} (os error {code})"
  | e => toString e

/-- Prints a journal from some line on, and goes on if that works. A trace that
cannot be written ends the program. -/
def printFrom (trace : Option IO.FS.Handle) (printed : Nat) (j : Journal) (next : IO UInt32) :
    IO UInt32 := do
  for (c, line) in j.toList.drop printed do
    try printLine trace (c, line)
    catch e =>
      if !Program.isTraced (c, line) then throw e
      let (exit, ending) := Program.refuse #[] (refusal e)
      ending.toList.forM (printLine none)
      return exit.code
  next

/-- Prints the rest of a journal and exits. -/
def leave (trace : Option IO.FS.Handle) (printed : Nat) (outcome : Exit × Journal) : IO UInt32 :=
  printFrom trace printed outcome.2 (return outcome.1.code)

/-- Runs a part of a session. What it yields decides how to go on. -/
def Session.part {α : Type} (s : Session) (act : Run BenchError (Bench × Memory) α)
    (next : α → Session → IO UInt32) : IO UInt32 := do
  match act (s.bench, s.memory) with
  | .ok a (bench, memory) =>
    printFrom s.trace s.printed bench.journal
      (next a { s with bench, memory, printed := bench.journal.size })
  | .error reason (bench, _) => leave s.trace s.printed (Program.stop bench.journal reason)

/-- Ends a session. -/
def Session.close (s : Session) (finished : Option JobReport) : IO UInt32 :=
  leave s.trace s.printed (Program.finish (Bench.conclude finished (s.bench, s.memory)))

/-- Reads lines until one of them ends the session. -/
partial def Session.loop (s : Session) : IO UInt32 :=
  s.part Bench.look fun found s => do
    if found.isSome then s.close found
    else
      let line ← (← IO.getStdin).getLine
      let command := if line.isEmpty then none else some (Command.parse line)
      s.part (Bench.attend command) fun outcome s =>
        match outcome with
        | some finished => s.close finished
        | none => s.loop

/-- Runs a bench, in step mode by the lines of the input. -/
def Session.run (s : Session) (stepMode : Bool) : IO UInt32 :=
  s.part Program.announce fun _ s => do
    if stepMode then s.part Bench.greet fun _ s => s.loop
    else leave s.trace s.printed (Program.finish (Bench.complete (s.bench, s.memory)))

/-- The variables of the environment that the program looks at. -/
def variableNames : List String := Program.logVariable :: Config.variableNames

/-- The environment, as far as the program looks at it. -/
def environment : IO (List (String × String)) :=
  variableNames.filterMapM fun name => do return (← IO.getEnv name).map fun value => (name, value)

/-- The text of a file, if it can be read, or that of the file with `.toml`
behind its name. -/
def readText (path : String) : IO (Option String) := do
  for name in [path, path ++ ".toml"] do
    try
      return some (← IO.FS.readFile name)
    catch _ => pure ()
  return none

/-- Creates the trace file, or says why it cannot be created. -/
def createTrace (path : String) : IO (Except String IO.FS.Handle) := do
  if let some flaw := Program.nameFlaw path then
    return .error flaw
  try
    return .ok (← IO.FS.Handle.mk path .write)
  catch e => return .error (refusal e)

/-- The text of the configuration file that the arguments name. -/
def configText (arguments : List String) : IO (Option String) :=
  match Invocation.parse arguments with
  | .run { configFile := some path, .. } => readText path
  | _ => return none

/-- The program on real arguments. -/
def start (arguments : List String) : IO UInt32 := do
  let text ← configText arguments
  match Program.begin arguments (← environment) fun _ => text with
  | .ended exit journal => leave none 0 (exit, journal)
  | .ready c bench memory =>
    match c.traceFile? with
    | none => Session.run ⟨bench, memory, 0, none⟩ c.run.stepMode
    | some path =>
      match ← createTrace path with
      | .ok file => Session.run ⟨bench, memory, 0, some file⟩ c.run.stepMode
      | .error message => leave none 0 (Program.refuse bench.journal message)

end CommandLine

end SystolicGemm

/-- Runs the simulator with the arguments of the command line. -/
def main (arguments : List String) : IO UInt32 := SystolicGemm.CommandLine.start arguments
