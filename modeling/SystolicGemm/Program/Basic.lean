import SystolicGemm.Bench.Summary
import SystolicGemm.Program.Arguments

/-!
# The program

The program as a function of what it finds around it: its arguments, the
environment, the files it may read or create, and the lines of its input. It
yields what it writes and how it exits.

An `Opening` is as far as it comes by the arguments and the configuration alone.
What follows is a run of the bench, by the lines of the input in step mode.
-/

namespace SystolicGemm

/-- How the program exits. -/
inductive Exit where
  | success
  | failure
  | usage
  | trapped
  deriving DecidableEq, Repr

/-- The exit status. -/
def Exit.code : Exit → UInt32
  | success => 0
  | failure => 1
  | usage => 2
  | trapped => 101

/-- How far the program comes before it runs anything. -/
inductive Opening where
  | ended (exit : Exit) (journal : Journal)
  | ready (c : Config) (bench : Bench) (memory : Memory)

/-- What the program finds around it. -/
structure Surroundings where
  arguments : List String
  environment : List (String × String)
  /-- The text of a file, if it can be read. -/
  read : String → Option String
  /-- Why a file cannot be created, if it cannot. -/
  refuse : String → Option String
  /-- Why nothing can be written to a file that can be created, if so. -/
  block : String → Option String
  input : List String

namespace Program

/-- The name of the program. -/
def name : String := "gemm-accel"

/-- The version of the program. -/
def version : String := "0.1.0"

/-- How to use the program. -/
def help : List String := [
  "Runs one Z = Y + X*W job on the GEMM accelerator model",
  "",
  "Usage: gemm-accel [OPTIONS]",
  "",
  "Options:",
  "  -c, --config <FILE>          Configuration file layered over the built-in defaults",
  "  -s, --step                   Enable step mode (interactive stepping)",
  "  -q, --quiet                  Quiet mode (suppress log messages)",
  "      --trace-file <FILE>      Output trace file path",
  "      --height <HEIGHT>        Array height (H)",
  "      --pipe-regs <PIPE_REGS>  Pipeline registers per row (P); the array is H*P elements wide",
  "  -f, --format <FORMAT>        Element format: fp8, fp16 or fp32",
  "  -m <M>                       Rows of X and Z",
  "  -n <N>                       Contraction length",
  "  -k <K>                       Columns of W and Z",
  "      --seed <SEED>            Operand seed",
  "      --latency <LATENCY>      Memory latency per transaction in cycles",
  "      --dump-config            Print the effective configuration as TOML and exit",
  "  -h, --help                   Print help",
  "  -V, --version                Print version"]

/-- The variable of the environment that holds directives for diagnostics. -/
def logVariable : String := "RUST_LOG"

/-- Which diagnostics are written, with complaints about directives that are
none. Without directives a quiet run writes warnings only. -/
def logFilter (environment : List (String × String)) (quiet : Bool) : LogFilter × List String :=
  match environment.lookup logVariable with
  | some directives => LogFilter.parse directives
  | none => (.upTo (if quiet then .warn else .info), [])

/-! ## Ends -/

/-- The end by an error. -/
def refuse (j : Journal) (message : String) : Exit × Journal :=
  (.failure, j.write .diagnostics [s!"{name}: {message}"])

/-- The end where a computation has stopped. -/
def stop (j : Journal) : Stop BenchError → Exit × Journal
  | .error e => refuse j e.message
  | .trap _ => (.trapped, j.write .diagnostics [s!"{name}: number out of range"])

/-- The end of a run. -/
def finish : EStateM.Result (Stop BenchError) (Bench × Memory) RunSummary → Exit × Journal
  | .ok summary (b, _) => (.success, b.journal.write .output [summary.line])
  | .error reason (b, _) => stop b.journal reason

/-- Why no file can have a name, if so. -/
def nameFlaw (path : String) : Option String :=
  if path.contains '\x00' then some "file name contained an unexpected NUL byte" else none

/-- Whether a line goes to a trace. -/
def isTraced : Channel × String → Bool
  | (.trace _, _) => true
  | _ => false

/-- The end of a program whose trace cannot be written: it comes as far as the
first line of the trace, if there is one. -/
def blockAt (flaw : Option String) (ended : Exit × Journal) : Exit × Journal :=
  match flaw with
  | some message =>
    if ended.2.any isTraced then refuse (ended.2.takeWhile (!isTraced ·)) message else ended
  | none => ended

/-! ## Opening -/

/-- The configuration that options ask for: read, overridden and validated. -/
def configure (o : Options) (environment : List (String × String))
    (read : String → Option String) : Outcome BenchError Config := do
  let file : Config.File :=
    match o.configFile with
    | none => .none
    | some path => (read path).elim .missing .text
  let loaded ← BenchError.lift .config (Config.load file environment)
  let c := loaded.override o.overrides
  BenchError.lift .config c.validate
  return c

/-- The bench of a configuration. -/
def prepare (c : Config) (environment : List (String × String)) :
    Outcome BenchError (Bench × Memory) := do
  let (log, complaints) := logFilter environment c.run.quiet
  let (b, memory) ← Bench.create c ⟨c.run.quiet, c.traceFile?, log⟩
  return ({ b with journal := b.journal.write .diagnostics complaints }, memory)

/-- An opening that has come to an end. -/
def endedAt (outcome : Exit × Journal) : Opening := .ended outcome.1 outcome.2

/-- An end that is a success and prints lines. -/
def print (lines : List String) : Opening := .ended .success (Journal.write #[] .output lines)

/-- Prints the configuration. -/
def dump (c : Config) : Opening :=
  match BenchError.lift .config c.toToml with
  | .ok text => print (text.splitOn "\n").dropLast
  | .error reason => endedAt (stop #[] reason)

/-- What options ask for, up to the run. -/
def openWith (o : Options) (environment : List (String × String))
    (read : String → Option String) : Opening :=
  match configure o environment read with
  | .error reason => endedAt (stop #[] reason)
  | .ok c =>
    if o.dumpConfig then dump c
    else
      match prepare c environment with
      | .error reason => endedAt (stop #[] reason)
      | .ok (b, memory) => .ready c b memory

/-- What the arguments ask for, up to the run. -/
def begin (arguments : List String) (environment : List (String × String))
    (read : String → Option String) : Opening :=
  match Invocation.parse arguments with
  | .help => print help
  | .version => print [s!"{name} {version}"]
  | .refused flaw => .ended .usage (Journal.write #[] .diagnostics ["error: " ++ flaw.message])
  | .run o => openWith o environment read

/-! ## Running -/

/-- Announces a run. -/
def announce {π : Type} : Run BenchError (Bench × π) Unit := do
  let (b, _) ← get
  let (s, g) := (b.workload.shape, b.workload.geometry)
  Bench.diagnose .info
    (s!"gemm {s.m}x{s.n}x{s.k} {g.format.name} on a " ++
      s!"{g.height}x{g.pipeRegs} array (L={g.width})")

/-- Announces a run and runs it to its end, in step mode by the lines of an
input. -/
def perform (stepMode : Bool) (input : List String) :
    Run BenchError (Bench × Memory) RunSummary := do
  announce
  if stepMode then Bench.completeBy input else Bench.complete

/-- The program from its start to its end. -/
def run (s : Surroundings) : Exit × Journal :=
  match begin s.arguments s.environment s.read with
  | .ended exit journal => (exit, journal)
  | .ready c b memory =>
    match c.traceFile?.bind fun path => (nameFlaw path).or (s.refuse path) with
    | some message => refuse b.journal message
    | none =>
      blockAt (c.traceFile?.bind s.block) (finish (perform c.run.stepMode s.input (b, memory)))

end Program

end SystolicGemm
