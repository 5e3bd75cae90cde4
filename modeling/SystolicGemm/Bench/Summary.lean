import SystolicGemm.Bench.Shell

/-!
# Summaries

What a run says in the end: the records of the models, the report of the job,
and how far the result lies from the reference.
-/

namespace SystolicGemm

/-- The records of a model, if it has any. -/
def Record.section (model status : String) (records : List Record) : List String :=
  if records.isEmpty then []
  else
    ["", s!"[{model}] {status}"] ++ records.map fun r =>
      s!"  Time {Decimal.onePlace r.time}: {r.action.name}"

/-- The records of all models. -/
def Simulation.recordLines (s : Simulation) : List String :=
  ["", "--- Simulation Records ---"]
    ++ Record.section Simulation.deviceName s.device.status s.device.records
    ++ Record.section Simulation.hostName s.host.status s.host.records
    ++ ["--- End Records ---", ""]

/-- The costs of a stream. -/
def StreamStats.line (o : Operand) (s : StreamStats) : String :=
  s!"  {o.name}: {s.transactions} beats, {s.bytes} bytes, {s.bubbles} bubbles, {s.latency} cycles"

/-- The report of a job. -/
def JobReport.lines (r : JobReport) : List String :=
  ["--- Job Report ---",
    s!"cycles:       {r.cycles}",
    s!"tiles:        {r.tiles}",
    s!"hypercycles:  {r.hypercycles}",
    s!"store phases: {r.storePhases}",
    r.x.line .x, r.w.line .w, r.y.line .y, r.z.line .z]

/-- What a run came to. -/
structure RunSummary where
  /-- The report and the largest error, unless the run was stopped before the
  interrupt. -/
  finished : Option (JobReport × Double)
  steps : Nat
  time : Double
  deriving DecidableEq

/-- The summary in a line. -/
def RunSummary.line (s : RunSummary) : String :=
  match s.finished with
  | some (report, error) =>
    s!"done: {report.cycles} cycles, max error {Decimal.text .scientific error}"
  | none => s!"stopped after {s.steps} steps at t={Decimal.text .plain s.time}"

namespace Bench

variable {π : Type}

/-- Writes lines of the output, unless the bench is quiet. -/
def explain (lines : Bench → List String) : Run BenchError (Bench × π) Unit :=
  modify fun (b, port) =>
    (if b.watch.quiet then b else { b with journal := b.journal.write .output (lines b) }, port)

/-- Writes a diagnostic. -/
def diagnose (level : LogLevel) (text : String) : Run BenchError (Bench × π) Unit :=
  modify fun (b, port) => (b.tell [⟨level, text⟩], port)

/-- The summary of a run as it stands. -/
def summary (b : Bench) (finished : Option (JobReport × Double)) : RunSummary :=
  ⟨finished, b.steps, b.simulation.time⟩

/-- Checks the result in memory. -/
def verify : Run BenchError (Bench × Memory) Double := do
  let (b, memory) ← get
  b.workload.verify memory

/-- Ends a run. After the interrupt the result is checked. -/
def conclude (finished : Option JobReport) : Run BenchError (Bench × Memory) RunSummary := do
  explain (·.simulation.recordLines)
  match finished with
  | none =>
    let (b, _) ← get
    diagnose .warn s!"stopped at t={b.clock} before the job completed"
    return b.summary none
  | some report =>
    let error ← verify
    explain fun _ => report.lines
    diagnose .info s!"result verified, max error {Decimal.text .scientific error}"
    return (← get).1.summary (some (report, error))

/-- Runs a bench to its end. -/
def complete : Run BenchError (Bench × Memory) RunSummary := do conclude (← run)

/-- Runs a bench to its end by the lines of an input. -/
def completeBy (lines : List String) : Run BenchError (Bench × Memory) RunSummary := do
  conclude (← session (lines.map Command.parse))

end Bench

end SystolicGemm
