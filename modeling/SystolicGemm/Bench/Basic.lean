import SystolicGemm.Bench.Workload
import SystolicGemm.Simulation.Narration

/-!
# The bench

A bench runs the simulation of a workload step by step until the host has heard
of the interrupt, and keeps a journal of what can be seen meanwhile. A step
limit keeps a run that never gets there from going on.

What a step does to the simulation does not depend on the journal: a step is a
step of the simulation, and what is written is told from the states before and
after it.
-/

namespace SystolicGemm

/-- What is written beside the result. -/
structure Watch where
  quiet : Bool
  /-- The path of the trace file, if there is one. -/
  trace : Option String
  log : LogFilter
  deriving DecidableEq, Repr

namespace Watch

/-- Nothing is written. -/
def blind : Watch := ⟨true, none, .silent⟩

end Watch

/-- A run of a workload, beside the memory port. -/
structure Bench where
  workload : Workload
  maxSteps : Nat
  watch : Watch
  simulation : Simulation
  /-- Steps made so far. -/
  steps : Nat
  journal : Journal

namespace Bench

variable {π : Type}

/-- A bench and its memory, ready for the first step. -/
def create (c : Config) (watch : Watch) : Outcome BenchError (Bench × Memory) := do
  let workload ← Workload.ofConfig c
  let memory ← workload.store (.zeroed c.memory.base.toNat c.memory.size.toNat c.memory.latency)
  return ({
    workload, watch
    maxSteps := c.run.maxSteps
    simulation := ← workload.simulation
    steps := 0
    journal := #[] }, memory)

/-! ## What is written -/

/-- The bench with a line written. -/
def say (b : Bench) (c : Channel) (line : String) : Bench :=
  { b with journal := b.journal.write c [line] }

/-- The bench with diagnostics of a target written, as far as the filter admits
them. -/
def tellTo (b : Bench) (target : String) (ds : List Diagnostic) : Bench :=
  { b with journal := b.journal.write .diagnostics (b.watch.log.admitted target ds) }

/-- The bench with diagnostics of its own written. -/
def tell (b : Bench) (ds : List Diagnostic) : Bench := b.tellTo LogFilter.ownTarget ds

/-- The bench with the messages written that a step is about to deliver. -/
def showMessages (b : Bench) : Bench :=
  let queue := b.simulation.queue
  let shown := if b.watch.log.highest.admits .debug then queue.map Message.describe else []
  let journal := b.journal.write .output shown
  match b.watch.trace with
  | none => { b with journal }
  | some path => { b with journal := journal.write (.trace path) (queue.map Message.traceLine) }

/-! ## Running -/

/-- The bench after a step of the simulation. -/
def stepped (b : Bench) (s : Simulation) : Bench :=
  { b.showMessages.tell (Narration.step b.simulation s) with simulation := s, steps := b.steps + 1 }

/-- The bench after a step that has failed. -/
def failed (b : Bench) (e : SimulationError) (s : Simulation) : Bench :=
  { b.showMessages.tell (Narration.failedStep e b.simulation s) with simulation := s }

/-- The bench after a step that has trapped. -/
def trapped (b : Bench) (s : Simulation) : Bench := { b.showMessages with simulation := s }

/-- One step, unless the limit is reached or nothing is left to do. It says
whether there was anything to do. -/
def step [Port π] : Run BenchError (Bench × π) Bool := fun (b, port) =>
  if b.maxSteps ≤ b.steps then .error (.error (.stepLimit b.steps)) (b, port)
  else
    match Simulation.step (b.simulation, port) with
    | .ok true (s, port) => .ok true (b.stepped s, port)
    | .ok false (s, port) => .ok false ({ b with simulation := s }, port)
    | .error (.error e) (s, port) => .error (.error (.simulation e)) (b.failed e s, port)
    | .error (.trap t) (s, port) => .error (.trap t) (b.trapped s, port)

/-- The report of the first interrupt that the host has seen. -/
def report? (b : Bench) : Except BenchError (Option JobReport) :=
  match b.simulation.host.irqRecords.head? with
  | none => .ok none
  | some content =>
    match JobReport.ofText? content with
    | some report => .ok (some report)
    | none => .error (.malformedReport content)

/-- The report of the first interrupt, or none if there was none yet. -/
def report : Run BenchError (Bench × π) (Option JobReport) := fun (b, port) =>
  match b.report? with
  | .ok r => .ok r (b, port)
  | .error e => .error (.error e) (b, port)

/-- Looks for the interrupt up to `fuel` times, with a step after each look. It
yields the report, or none if nothing is left to do. -/
def runFor [Port π] : (fuel : Nat) → Run BenchError (Bench × π) (Option JobReport)
  | 0 => fun s => .error (.error (.stepLimit s.1.steps)) s
  | fuel + 1 => fun s =>
    match report s with
    | .error stop s => .error stop s
    | .ok (some r) s => .ok (some r) s
    | .ok none s =>
      match step s with
      | .error stop s => .error stop s
      | .ok false s => .ok none s
      | .ok true s => runFor fuel s

/-- Runs until the interrupt or until nothing is left to do. The step after as
many as the limit leaves fails, so that no run needs more fuel. -/
def run [Port π] : Run BenchError (Bench × π) (Option JobReport) := fun s =>
  runFor (s.1.maxSteps - s.1.steps + 1) s

end Bench

end SystolicGemm
