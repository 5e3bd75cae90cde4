import SystolicGemm.Golden.Reference
import SystolicGemm.Memory.Matrix
import SystolicGemm.Settings.Config
import SystolicGemm.Simulation.Basic

/-!
# Workloads

What a configuration asks to be computed: a problem on an array, operands drawn
from a seed, and where the matrices lie. A workload is put into memory before
the run, and the Z matrix that the run leaves there is checked against the
reference.
-/

namespace SystolicGemm

/-- Why a run does not come to its result. -/
inductive BenchError where
  | config (flaw : ConfigFlaw)
  | operandsOutside (layout : Layout)
  | resultOutside
  | mismatch (m : Mismatch)
  | simulation (e : SimulationError)
  | stepLimit (steps : Nat)
  /-- The record of an interrupt holds no report. -/
  | malformedReport (content : String)
  deriving DecidableEq

namespace BenchError

/-- The error in words. -/
def message : BenchError → String
  | config flaw => flaw.message
  | operandsOutside layout => s!"operands do not fit memory with layout {layout.describe}"
  | resultOutside => "Z matrix lies outside memory"
  | mismatch m => s!"result mismatch: {m.message}"
  | simulation e => s!"Simulation error: {e.name}"
  | stepLimit steps => s!"no interrupt after {steps} steps"
  | malformedReport content => s!"malformed job report: {content}"

/-- A computation whose errors become errors of the bench. -/
def lift {ε α : Type} (f : ε → BenchError) : Outcome ε α → Outcome BenchError α
  | .ok a => .ok a
  | .error (.trap t) => .error (.trap t)
  | .error (.error e) => .error (.error (f e))

end BenchError

/-- A problem on an array, its operands, and where its matrices lie. -/
structure Workload where
  geometry : Geometry
  shape : Shape
  layout : Layout
  operands : Operands

namespace Workload

/-- The workload of a configuration. -/
def ofConfig (c : Config) : Outcome BenchError Workload := do
  let geometry ← BenchError.lift .config c.geometry
  let layout ← BenchError.lift .config c.layout
  return ⟨geometry, c.shape, layout,
    ← Operands.random c.shape geometry.format c.job.seed.toUInt64⟩

/-- Where X lies. -/
def xPlace (w : Workload) : MatrixPlace :=
  ⟨w.layout.xAddr.toNat, w.shape.n, w.layout.xPitch.toNat, w.geometry.format⟩

/-- Where W lies. -/
def wPlace (w : Workload) : MatrixPlace :=
  ⟨w.layout.wAddr.toNat, w.shape.k, w.layout.wPitch.toNat, w.geometry.format⟩

/-- Where Y lies. -/
def yPlace (w : Workload) : MatrixPlace :=
  ⟨w.layout.yAddr.toNat, w.shape.k, w.layout.yzPitch.toNat, w.geometry.format⟩

/-- Where Z is to lie. -/
def zPlace (w : Workload) : MatrixPlace :=
  ⟨w.layout.zAddr.toNat, w.shape.k, w.layout.yzPitch.toNat, w.geometry.format⟩

/-- Writes matrices one after the other, up to the first that does not lie
inside. -/
def writeMatrices : List (MatrixPlace × Array Single) → Memory → Checked (Option Memory)
  | [], m => .ok (some m)
  | (place, values) :: rest, m => do
    let (placed, m) ← m.writeMatrix place values.toList
    if placed then writeMatrices rest m else return none

/-- The memory with the operands in it. -/
def store (w : Workload) (m : Memory) : Outcome BenchError Memory := do
  match ← writeMatrices [(w.xPlace, w.operands.x), (w.wPlace, w.operands.w),
      (w.yPlace, w.operands.y)] m with
  | some m => return m
  | none => fail (.operandsOutside w.layout)

/-- The simulation of the array with the job programmed and triggered, all of it
still queued. -/
def simulation (w : Workload) : Checked Simulation := do
  let s ← Simulation.create w.geometry
  let job ← JobImage.ofShape w.shape w.geometry w.layout
  return (s.injectJob job).injectTrigger

/-- The Z matrix in memory, if it lies inside. -/
def result (w : Workload) (m : Memory) : Checked (Option (List Single)) :=
  m.readMatrix w.zPlace w.shape.m

/-- Checks the Z matrix in memory: the largest error against the reference. -/
def verify (w : Workload) (m : Memory) : Outcome BenchError Double := do
  match ← w.result m with
  | some z => BenchError.lift .mismatch (w.operands.check w.shape w.geometry.format z)
  | none => fail .resultOutside

end Workload

end SystolicGemm
