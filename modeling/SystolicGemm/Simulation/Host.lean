import SystolicGemm.Simulation.Message
import SystolicGemm.Wire.Access
import SystolicGemm.Wire.Report

/-!
# The host

The driving core of the simulation keeps what comes back from the accelerator:
reports of finished jobs and answers to register reads.
-/

namespace SystolicGemm

/-- The state of the host. -/
structure Host where
  reports : List JobReport
  responses : List RegisterAccess
  records : List Record

namespace Host

/-- The port that takes interrupts. -/
def irqPort : String := "irq_in"

/-- The port that takes answers to register reads. -/
def responsePort : String := "reg_resp_in"

/-- A host that has heard nothing. -/
def create : Host := ⟨[], [], []⟩

/-- The host with a record kept. -/
def record (h : Host) (now : Double) (action : Action) : Host :=
  { h with records := h.records ++ [⟨now, action⟩] }

/-- Takes a message. One on a port of its own has to be well formed. -/
def receive (h : Host) (now : Double) (port content : String) : Except SimulationError Host :=
  if port = irqPort then
    match JobReport.ofText? content with
    | some report => .ok ({ h with reports := h.reports ++ [report] }.record now (.irq content))
    | none => .error .invalidModelState
  else if port = responsePort then
    match RegisterAccess.ofText? content with
    | some access =>
      .ok ({ h with responses := h.responses ++ [access] }.record now (.registerResponse content))
    | none => .error .invalidModelState
  else .ok h

/-- The state in words. -/
def status (h : Host) : String := s!"irqs={h.reports.length} reg_reads={h.responses.length}"

/-- The reports as the records of interrupts hold them. -/
def irqRecords (h : Host) : List String :=
  h.records.filterMap fun r =>
    match r.action with
    | .irq report => some report
    | _ => none

end Host

end SystolicGemm
