import SystolicGemm.Decimal.Text
import SystolicGemm.Failure
import SystolicGemm.Wire.Text

/-!
# Messages and records

The models of a simulation talk through messages from port to port, stamped with
the simulated time. What a model does that is worth knowing it keeps as a
record.
-/

namespace SystolicGemm

/-- A message from a port of one model to a port of another. -/
structure Message where
  source : String
  sourcePort : String
  target : String
  targetPort : String
  time : Double
  content : String
  deriving DecidableEq

/-- A message as a model sends it, before it is routed. -/
structure PortMessage where
  port : String
  content : String
  deriving DecidableEq, Repr

/-- What a model keeps a record of. -/
inductive Action where
  | trigger (job : JobImage)
  | triggerRejected
  | jobRejected (failure : Failure)
  | softClear
  | irq (report : String)
  | fault (failure : Failure)
  | registerResponse (access : String)
  deriving DecidableEq, Repr

namespace Action

/-- The name of the action. -/
def name : Action → String
  | trigger _ => "trigger"
  | triggerRejected => "trigger_rejected"
  | jobRejected _ => "job_rejected"
  | softClear => "soft_clear"
  | irq _ => "irq"
  | fault _ => "fault"
  | registerResponse _ => "reg_resp"

/-- What the action was about. -/
def subject : Action → String
  | trigger job => job.describe
  | triggerRejected => "busy"
  | jobRejected failure => failure.message
  | softClear => ""
  | irq report => report
  | fault failure => failure.message
  | registerResponse access => access

end Action

/-- An action and its time. -/
structure Record where
  time : Double
  action : Action
  deriving DecidableEq

/-- How a simulation step can fail. -/
inductive SimulationError where
  | invalidModelState
  deriving DecidableEq, Repr

/-- The error in words. -/
def SimulationError.name : SimulationError → String
  | invalidModelState => "InvalidModelState"

namespace Message

/-- The message as a line of a trace, names in alphabetical order. -/
def traceLine (m : Message) : String :=
  Wire.object [("content", Wire.quote m.content), ("source", Wire.quote m.source),
    ("source_port", Wire.quote m.sourcePort), ("target", Wire.quote m.target),
    ("target_port", Wire.quote m.targetPort), ("time", Decimal.text .record m.time)]

/-- The message as a line for people. -/
def describe (m : Message) : String :=
  let time := Decimal.onePlace m.time
  s!"[MSG] t={time} {m.source}:{m.sourcePort} -> {m.target}:{m.targetPort} | {m.content}"

end Message

end SystolicGemm
