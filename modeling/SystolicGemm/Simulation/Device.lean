import SystolicGemm.Job.Registers
import SystolicGemm.Simulation.Message
import SystolicGemm.Wire.Access
import SystolicGemm.Wire.Report

/-!
# The accelerator as a model

The memory-mapped accelerator of a discrete-event simulation. Requests arrive on
a port; answers to reads wait in an outbox for the next internal event. The
armed event of the engine is the model's own: its delay is the time until it,
and the completion of a job sends the report on the interrupt port.

`busy` and `irq` of the status register repeat what the engine knows. They are
written where a trigger is accepted and where the completion is delivered.
-/

namespace SystolicGemm

/-- The state of the accelerator. -/
structure Device where
  registers : RegisterFile
  engine : Engine
  /-- Time until the armed event. -/
  untilEvent : Double
  /-- Answers that have not been sent. -/
  outbox : List PortMessage
  records : List Record

namespace Device

variable {π : Type}

/-- The port that takes register requests. -/
def requestPort : String := "reg_req"

/-- The port that answers reads. -/
def responsePort : String := "reg_resp"

/-- The port that carries interrupts. -/
def irqPort : String := "irq"

/-- The accelerator of an array, after reset. -/
def create (g : Geometry) : Checked Device := do
  return {
    registers := .reset
    engine := ← Engine.create g
    untilEvent := .infinity .double
    outbox := []
    records := [] }

/-- The device with a record kept. -/
def record (d : Device) (now : Double) (action : Action) : Device :=
  { d with records := d.records ++ [⟨now, action⟩] }

/-- The device with a status bit set. -/
def raise (d : Device) (b : StatusBit) : Device :=
  { d with registers := d.registers.raise b.mask }

/-- The device with a status bit cleared. -/
def lower (d : Device) (b : StatusBit) : Device :=
  { d with registers := d.registers.lower b.mask }

/-- The device with the time until the armed event set to its delay. -/
def sync (d : Device) : Device :=
  { d with
    untilEvent :=
      match d.engine.pending with
      | some (_, latency) => .ofNat .double latency
      | none => .infinity .double }

/-- Runs an operation of the engine and says how it ended. -/
def runEngine {α : Type} (act : Run Failure (Engine × π) α) :
    Run SimulationError (Device × π) (Except Failure α) := fun (d, port) =>
  match act (d.engine, port) with
  | .ok a (engine, port) => .ok (.ok a) ({ d with engine }, port)
  | .error (.error failure) (engine, port) => .ok (.error failure) ({ d with engine }, port)
  | .error (.trap t) (engine, port) => .error (.trap t) ({ d with engine }, port)

/-- Changes the device. -/
def modifyDevice (f : Device → Device) : Run SimulationError (Device × π) Unit :=
  modify fun (d, port) => (f d, port)

/-- Starts the programmed job, if the engine takes it. -/
def trigger (now : Double) : Run SimulationError (Device × π) Unit := do
  let (d, _) ← get
  if d.engine.busy then
    modifyDevice fun d => (d.raise .rejected).record now .triggerRejected
  else
    match ← runEngine (Engine.start d.registers.job) with
    | .ok () =>
      modifyDevice fun d =>
        (((d.lower .rejected).lower .irq).raise .busy).sync.record now (.trigger d.registers.job)
    | .error failure =>
      match failure with
      | .job _ | .geometry _ =>
        modifyDevice fun d => (d.raise .rejected).record now (.jobRejected failure)
      | _ => fail .invalidModelState

/-- Blanks the job and lowers the interrupt, unless a job is under way. -/
def softClear (now : Double) (d : Device) : Device :=
  if d.engine.busy then d
  else
    ({ d with
        registers := d.registers.clearJob
        engine := d.engine.clearIrq }.lower .irq).lower .rejected |>.record now .softClear

/-- Writes a register and does what the write asks for. -/
def writeRegister (now : Double) (offset value : UInt32) :
    Run SimulationError (Device × π) Unit := do
  let (d, _) ← get
  let (effect, registers) := d.registers.write offset value
  modifyDevice fun d => { d with registers }
  match effect with
  | .none => return
  | .trigger => trigger now
  | .irqClear => modifyDevice fun d => { d with engine := d.engine.clearIrq }.lower .irq
  | .softClear => modifyDevice (softClear now)

/-- The device with the answer to a read in its outbox. -/
def readRegister (d : Device) (access : RegisterAccess) : Device :=
  let response := { access with value := d.registers.read access.offset }
  { d with outbox := d.outbox ++ [⟨responsePort, response.render⟩] }

/-- Takes a message. What is no register request on the request port is ignored. -/
def receive (now : Double) (port content : String) : Run SimulationError (Device × π) Unit := do
  if port ≠ requestPort then return
  match RegisterAccess.ofText? content with
  | none => return
  | some access =>
    if access.write then writeRegister now access.offset access.value
    else modifyDevice (·.readRegister access)

/-- The device after the completion of a job. -/
def complete (d : Device) (now : Double) (report : JobReport) : Device :=
  let d := { d with registers := d.registers.jobFinished }.lower .busy
  let d := if d.engine.irq then d.raise .irq else d.lower .irq
  d.record now (.irq report.render)

/-- Runs the internal event: empties the outbox and delivers the armed event if
it is due. The result is what the device sends. -/
def fire [Port π] (now : Double) : Run SimulationError (Device × π) (List PortMessage) := do
  let (d, _) ← get
  let messages := d.outbox
  modifyDevice fun d => { d with outbox := [] }
  if (Binary.zero .double).lt d.untilEvent then return messages
  match d.engine.pending with
  | none =>
    modifyDevice fun d => { d with untilEvent := .infinity .double }
    return messages
  | some (event, _) =>
    match ← runEngine (Engine.deliver event) with
    | .ok (some report) =>
      modifyDevice fun d => (d.complete now report).sync
      return messages ++ [⟨irqPort, report.render⟩]
    | .ok none =>
      modifyDevice sync
      return messages
    | .error failure =>
      modifyDevice fun d => d.record now (.fault failure)
      fail .invalidModelState

/-- The device after time has passed. -/
def elapse (d : Device) (delta : Double) : Device :=
  { d with untilEvent := d.untilEvent - delta }

/-- Time until the next internal event. A full outbox is an event at once. -/
def untilNext (d : Device) : Double :=
  if d.outbox.isEmpty then d.untilEvent else .zero .double

/-- The state in words. -/
def status (d : Device) : String :=
  let status := Failure.hex d.registers.status.toNat
  s!"phase={d.engine.phase.name} cycles={d.engine.cycles} status={status}"

end Device

end SystolicGemm
