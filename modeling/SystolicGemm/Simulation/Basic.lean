import SystolicGemm.Simulation.Device
import SystolicGemm.Simulation.Host

/-!
# The simulation

An accelerator and its host, simulated event by event. A step delivers the
queued messages, lets time pass, and fires the internal events that are due;
what they send is the queue of the next step. Time stands still in a step that
has messages to deliver.
-/

namespace SystolicGemm

/-- The state of a simulation beside the memory port. -/
structure Simulation where
  device : Device
  host : Host
  queue : List Message
  time : Double

namespace Simulation

variable {π : Type}

/-- The name of the accelerator. -/
def deviceName : String := "gemm"

/-- The name of the host. -/
def hostName : String := "host"

/-- A simulation at time zero with nothing to do. -/
def create (g : Geometry) : Checked Simulation := do
  return { device := ← Device.create g, host := .create, queue := [], time := .zero .double }

/-- The simulation with a message queued. -/
def inject (s : Simulation) (source sourcePort target targetPort content : String) : Simulation :=
  { s with queue := s.queue ++ [⟨source, sourcePort, target, targetPort, s.time, content⟩] }

/-- The simulation with a register access queued. -/
def injectAccess (s : Simulation) (access : RegisterAccess) : Simulation :=
  s.inject hostName Device.requestPort deviceName Device.requestPort access.render

/-- The simulation with the writes queued that program a job. -/
def injectJob (s : Simulation) (job : JobImage) : Simulation :=
  job.writes.foldl (fun s (offset, value) => s.injectAccess (.writing offset value)) s

/-- The simulation with a trigger queued. -/
def injectTrigger (s : Simulation) : Simulation :=
  s.injectAccess (.writing Register.trigger.offset 0)

/-- Runs an operation of the accelerator. -/
def runDevice {α : Type} (act : Run SimulationError (Device × π) α) :
    Run SimulationError (Simulation × π) α := fun (s, port) =>
  match act (s.device, port) with
  | .ok a (device, port) => .ok a ({ s with device }, port)
  | .error stop (device, port) => .error stop ({ s with device }, port)

/-- Lets the host take a message. -/
def hostReceive (m : Message) : Run SimulationError (Simulation × π) Unit := do
  let (s, port) ← get
  match s.host.receive s.time m.targetPort m.content with
  | .ok host => set ({ s with host }, port)
  | .error e => fail e

/-- Delivers the queued messages, those to the accelerator first. -/
def deliver : Run SimulationError (Simulation × π) Unit := do
  let (s, _) ← get
  for m in s.queue.filter (·.target == deviceName) do
    runDevice (Device.receive s.time m.targetPort m.content)
  for m in s.queue.filter (·.target == hostName) do
    hostReceive m

/-- How much time a step takes. -/
def delay (s : Simulation) : Double :=
  if s.queue.isEmpty then s.device.untilNext else .zero .double

/-- The simulation after time has passed. -/
def elapse (s : Simulation) (delta : Double) : Simulation :=
  { s with device := s.device.elapse delta, time := s.time + delta }

/-- Where a message of the accelerator goes. -/
def route (now : Double) (m : PortMessage) : Option Message :=
  if m.port = Device.irqPort then
    some ⟨deviceName, m.port, hostName, Host.irqPort, now, m.content⟩
  else if m.port = Device.responsePort then
    some ⟨deviceName, m.port, hostName, Host.responsePort, now, m.content⟩
  else none

/-- Fires the internal events that are due. The host has none. -/
def fire [Port π] : Run SimulationError (Simulation × π) Unit := do
  let (s, _) ← get
  let sent ← if s.device.untilNext.isZero then runDevice (Device.fire s.time) else pure []
  modify fun (s, port) => ({ s with queue := sent.filterMap (route s.time) }, port)

/-- Whether anything is left to do. -/
def pendingWork (s : Simulation) : Bool :=
  !s.queue.isEmpty || s.device.untilNext.lt (.infinity .double)

/-- One step of a simulation that has something to do. The delay is taken after
the messages have been delivered. The program has this order from the package `sim`,
which steps its models and lies outside of it: that it delivers, lets time pass and
fires, in this order, is an assumption. -/
def advance [Port π] : Run SimulationError (Simulation × π) Unit := do
  deliver
  modify fun (s, port) => (s.elapse s.delay, port)
  fire

/-- One step, unless nothing is left to do. -/
def step [Port π] : Run SimulationError (Simulation × π) Bool := do
  if (← get).1.pendingWork then
    advance
    return true
  else return false

end Simulation

end SystolicGemm
