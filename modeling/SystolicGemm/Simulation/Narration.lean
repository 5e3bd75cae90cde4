import SystolicGemm.Journal
import SystolicGemm.Simulation.Basic

/-!
# What a step says

The diagnostics of a simulation step, told from the states before and after it.
The models themselves write nothing: all that a diagnostic says can be read off
their states, so that what is computed does not depend on who listens.

Requests that are not well formed are passed over without a word.
-/

namespace SystolicGemm

namespace Narration

/-- A time in words. -/
def time (t : Double) : String := Decimal.text .plain t

/-! ## The engine -/

/-- A change of phase. -/
def phaseChange (before after : Engine) : List Diagnostic :=
  if before.phase.name = after.phase.name then []
  else
    [⟨.debug, s!"phase {before.phase.name} -> {after.phase.name} " ++
      s!"at tile ({after.tile.row}, {after.tile.col})"⟩]

/-- The start of an accepted job. -/
def jobStart (before after : Engine) : List Diagnostic :=
  match after.plan with
  | none => []
  | some plan =>
    let s := after.store
    [⟨.debug, s!"tile store: n={s.n} w_rows={s.n + s.wPad} x_cols={s.xCols} " ++
        s!"x_pad={s.xPad} w_pad={s.wPad}"⟩,
      ⟨.info, s!"gemm job start: {plan.xRowTiles} row tiles x {plan.wColTiles} col tiles, " ++
        s!"contraction {plan.n} in {plan.colTiles} chunks"⟩]
      ++ phaseChange before after

/-- A transfer: first what memory sees of it, then the stream. -/
def beat (plan : Plan) (before after : Engine) (t : Transfer) : List Diagnostic :=
  let s := (before.stream t.operand).rewind
  let addr := Failure.hex (s.addr.toOption.getD 0)
  let strobe := Failure.hex (Engine.strobe before.geometry.format plan t).bits.toNat
  let way :=
    match s.direction with
    | .read => "read"
    | .write => "write"
  let latency := (after.stream t.operand).stats.latency - s.stats.latency - 1
  [⟨.trace, s!"mem {way} addr={addr} len={s.beatBytes} strobe={strobe}"⟩,
    ⟨.trace, s!"{s.operand.name} beat #{s.done} addr={addr} strobe={strobe} latency={latency}"⟩]

/-- The end of a hypercycle. -/
def hypercycle (before after : Engine) : List Diagnostic :=
  match before.phase with
  | .computing hyper _ _ =>
    if before.report.hypercycles < after.report.hypercycles then
      [⟨.trace, s!"hypercycle {hyper} of tile ({before.tile.row}, {before.tile.col}) retired"⟩]
    else []
  | _ => []

/-- A subcycle. -/
def subcycle (before after : Engine) : List Diagnostic :=
  match before.plan with
  | none => []
  | some plan =>
    let moved :=
      match Engine.payload? before.geometry plan before.tile before.phase with
      | some (.transfer t) => beat plan before after t
      | _ => []
    moved ++ hypercycle before after ++ phaseChange before after

/-! ## The accelerator -/

/-- A write to a register. -/
def registerWrite (now : Double) (before after : Device) (access : RegisterAccess) :
    List Diagnostic :=
  match (before.registers.write access.offset access.value).1 with
  | .trigger =>
    if before.engine.busy then
      [⟨.warn, s!"trigger while busy at t={time now}, rejected"⟩]
    else
      match after.records.getLast?.map Record.action with
      | some (.jobRejected failure) => [⟨.warn, s!"job rejected: {failure.message}"⟩]
      | _ => jobStart before.engine after.engine
  | .softClear =>
    if before.engine.busy then [⟨.warn, "soft clear ignored while a job is running"⟩] else []
  | .irqClear => []
  | .none =>
    match Register.ofOffset access.offset with
    | some _ => []
    | none =>
      [⟨.warn, s!"write to unmapped register {Failure.hex access.offset.toNat} ignored"⟩]

/-- A message to the accelerator. -/
def request (now : Double) (before after : Device) (m : Message) : List Diagnostic :=
  if m.targetPort ≠ Device.requestPort then
    [⟨.warn, s!"gemm: message on unknown port {m.targetPort}"⟩]
  else
    match RegisterAccess.ofText? m.content with
    | some access => if access.write then registerWrite now before after access else []
    | none => []

/-- Messages to the accelerator, one after the other. -/
def requests (now : Double) : Device → List Message → List Diagnostic
  | _, [] => []
  | d, m :: rest =>
    match Device.receive now m.targetPort m.content (d, ()) with
    | .ok () (after, _) => request now d after m ++ requests now after rest
    | .error _ (after, _) => request now d after m

/-- The internal event of the accelerator, if it is due. -/
def event (now : Double) (before after : Device) : List Diagnostic :=
  if (Binary.zero .double).lt before.untilEvent then []
  else
    match before.engine.pending with
    | some (.mainLoop, _) => subcycle before.engine after.engine
    | some (.completion, _) =>
      let cycles := before.engine.cycles
      [⟨.info, s!"gemm job done in {cycles} cycles"⟩,
        ⟨.info, s!"gemm irq at t={time now} after {cycles} cycles"⟩]
    | none => []

/-! ## The simulation -/

/-- A message to the host. -/
def notice (m : Message) : List Diagnostic :=
  if m.targetPort = Host.irqPort then
    match JobReport.ofText? m.content with
    | some report => [⟨.debug, s!"host: irq after {report.cycles} cycles"⟩]
    | none => []
  else []

/-- The messages that a step delivers. -/
def deliveries (s : Simulation) : List Diagnostic :=
  requests s.time s.device (s.queue.filter (·.target == Simulation.deviceName)) ++
    (s.queue.filter (·.target == Simulation.hostName)).flatMap notice

/-- A step that has been made. -/
def step (before after : Simulation) : List Diagnostic :=
  match Simulation.deliver (before, ()) with
  | .error _ _ => deliveries before
  | .ok () (s, _) =>
    let s := s.elapse s.delay
    deliveries before ++
      if s.device.untilNext.isZero then event s.time s.device after.device else []

/-- A step that has failed. -/
def failedStep (error : SimulationError) (before after : Simulation) : List Diagnostic :=
  let fault :=
    match after.device.records.getLast? with
    | some ⟨t, .fault failure⟩ =>
      [⟨.error, s!"gemm fault at t={time t}: {failure.message}"⟩]
    | _ => []
  deliveries before ++ fault ++
    [⟨.error, s!"simulation step failed at t={time before.time}: {error.name}"⟩]

end Narration

end SystolicGemm
