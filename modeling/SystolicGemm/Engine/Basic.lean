import SystolicGemm.Stream.Basic
import SystolicGemm.TileStore

/-!
# The engine

The control machine of the accelerator. It is driven by events: `start` accepts
a job and arms the first one, and `deliver` runs the armed event, which is one
subcycle of the job, and arms the next. The delay of an armed event is what the
subcycle cost.

A subcycle has two halves. The `payload` says what it moves, as a function of
phase, tile and plan. Moving it costs time, and then the phase goes on.
-/

namespace SystolicGemm

/-- What a job cost. -/
structure JobReport where
  cycles : Nat
  tiles : Nat
  hypercycles : Nat
  storePhases : Nat
  x : StreamStats
  w : StreamStats
  y : StreamStats
  z : StreamStats
  deriving DecidableEq, Repr, Inhabited

/-- The report of a job that has not begun. -/
def JobReport.none : JobReport := ⟨0, 0, 0, 0, .none, .none, .none, .none⟩

/-- What a subcycle does on the memory side. -/
inductive Payload where
  | transfer (t : Transfer)
  /-- A W row that is only padding. -/
  | paddingW
  /-- Nothing, on the time of a stream. -/
  | bubble (o : Operand)
  deriving DecidableEq, Repr

/-- The state of the control machine. -/
structure Engine where
  geometry : Geometry
  phase : Phase
  plan : Option Plan
  store : TileStore
  x : Stream
  w : Stream
  y : Stream
  z : Stream
  /-- The tile in work. -/
  tile : Tile
  /-- The armed event and its delay. -/
  pending : Option (Event × Nat)
  irq : Bool
  report : JobReport
  deriving Repr

namespace Engine

variable {π : Type}

/-- The engine of an array, with nothing to do. -/
def create (g : Geometry) : Checked Engine := do
  let beat ← g.checkedBeatBytes
  return {
    geometry := g
    phase := .idle
    plan := none
    store := ← TileStore.create g
    x := .unconfigured .x .read beat
    w := .unconfigured .w .read beat
    y := .unconfigured .y .read beat
    z := .unconfigured .z .write beat
    tile := ⟨0, 0⟩
    pending := none
    irq := false
    report := .none }

/-- Whether a job is under way. -/
def busy (e : Engine) : Bool := e.phase != .idle || e.pending.isSome

/-- Cycles of the job in work or of the last one. -/
def cycles (e : Engine) : Nat := e.report.cycles

/-- The engine with its interrupt line low. -/
def clearIrq (e : Engine) : Engine := { e with irq := false }

/-- The stream of an operand. -/
def stream (e : Engine) : Operand → Stream
  | .x => e.x
  | .w => e.w
  | .y => e.y
  | .z => e.z

/-- The engine with another stream for an operand. -/
def setStream (e : Engine) (o : Operand) (s : Stream) : Engine :=
  match o with
  | .x => { e with x := s }
  | .w => { e with w := s }
  | .y => { e with y := s }
  | .z => { e with z := s }

@[simp] theorem stream_setStream_self (e : Engine) (o : Operand) (s : Stream) :
    (e.setStream o s).stream o = s := by
  cases o <;> rfl

theorem stream_setStream_of_ne (e : Engine) {o p : Operand} (s : Stream) (h : o ≠ p) :
    (e.setStream o s).stream p = e.stream p := by
  cases o <;> cases p <;> first | exact (h rfl).elim | rfl

/-! ## Starting -/

/-- The engine at the beginning of an accepted job. -/
def begin (e : Engine) (plan : Plan) : Checked Engine := do
  return { e with
    phase := .starting 0
    plan := some plan
    store := ← e.store.alloc plan.n plan.leftovers
    x := e.x.configure plan.x
    w := e.w.configure plan.w
    y := e.y.configure plan.y
    z := e.z.configure plan.z
    tile := ⟨0, 0⟩
    irq := false
    report := .none }

/-- The engine with an event armed, of which there can be one only. -/
def arm (e : Engine) (event : Event) (latency : Nat) : Except Failure Engine :=
  match e.pending with
  | some (pending, _) => .error (.continuationPending event pending)
  | none => .ok { e with pending := some (event, latency) }

/-- Arms an event of the engine in the state. -/
def armEvent (event : Event) (latency : Nat) : Run Failure (Engine × π) Unit := fun (e, port) =>
  match e.arm event latency with
  | .ok e => .ok () (e, port)
  | .error failure => .error (.error failure) (e, port)

/-- Accepts a job, unless one is under way or this one does not fit the array. -/
def start (job : JobImage) : Run Failure (Engine × π) Unit := do
  let (e, port) ← get
  if e.busy then fail .busy
  Failure.liftGeometry e.geometry.validate
  let plan ← Failure.liftJob (job.validate e.geometry)
  let e ← e.begin plan
  set (e, port)
  armEvent .mainLoop 0

/-! ## What a subcycle moves -/

/-- What the store phase after a tile moves: the rows of Z, then what the next
tile needs. -/
def storeQueue (l : Nat) (plan : Plan) (tile : Tile) : List Transfer :=
  let rows := List.range l
  let stores := rows.map fun row => Transfer.storeZ row tile
  let loadsY (next : Tile) := rows.map fun row => Transfer.loadY row next
  if tile.col + 1 < plan.wColTiles then stores ++ loadsY ⟨tile.row, tile.col + 1⟩
  else if tile.row + 1 < plan.xRowTiles then
    let chunks := List.range (min plan.colTiles 2)
    stores ++ loadsY ⟨tile.row + 1, 0⟩ ++
      chunks.flatMap fun chunk => rows.map fun row => Transfer.loadX row chunk (tile.row + 1)
  else stores

/-- What the subcycle of a phase moves. Idle and finished phases move nothing
and take no time. -/
def payload? (g : Geometry) (plan : Plan) (tile : Tile) : Phase → Option Payload
  | .idle | .finished => none
  | .starting step =>
    let l := g.width
    if step < l then some (.transfer (.loadY step tile))
    else
      let chunk := (step - l) / l
      if chunk < plan.colTiles then some (.transfer (.loadX ((step - l) % l) chunk 0))
      else some (.bubble .x)
  | .computing hyper cycle 0 =>
    let k := hyper * g.width + cycle
    if k < plan.n then some (.transfer (.loadW k tile)) else some .paddingW
  | .computing hyper cycle (sub + 1) =>
    let row := cycle * g.pipeRegs + sub
    if tile.col = 0 ∧ row < g.width ∧ hyper + 2 < plan.colTiles then
      some (.transfer (.loadX row (hyper + 2) tile.row))
    else some (.bubble .x)
  | .storing _ 0 _ => some (.bubble .z)
  | .storing cycle (sub + 1) queue =>
    match queue[cycle * g.pipeRegs + sub]? with
    | some t => some (.transfer t)
    | none => some (.bubble .z)

/-- Whether a row lies in the matrix and not below its last one. -/
def rowValid (plan : Plan) (rowTile row : Nat) : Bool :=
  !(rowTile + 1 == plan.xRowTiles && plan.leftovers.xRow != 0 && plan.leftovers.xRow ≤ row)

/-- The bytes of a beat that belong to the matrix. -/
def strobe (e : Element) (plan : Plan) : Transfer → Strobe
  | .loadX row chunk rowTile =>
    if rowValid plan rowTile row then
      .edge e (chunk + 1 == plan.colTiles) plan.leftovers.xCol
    else .empty
  | .loadW _ tile => .edge e (tile.col + 1 == plan.wColTiles) plan.leftovers.wCol
  | .loadY row tile | .storeZ row tile =>
    if rowValid plan tile.row row then
      .edge e (tile.col + 1 == plan.wColTiles) plan.leftovers.wCol
    else .empty

end Engine

namespace Transfer

/-- The operand that a transfer moves. -/
def operand : Transfer → Operand
  | loadX .. => .x
  | loadW .. => .w
  | loadY .. => .y
  | storeZ .. => .z

end Transfer

namespace Engine

variable {π : Type}

/-- The slot of a transfer, and the store past it. The X slot has to be that of
the row and chunk which the engine is about to load. -/
def takeSlot (s : TileStore) : Transfer → Checked (Slot × TileStore)
  | .loadX row chunk _ => if s.peekX = (row, chunk) then s.takeX else .error .cursorMismatch
  | .loadW .. => s.takeW
  | .loadY .. => s.takeY
  | .storeZ .. => s.takeZ

/-- Runs a step of one stream. -/
def runStream {α : Type} (o : Operand) (act : Run Failure (Stream × π) α) :
    Run Failure (Engine × π) α := fun (e, port) =>
  match act (e.stream o, port) with
  | .ok a (s, port) => .ok a (e.setStream o s, port)
  | .error stop (s, port) => .error stop (e.setStream o s, port)

/-- Changes the tile store. -/
def modifyStore (f : TileStore → TileStore) : Run Failure (Engine × π) Unit :=
  modify fun (e, port) => ({ e with store := f e.store }, port)

/-- Moves one beat between its slot and memory, and says what that cost. -/
def move [Port π] (plan : Plan) (t : Transfer) : Run Failure (Engine × π) Nat := do
  let (e, _) ← get
  let (slot, store) ← takeSlot e.store t
  modifyStore fun _ => store
  let (latency, data) ←
    runStream t.operand (Stream.beat (store.read slot) (strobe e.geometry.format plan t))
  modifyStore fun store => store.fill slot data
  return latency

/-- Does what a subcycle does on the memory side, and says what that cost. -/
def perform [Port π] (plan : Plan) : Payload → Run Failure (Engine × π) Nat
  | .transfer t => move plan t
  | .paddingW => do
    let store ← (← get).1.store.skipW
    modifyStore fun _ => store
    runStream .w Stream.bubble
  | .bubble o => runStream o Stream.bubble

/-! ## How a phase goes on -/

/-- The tile after a tile, rows of tiles first. -/
def nextTile (plan : Plan) (t : Tile) : Tile :=
  if t.col + 1 = plan.wColTiles then ⟨t.row + 1, 0⟩ else ⟨t.row, t.col + 1⟩

/-- The counters of cycles and subcycles after a subcycle. -/
def nextSub (g : Geometry) (cycle sub : Nat) : Nat × Nat :=
  if sub + 1 = g.depth then (cycle + 1, 0) else (cycle, sub + 1)

/-- The engine after a subcycle of the computing phase. After the last one the
tile is computed, and its store phase begins. -/
def afterComputing (e : Engine) (plan : Plan) (hyper cycle sub : Nat) : Checked Engine := do
  let (cycle, sub) := nextSub e.geometry cycle sub
  if cycle ≠ e.geometry.width then return { e with phase := .computing hyper cycle sub }
  let e := { e with report.hypercycles := e.report.hypercycles + 1 }
  if hyper + 1 ≠ plan.colTiles then return { e with phase := .computing (hyper + 1) 0 sub }
  return { e with
    store := ← e.store.computeZ (e.tile.col + 1 == plan.wColTiles)
    phase := .storing 0 0 (storeQueue e.geometry.width plan e.tile) }

/-- The engine after a subcycle of the storing phase. After the last one the
next tile is computed, or the job is finished. -/
def afterStoring (e : Engine) (plan : Plan) (cycle sub : Nat) (queue : List Transfer) : Engine :=
  let p := e.geometry.pipeRegs
  let (cycle, sub) := nextSub e.geometry cycle sub
  if cycle < (queue.length + p - 1) / p then { e with phase := .storing cycle sub queue }
  else
    let tile := nextTile plan e.tile
    { e with
      tile
      phase := if tile.row = plan.xRowTiles then .finished else .computing 0 0 0
      report.storePhases := e.report.storePhases + 1
      report.tiles := e.report.tiles + 1 }

/-- Fails if a stream has not come to the end of its pattern. -/
def checkStreams : List Stream → Except Failure Unit
  | [] => .ok ()
  | s :: rest =>
    if s.isDone then checkStreams rest
    else .error (.streamIncomplete s.operand s.done s.pattern.total)

/-- The engine after its job, with the interrupt line high. -/
def retire (e : Engine) : Engine :=
  { e with
    phase := .idle
    plan := none
    store := e.store.free
    irq := true
    report.x := e.x.stats
    report.w := e.w.stats
    report.y := e.y.stats
    report.z := e.z.stats }

/-- The engine after a subcycle of its phase. -/
def after (e : Engine) (plan : Plan) : Outcome Failure Engine :=
  match e.phase with
  | .idle => .ok e
  | .starting step =>
    if step + 1 = 3 * e.geometry.width then .ok { e with phase := .computing 0 0 0 }
    else .ok { e with phase := .starting (step + 1) }
  | .computing hyper cycle sub => e.afterComputing plan hyper cycle sub
  | .storing cycle sub queue => .ok (e.afterStoring plan cycle sub queue)
  | .finished =>
    match checkStreams [e.x, e.w, e.y, e.z] with
    | .ok () => .ok e.retire
    | .error failure => .error (.error failure)

/-- One subcycle. It says what it cost. -/
def subcycle [Port π] : Run Failure (Engine × π) Nat := do
  let (e, _) ← get
  match e.plan with
  | none => fail (.job .absent)
  | some plan =>
    let latency ←
      match payload? e.geometry plan e.tile e.phase with
      | some payload => perform plan payload
      | none => pure 0
    let (e, port) ← get
    let e ← e.after plan
    set (e, port)
    return latency

/-- Counts cycles of the job. -/
def countCycles (latency : Nat) : Run Failure (Engine × π) Unit := do
  let (e, port) ← get
  let cycles ← Word.add e.report.cycles latency
  set ({ e with report.cycles := cycles }, port)

/-- Runs a subcycle and arms what comes after it. One subcycle is enough: if it takes no time,
nothing is left to do (`mainLoop_eq`). -/
def mainLoop [Port π] : Run Failure (Engine × π) Unit := do
  if (← get).1.phase = .idle then armEvent .completion 0
  else
    let latency ← subcycle
    countCycles latency
    if (← get).1.phase = .idle then armEvent .completion 0 else armEvent .mainLoop latency

/-- Runs the armed event. The completion of a job yields its report. -/
def deliver [Port π] (event : Event) : Run Failure (Engine × π) (Option JobReport) := do
  let (e, port) ← get
  if e.pending.map (·.1) ≠ some event then
    fail (.unexpectedEvent event (e.pending.map (·.1)))
  set ({ e with pending := none }, port)
  match event with
  | .mainLoop =>
    mainLoop
    return none
  | .completion => return some e.report

end Engine

end SystolicGemm
