import SystolicGemm.Element
import SystolicGemm.Geometry
import SystolicGemm.Job.Layout
import SystolicGemm.Settings.Setting
import SystolicGemm.Toml.Printer

/-!
# The configuration

What a run of the simulator needs to know, in four sections. It is read from the
built-in defaults, a file and the environment, in this order, and options of the
command line go on top.
-/

namespace SystolicGemm

/-- The array. -/
structure ArraySection where
  height : Nat
  pipeRegs : Nat
  format : Element
  deriving DecidableEq, Repr

/-- The memory. -/
structure MemorySection where
  base : UInt32
  size : UInt32
  latency : Nat
  deriving DecidableEq, Repr

/-- The problem. An address that is not given follows the packed layout. -/
structure JobSection where
  m : Nat
  n : Nat
  k : Nat
  seed : Nat
  guardBytes : UInt32
  xAddr : Option UInt32
  wAddr : Option UInt32
  yAddr : Option UInt32
  zAddr : Option UInt32
  deriving DecidableEq, Repr

/-- The run itself. -/
structure RunSection where
  quiet : Bool
  stepMode : Bool
  traceFile : String
  maxSteps : Nat
  deriving DecidableEq, Repr

/-- A configuration. -/
structure Config where
  array : ArraySection
  memory : MemorySection
  job : JobSection
  run : RunSection
  deriving DecidableEq, Repr

/-- Options of the command line. -/
structure Overrides where
  quiet : Bool
  step : Bool
  traceFile : Option String
  height : Option Nat
  pipeRegs : Option Nat
  format : Option Element
  m : Option Nat
  n : Option Nat
  k : Option Nat
  seed : Option Nat
  latency : Option Nat
  deriving DecidableEq, Repr

/-- Why a configuration is refused. -/
inductive ConfigFlaw where
  | unreadable
  | geometry (flaw : GeometryFlaw)
  | layout (shape : Shape) (base : UInt32)
  | emptyDimension (shape : Shape)
  | tileCounts
  | streamLengths
  | memory (base size : UInt32)
  | buffer (matrix : String) (addr finish memoryBase memoryEnd : Nat)
  | unrenderable
  deriving DecidableEq, Repr

/-- A number in hexadecimal, marked as such. -/
def ConfigFlaw.hex (n : Nat) : String := "0x" ++ String.ofList (Nat.toDigits 16 n)

/-- The flaw in words. -/
def ConfigFlaw.message : ConfigFlaw → String
  | unreadable => "failed to load configuration"
  | geometry flaw => "invalid array geometry: " ++ flaw.message
  | layout shape base =>
    s!"{shape.m}x{shape.n}x{shape.k} job starting at {hex base.toNat} " ++
      "does not fit a 32-bit address space"
  | emptyDimension shape =>
    s!"job dimensions must be non-zero, got {shape.m}x{shape.n}x{shape.k}"
  | tileCounts => "tile counts do not fit the 16-bit iteration fields"
  | streamLengths => "stream lengths do not fit the 32-bit length registers"
  | memory base size =>
    s!"memory {hex base.toNat}+{hex size.toNat} does not fit a 32-bit address space"
  | buffer matrix addr finish memoryBase memoryEnd =>
    s!"{matrix} buffer {hex addr}..{hex finish} lies outside memory " ++
      s!"{hex memoryBase}..{hex memoryEnd}"
  | unrenderable => "cannot render configuration: out-of-range value for u64 type"

namespace Config

/-- The built-in configuration. -/
def builtIn : Config where
  array := ⟨4, 3, .fp16⟩
  memory := ⟨0x10000000, 0x100000, 0⟩
  job := ⟨24, 30, 26, 42, 0, none, none, none, none⟩
  run := ⟨false, false, "", 1000000⟩

/-- The prefix of variables of the environment, in lower case. -/
def variablePrefix : String := "gemm_"

/-! ## Sections as fields -/

/-- The fields of a configuration that are set, section by section. -/
def sections (c : Config) : List (String × List (String × Toml.Field)) :=
  let addr (name : String) (a : Option UInt32) : List (String × Toml.Field) :=
    match a with
    | some a => [(name, .natural a.toNat)]
    | none => []
  [("accelerator", [
      ("array_height", .natural c.array.height),
      ("pipe_regs", .natural c.array.pipeRegs),
      ("format", .string c.array.format.name)]),
    ("memory", [
      ("base", .natural c.memory.base.toNat),
      ("size", .natural c.memory.size.toNat),
      ("latency", .natural c.memory.latency)]),
    ("job", [
      ("m", .natural c.job.m),
      ("n", .natural c.job.n),
      ("k", .natural c.job.k),
      ("seed", .natural c.job.seed),
      ("guard_bytes", .natural c.job.guardBytes.toNat)]
      ++ addr "x_addr" c.job.xAddr ++ addr "w_addr" c.job.wAddr
      ++ addr "y_addr" c.job.yAddr ++ addr "z_addr" c.job.zAddr),
    ("simulation", [
      ("quiet", .bool c.run.quiet),
      ("step_mode", .bool c.run.stepMode),
      ("trace_file", .string c.run.traceFile),
      ("max_steps", .natural c.run.maxSteps)])]

/-- The names of all fields, section by section. -/
def fieldNames : List (String × List String) :=
  let all : Config :=
    { builtIn with job := { builtIn.job with
        xAddr := some 0, wAddr := some 0, yAddr := some 0, zAddr := some 0 } }
  all.sections.map fun (name, fields) => (name, fields.map (·.1))

/-- The variables of the environment that hold a field, in capitals. -/
def variableNames : List String :=
  fieldNames.flatMap fun (name, keys) =>
    keys.map fun key => (variablePrefix ++ name ++ "__" ++ key).map Char.toUpper

/-- The setting of a field. -/
def settingOf : Toml.Field → Setting
  | .natural n => .integer n
  | .bool b => .bool b
  | .string s => .text s

/-- The configuration as a layer of settings. -/
def settings (c : Config) : Setting :=
  .table (c.sections.map fun (name, fields) =>
    (name, .table (fields.map fun (key, field) => (key, settingOf field))))

/-- The configuration as a TOML document. -/
def toToml (c : Config) : Outcome ConfigFlaw String := do
  if c.sections.all fun (_, fields) => fields.all fun (_, field) => field.isWritable then
    Toml.renderSections c.sections
  else fail .unrenderable

/-! ## Reading -/

/-- An element format: by name, or as the only name of a table. -/
def format? : Setting → Option Element
  | .text s => (Element.ofName s).toOption
  | .table [(name, _)] => (Element.ofName name).toOption
  | _ => none

/-- The configuration that settings give. -/
def ofSettings (s : Setting) : Option Config := do
  let section? (name : String) : Option (String → Option Setting) := do
    (← Setting.find? s.entries name).fields? (← fieldNames.lookup name)
  let array ← section? "accelerator"
  let memory ← section? "memory"
  let job ← section? "job"
  let run ← section? "simulation"
  let addr (name : String) := Setting.optional (job name) Setting.word32?
  return {
    array := {
      height := ← (← array "array_height").word?
      pipeRegs := ← (← array "pipe_regs").word?
      format := ← format? (← array "format") }
    memory := {
      base := ← (← memory "base").word32?
      size := ← (← memory "size").word32?
      latency := ← Setting.orDefault (memory "latency") 0 Setting.word? }
    job := {
      m := ← (← job "m").word?
      n := ← (← job "n").word?
      k := ← (← job "k").word?
      seed := ← Setting.orDefault (job "seed") 0 Setting.word?
      guardBytes := ← Setting.orDefault (job "guard_bytes") 0 Setting.word32?
      xAddr := ← addr "x_addr"
      wAddr := ← addr "w_addr"
      yAddr := ← addr "y_addr"
      zAddr := ← addr "z_addr" }
    run := {
      quiet := ← Setting.orDefault (run "quiet") false Setting.bool?
      stepMode := ← Setting.orDefault (run "step_mode") false Setting.bool?
      traceFile := ← Setting.orDefault (run "trace_file") "" Setting.text?
      maxSteps := ← Setting.orDefault (run "max_steps") 1000000 Setting.word? } }

/-- What a configuration file holds. -/
inductive File where
  | none
  | missing
  | text (s : String)
  deriving DecidableEq, Repr

/-- The settings of a file on top of others. -/
def addFile (s : Setting) : File → Outcome ConfigFlaw Setting
  | .none => return s
  | .missing => fail .unreadable
  | .text t =>
    match Toml.parse t with
    | some entries => s.addFile entries
    | none => fail .unreadable

/-- The settings of the environment on top of others. -/
def addEnvironment (s : Setting) (environment : List (String × String)) : Checked Setting :=
  environment.foldlM (fun s (name, value) => s.addVariable variablePrefix name value) s

/-- Loads the configuration of a file and the environment. -/
def load (file : File) (environment : List (String × String)) : Outcome ConfigFlaw Config := do
  let s ← addEnvironment (← addFile builtIn.settings file) environment
  match ofSettings s with
  | some c => return c
  | none => fail .unreadable

/-- The configuration with options of the command line on top. -/
def override (c : Config) (o : Overrides) : Config where
  array := {
    height := o.height.getD c.array.height
    pipeRegs := o.pipeRegs.getD c.array.pipeRegs
    format := o.format.getD c.array.format }
  memory := { c.memory with latency := o.latency.getD c.memory.latency }
  job := { c.job with
    m := o.m.getD c.job.m
    n := o.n.getD c.job.n
    k := o.k.getD c.job.k
    seed := o.seed.getD c.job.seed }
  run := { c.run with
    quiet := o.quiet || c.run.quiet
    stepMode := o.step || c.run.stepMode
    traceFile := o.traceFile.getD c.run.traceFile }

/-! ## What a configuration describes -/

/-- The array as it is configured. -/
def rawGeometry (c : Config) : Geometry := ⟨c.array.height, c.array.pipeRegs, c.array.format⟩

/-- The array, if there can be one. -/
def geometry (c : Config) : Outcome ConfigFlaw Geometry :=
  match c.rawGeometry.validate with
  | .ok () => .ok c.rawGeometry
  | .error (.trap t) => .error (.trap t)
  | .error (.error flaw) => .error (.error (.geometry flaw))

/-- The problem. -/
def shape (c : Config) : Shape := ⟨c.job.m, c.job.n, c.job.k⟩

/-- Where the matrices lie: at the given addresses, else packed from the base of
the memory on. -/
def layout (c : Config) : Outcome ConfigFlaw Layout := do
  match ← Layout.packed c.memory.base c.shape c.array.format.bytes c.job.guardBytes with
  | none => fail (.layout c.shape c.memory.base)
  | some packed =>
    return { packed with
      xAddr := c.job.xAddr.getD packed.xAddr
      wAddr := c.job.wAddr.getD packed.wAddr
      yAddr := c.job.yAddr.getD packed.yAddr
      zAddr := c.job.zAddr.getD packed.zAddr }

/-- The path of the trace file, if there is one. -/
def traceFile? (c : Config) : Option String :=
  if c.run.traceFile.isEmpty then none else some c.run.traceFile

/-! ## Validation -/

/-- The number of tiles of width `l` that cover `a` elements. -/
def tilesOver (a l : Nat) : Nat := a / l + if a % l = 0 then 0 else 1

/-- Fails at the first matrix that leaves the memory. -/
def checkBuffers (base finish : Nat) : List (String × UInt32 × UInt32 × Nat) →
    Outcome ConfigFlaw Unit
  | [] => return
  | (matrix, addr, pitch, rows) :: rest => do
    let matrixEnd ← Word.add addr.toNat (← Word.mul pitch.toNat rows)
    if addr.toNat < base || finish < matrixEnd then
      fail (.buffer matrix addr.toNat matrixEnd base finish)
    checkBuffers base finish rest

/-- Accepts a configuration whose job the accelerator can run. -/
def validate (c : Config) : Outcome ConfigFlaw Unit := do
  let g ← c.geometry
  let shape := c.shape
  if shape.m = 0 || shape.n = 0 || shape.k = 0 then
    fail (.emptyDimension shape)
  let l := g.width
  let rows := tilesOver shape.m l
  let cols := tilesOver shape.n l
  let wCols := tilesOver shape.k l
  if [rows, cols, wCols].any (0xFFFF < ·) then
    fail .tileCounts
  let xBeats ← Word.mul (← Word.mul l cols) rows
  let wBeats ← Word.mul (← Word.mul shape.n wCols) rows
  let yzBeats ← Word.mul (← Word.mul l wCols) rows
  if [xBeats, wBeats, yzBeats].any (Word.limit32 ≤ ·) then
    fail .streamLengths
  let base := c.memory.base.toNat
  let finish := base + c.memory.size.toNat
  if c.memory.size = 0 || Word.limit32 < finish then
    fail (.memory c.memory.base c.memory.size)
  let layout ← c.layout
  checkBuffers base finish [
    ("x", layout.xAddr, layout.xPitch, shape.m),
    ("w", layout.wAddr, layout.wPitch, shape.n),
    ("y", layout.yAddr, layout.yzPitch, shape.m),
    ("z", layout.zAddr, layout.yzPitch, shape.m)]

end Config

end SystolicGemm
