import SystolicGemm.Decimal.Text
import SystolicGemm.Settings.Config

/-!
# Arguments

The arguments of the command line. A switch stands for itself and a parameter
takes a value: in the next argument, after an equals sign, or, behind its short
name, in the rest of the argument. Short names can share an argument.

Arguments are taken in order. The first that is wrong, or that asks for the
version or for help, decides. No option can be given twice.
-/

namespace SystolicGemm

/-- An option that stands for itself. -/
inductive Switch where
  | step
  | quiet
  | dumpConfig
  | help
  | version
  deriving DecidableEq, Repr

/-- An option that takes a value. -/
inductive Parameter where
  | config
  | traceFile
  | height
  | pipeRegs
  | format
  | m
  | n
  | k
  | seed
  | latency
  deriving DecidableEq, Repr

/-- An option of the command line. -/
inductive Flag where
  | switch (s : Switch)
  | parameter (p : Parameter)
  deriving DecidableEq, Repr

namespace Flag

/-- The option with a long name. -/
def ofLong : String → Option Flag
  | "step" => some (.switch .step)
  | "quiet" => some (.switch .quiet)
  | "dump-config" => some (.switch .dumpConfig)
  | "help" => some (.switch .help)
  | "version" => some (.switch .version)
  | "config" => some (.parameter .config)
  | "trace-file" => some (.parameter .traceFile)
  | "height" => some (.parameter .height)
  | "pipe-regs" => some (.parameter .pipeRegs)
  | "format" => some (.parameter .format)
  | "seed" => some (.parameter .seed)
  | "latency" => some (.parameter .latency)
  | _ => none

/-- The option with a short name. -/
def ofShort : Char → Option Flag
  | 's' => some (.switch .step)
  | 'q' => some (.switch .quiet)
  | 'h' => some (.switch .help)
  | 'V' => some (.switch .version)
  | 'c' => some (.parameter .config)
  | 'f' => some (.parameter .format)
  | 'm' => some (.parameter .m)
  | 'n' => some (.parameter .n)
  | 'k' => some (.parameter .k)
  | _ => none

end Flag

/-- What a run is asked to do. -/
structure Options where
  configFile : Option String
  dumpConfig : Bool
  overrides : Overrides
  deriving DecidableEq, Repr

/-- What is wrong with an argument. -/
inductive UsageFlaw where
  | unexpected (argument : String)
  | repeated (argument : String)
  | missingValue (argument : String)
  | invalidValue (value : String)
  deriving DecidableEq, Repr

/-- The flaw in words. -/
def UsageFlaw.message : UsageFlaw → String
  | unexpected argument => s!"unexpected argument '{argument}'"
  | repeated argument => s!"'{argument}' cannot be used more than once"
  | missingValue argument => s!"'{argument}' needs a value"
  | invalidValue value => s!"invalid value '{value}'"

/-- What the command line asks for. -/
inductive Invocation where
  | help
  | version
  | refused (flaw : UsageFlaw)
  | run (o : Options)
  deriving DecidableEq, Repr

namespace Options

/-- No options. -/
def none : Options :=
  ⟨.none, false, ⟨false, false, .none, .none, .none, .none, .none, .none, .none, .none, .none⟩⟩

/-- A 64-bit number. -/
def word (value : String) : Except Invocation Nat :=
  match Decimal.readNat value with
  | some n => if n < Word.limit then .ok n else .error (.refused (.invalidValue value))
  | .none => .error (.refused (.invalidValue value))

/-- An element format. -/
def element (value : String) : Except Invocation Element :=
  match Element.ofName value with
  | .ok e => .ok e
  | .error _ => .error (.refused (.invalidValue value))

/-- The path of a file that is to be read. -/
def path (value : String) : Except Invocation String :=
  if value.isEmpty then .error (.refused (.invalidValue value)) else .ok value

/-- A field that has not been set yet. -/
def once {α : Type} (argument : String) (field : Option α) (value : Except Invocation α) :
    Except Invocation (Option α) :=
  if field.isSome then .error (.refused (.repeated argument)) else some <$> value

/-- The options with a parameter set. -/
def set (o : Options) (argument : String) (p : Parameter) (value : String) :
    Except Invocation Options := do
  let v := o.overrides
  match p with
  | .config => return { o with configFile := ← once argument o.configFile (path value) }
  | .traceFile =>
    return { o with overrides.traceFile := ← once argument v.traceFile (.ok value) }
  | .height => return { o with overrides.height := ← once argument v.height (word value) }
  | .pipeRegs => return { o with overrides.pipeRegs := ← once argument v.pipeRegs (word value) }
  | .format => return { o with overrides.format := ← once argument v.format (element value) }
  | .m => return { o with overrides.m := ← once argument v.m (word value) }
  | .n => return { o with overrides.n := ← once argument v.n (word value) }
  | .k => return { o with overrides.k := ← once argument v.k (word value) }
  | .seed => return { o with overrides.seed := ← once argument v.seed (word value) }
  | .latency => return { o with overrides.latency := ← once argument v.latency (word value) }

/-- A switch that has not been set yet. -/
def toggle (argument : String) (field : Bool) : Except Invocation Bool :=
  if field then .error (.refused (.repeated argument)) else .ok true

/-- The options with a switch set. -/
def turnOn (o : Options) (argument : String) (s : Switch) : Except Invocation Options := do
  match s with
  | .step => return { o with overrides.step := ← toggle argument o.overrides.step }
  | .quiet => return { o with overrides.quiet := ← toggle argument o.overrides.quiet }
  | .dumpConfig => return { o with dumpConfig := ← toggle argument o.dumpConfig }
  | .help => throw .help
  | .version => throw .version

/-- Takes the short names of an argument. The last may be a parameter that waits
for its value. -/
def takeShort (argument : String) (o : Options) :
    List Char → Except Invocation (Options × Option Parameter)
  | [] => .ok (o, .none)
  | c :: cs =>
    match Flag.ofShort c, cs with
    | .none, _ => .error (.refused (.unexpected argument))
    | some (.switch s), cs => do takeShort argument (← o.turnOn argument s) cs
    | some (.parameter p), [] => .ok (o, some p)
    | some (.parameter p), '=' :: value => do
      return (← o.set argument p (String.ofList value), .none)
    | some (.parameter p), value => do return (← o.set argument p (String.ofList value), .none)

/-- Takes a long name, with the value behind an equals sign if there is one. -/
def takeLong (argument : String) (o : Options) (cs : List Char) :
    Except Invocation (Options × Option Parameter) := do
  let name := String.ofList (cs.takeWhile (· != '='))
  match Flag.ofLong name, cs.dropWhile (· != '=') with
  | some (.switch s), [] => return (← o.turnOn argument s, .none)
  | some (.parameter p), [] => return (o, some p)
  | some (.parameter p), _ :: value => return (← o.set argument p (String.ofList value), .none)
  | _, _ => throw (.refused (.unexpected argument))

/-- Takes an argument that is not the value of the one before. -/
def takeFlag (o : Options) (argument : String) : Except Invocation (Options × Option Parameter) :=
  match argument.toList with
  | '-' :: '-' :: cs => takeLong argument o cs
  | '-' :: c :: cs => takeShort argument o (c :: cs)
  | _ => .error (.refused (.unexpected argument))

/-- Whether an argument can be the value of the one before. -/
def isValue (argument : String) : Bool := argument == "-" || !argument.startsWith "-"

/-- Takes arguments in order. A parameter that waits for its value comes with
the argument that named it. After two dashes no more may follow. -/
def take (o : Options) : Option (Parameter × String) → List String → Except Invocation Options
  | .none, [] => .ok o
  | some (_, named), [] => .error (.refused (.missingValue named))
  | some (p, named), argument :: rest => do
    if isValue argument then take (← o.set named p argument) .none rest
    else throw (.refused (.missingValue named))
  | .none, argument :: rest => do
    if argument == "--" then
      match rest with
      | [] => return o
      | extra :: _ => throw (.refused (.unexpected extra))
    else
      let (o, waiting) ← o.takeFlag argument
      take o (waiting.map fun p => (p, argument)) rest

end Options

/-- What the arguments ask for. -/
def Invocation.parse (arguments : List String) : Invocation :=
  match Options.none.take none arguments with
  | .ok o => .run o
  | .error request => request

end SystolicGemm
