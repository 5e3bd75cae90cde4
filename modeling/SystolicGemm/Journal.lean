/-!
# Journals

What a run writes, line by line: its results, its diagnostics, and a trace of
the messages. The lines of all three stay in the order in which they were
written.

A diagnostic has a level, and a filter says up to which level they are written.
A filter is read from directives such as `info` or `gemm_accel=debug`. Those
that name a target hold for it alone, and among those that hold for a target the
one with the longest name decides.
-/

namespace SystolicGemm

/-- How much a diagnostic matters, or how much is written of them. -/
inductive LogLevel where
  | off
  | error
  | warn
  | info
  | debug
  | trace
  deriving DecidableEq, Repr

namespace LogLevel

/-- The levels, from the fewest diagnostics to the most. -/
def all : List LogLevel := [off, error, warn, info, debug, trace]

/-- The place among the levels. -/
def rank : LogLevel → Nat
  | off => 0
  | error => 1
  | warn => 2
  | info => 3
  | debug => 4
  | trace => 5

/-- Whether diagnostics of a level are written up to this one. -/
def admits (limit level : LogLevel) : Bool := level.rank ≤ limit.rank

/-- The level in directives, in lower case. -/
def name : LogLevel → String
  | off => "off"
  | error => "error"
  | warn => "warn"
  | info => "info"
  | debug => "debug"
  | trace => "trace"

/-- The level in front of a diagnostic, five characters wide. -/
def tag : LogLevel → String
  | off => "OFF  "
  | error => "ERROR"
  | warn => "WARN "
  | info => "INFO "
  | debug => "DEBUG"
  | trace => "TRACE"

/-- The level with a name in any case. -/
def ofName (s : String) : Option LogLevel := all.find? (·.name == s.map Char.toLower)

/-- The higher of two levels. -/
def max (a b : LogLevel) : LogLevel := if a.rank ≤ b.rank then b else a

end LogLevel

/-- A diagnostic and its level. -/
structure Diagnostic where
  level : LogLevel
  text : String
  deriving DecidableEq, Repr

/-- The diagnostic as it is written. -/
def Diagnostic.line (d : Diagnostic) : String := s!"[{d.level.tag}] {d.text}"

/-- Where a line goes. -/
inductive Channel where
  | output
  | diagnostics
  /-- The trace file with the given path. -/
  | trace (path : String)
  deriving DecidableEq, Repr

/-- What has been written, each line with its channel. -/
abbrev Journal := Array (Channel × String)

namespace Journal

/-- The journal with lines added. -/
def write (j : Journal) (c : Channel) (lines : List String) : Journal :=
  lines.foldl (fun j line => j.push (c, line)) j

/-- The lines of a channel. -/
def lines (j : Journal) (c : Channel) : List String :=
  j.toList.filterMap fun (channel, line) => if channel = c then some line else none

/-- The text of a channel, every line ended. -/
def text (j : Journal) (c : Channel) : String :=
  String.join ((j.lines c).map (· ++ "\n"))

end Journal

/-! ## Filters -/

/-- Up to which level the diagnostics of a target are written. Without a name it
holds for all targets. -/
structure LogDirective where
  target : Option String
  level : LogLevel
  deriving DecidableEq, Repr

namespace LogDirective

/-- Reads a directive: a level, a target, or a target with its level. A target
alone has all its diagnostics written. The error is the text that is no level. -/
def parse (s : String) : Except String LogDirective :=
  match s.splitOn "=" with
  | [word] =>
    match LogLevel.ofName word with
    | some level => .ok ⟨none, level⟩
    | none => .ok ⟨some word, .trace⟩
  | [target, word] =>
    let word := word.trimAscii.toString
    if word.isEmpty then .ok ⟨some target, .trace⟩
    else
      match LogLevel.ofName word with
      | some level => .ok ⟨some target, level⟩
      | none => .error word
  | _ => .error s

/-- The directives with one added, in place of an earlier one for its target. -/
def insert (ds : List LogDirective) (d : LogDirective) : List LogDirective :=
  ds.filter (·.target ≠ d.target) ++ [d]

/-- Length of the target's name. -/
def weight (d : LogDirective) : Nat := (d.target.map String.length).getD 0

/-- Whether the directive holds for a target. -/
def holdsFor (d : LogDirective) (target : String) : Bool :=
  match d.target with
  | some word => target.startsWith word
  | none => true

end LogDirective

/-- Which diagnostics are written. -/
structure LogFilter where
  directives : List LogDirective
  deriving DecidableEq, Repr

namespace LogFilter

/-- The target of the accelerator and its bench. -/
def ownTarget : String := "gemm_accel"

/-- The filter of a level for all targets. -/
def upTo (level : LogLevel) : LogFilter := ⟨[⟨none, level⟩]⟩

/-- No diagnostics at all. -/
def silent : LogFilter := upTo .off

/-- Up to which level the diagnostics of a target are written. -/
def level (f : LogFilter) (target : String) : LogLevel :=
  let heavier (best : Option LogDirective) (d : LogDirective) : Option LogDirective :=
    match best with
    | some b => if b.weight ≤ d.weight then some d else best
    | none => some d
  match (f.directives.filter (·.holdsFor target)).foldl heavier none with
  | some d => d.level
  | none => .off

/-- The highest level that a directive asks for. -/
def highest (f : LogFilter) : LogLevel := (f.directives.map (·.level)).foldl LogLevel.max .off

/-- The diagnostics of a target that are written, as lines. -/
def admitted (f : LogFilter) (target : String) (ds : List Diagnostic) : List String :=
  let limit := f.level target
  (ds.filter (limit.admits ·.level)).map Diagnostic.line

/-- A complaint about a text that is no directive. -/
def complaint (s : String) : String := s!"warning: invalid logging spec '{s}', ignoring it"

/-- Reads directives separated by commas, with complaints about those that are
none. With no directive left only errors are written. A text after a slash is
not looked at. -/
def parse (spec : String) : LogFilter × List String :=
  let read (state : List LogDirective × List String) (word : String) :=
    if word.isEmpty then state
    else
      match LogDirective.parse word with
      | .ok d => (LogDirective.insert state.1 d, state.2)
      | .error text => (state.1, state.2 ++ [complaint text])
  match spec.splitOn "/" with
  | directives :: rest =>
    if rest.length ≤ 1 then
      let words := (directives.splitOn ",").map fun word => word.trimAscii.toString
      let (ds, complaints) := words.foldl read ([], [])
      (if ds.isEmpty then upTo .error else ⟨ds⟩, complaints)
    else (upTo .error, [complaint spec ++ " (too many '/'s)"])
  | [] => (upTo .error, [])

end LogFilter

end SystolicGemm
