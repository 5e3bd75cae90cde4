import SystolicGemm.Bench.Basic
import SystolicGemm.Text.Backspace
import SystolicGemm.Text.Space

/-!
# The shell

Step mode runs a bench by commands, one a line: an empty line makes one step,
`si N` makes `N`, `c` goes on to the end, and `q` or the end of the input stops.
A line that is no command is answered and forgotten. Backspaces in a line take
effect before it is read.

Before every line the shell looks for the interrupt, and within a command after
every step, so that commands only cut a run into pieces.
-/

namespace SystolicGemm

/-- What the shell can be told to do. -/
inductive Command where
  /-- Make so many steps. -/
  | steps (n : Nat)
  /-- Run to the end. -/
  | proceed
  | quit
  deriving DecidableEq, Repr

/-- Why a text is no 32-bit number. -/
inductive NumberFlaw where
  | invalidDigit
  | tooLarge
  deriving DecidableEq, Repr

/-- The flaw in words. -/
def NumberFlaw.message : NumberFlaw → String
  | invalidDigit => "invalid digit found in string"
  | tooLarge => "number too large to fit in target type"

/-- Why a line is no command. -/
inductive CommandFlaw where
  | missingNumber
  | badNumber (text : String) (flaw : NumberFlaw)
  | noSteps
  | unknown (text : String)
  deriving DecidableEq, Repr

/-- The flaw in words. -/
def CommandFlaw.message : CommandFlaw → String
  | missingNumber => "'si' requires a number, e.g., 'si 100'"
  | badNumber text flaw => s!"invalid number '{text}': {flaw.message}"
  | noSteps => "step count must be greater than 0"
  | unknown text =>
    s!"unknown command '{text}'. Use Enter to step, 'q' to quit, 'c' to continue, " ++
      "or 'si 100' to step N times"

namespace Command

/-- Reads digits of a 32-bit number, `n` being the number so far. The first
character that is no digit or leads past the word decides. -/
def readDigits (n : Nat) : List Char → Except NumberFlaw Nat
  | [] => .ok n
  | c :: cs =>
    if c.isDigit then
      let n := 10 * n + (c.toNat - '0'.toNat)
      if n < Word.limit32 then readDigits n cs else .error .tooLarge
    else .error .invalidDigit

/-- Reads a 32-bit number, which may have a plus sign in front. -/
def readNumber : List Char → Except NumberFlaw Nat
  | [] | ['+'] => .error .invalidDigit
  | '+' :: cs => readDigits 0 cs
  | cs => readDigits 0 cs

/-- Reads a line without the white space at its ends. -/
def parseTrimmed : List Char → Except CommandFlaw Command
  | [] => .ok (.steps 1)
  | 's' :: 'i' :: cs =>
    let number := Text.trim cs
    if number = [] then .error .missingNumber
    else
      match readNumber number with
      | .ok 0 => .error .noSteps
      | .ok n => .ok (.steps n)
      | .error flaw => .error (.badNumber (String.ofList number) flaw)
  | ['q'] => .ok .quit
  | ['c'] => .ok .proceed
  | cs => .error (.unknown (String.ofList cs))

/-- Reads a line as it was typed. -/
def parse (line : String) : Outcome CommandFlaw Command := do
  let typed ← Text.applyBackspaces line.toList
  match parseTrimmed (Text.trim typed) with
  | .ok c => return c
  | .error flaw => fail flaw

end Command

namespace Bench

variable {π : Type}

/-- Writes a line. -/
def write (c : Channel) (line : String) : Run BenchError (Bench × π) Unit :=
  modify fun (b, port) => (b.say c line, port)

/-- The simulated time in words. -/
def clock (b : Bench) : String := Decimal.text .plain b.simulation.time

/-- Makes up to `n` steps, until the interrupt or until nothing is left to do. -/
def runSteps [Port π] : (n : Nat) → Run BenchError (Bench × π) Unit
  | 0 => pure ()
  | n + 1 => fun s =>
    match step s with
    | .error stop s => .error stop s
    | .ok false s => .ok () s
    | .ok true s =>
      match report s with
      | .error stop s => .error stop s
      | .ok (some _) s => .ok () s
      | .ok none s => runSteps n s

/-- Carries out a command. The result is there if it ends the session: the
report, or none if the session ends without the interrupt. -/
def obey [Port π] : Command → Run BenchError (Bench × π) (Option (Option JobReport))
  | .steps n => do
    runSteps n
    let (b, _) ← get
    write .output s!"t={b.clock} steps={b.steps}"
    return none
  | .proceed => some <$> run
  | .quit => return some none

/-- Opens a session. -/
def greet : Run BenchError (Bench × π) Unit :=
  write .output "Step mode - Enter to step, 'si N' to step N times, 'c' to continue, 'q' to quit"

/-- What the shell does before it reads a line: the interrupt ends the session. -/
def look : Run BenchError (Bench × π) (Option JobReport) := do
  let found ← report
  if found.isSome then
    write .output s!"job finished at t={(← get).1.clock}"
  return found

/-- Says that lines are read from something other than a terminal. -/
def readAside : Run BenchError (Bench × π) Unit :=
  modify fun (b, port) => (b.tellTo "" [⟨.debug, "stdin is not a tty"⟩], port)

/-- Takes a line, or the end of the input. -/
def attend [Port π] (line : Option (Outcome CommandFlaw Command)) :
    Run BenchError (Bench × π) (Option (Option JobReport)) := do
  readAside
  match line with
  | none => obey .quit
  | some (.ok c) => obey c
  | some (.error (.trap t)) => throw (.trap t)
  | some (.error (.error flaw)) =>
    write .diagnostics ("Error: " ++ flaw.message)
    return none

/-- The lines of an input, one after the other, until one ends the session. -/
def attendAll [Port π] :
    List (Outcome CommandFlaw Command) → Run BenchError (Bench × π) (Option JobReport)
  | [] => do
    match ← look with
    | some r => return some r
    | none => return (← attend none).join
  | line :: rest => do
    match ← look with
    | some r => return some r
    | none =>
      match ← attend (some line) with
      | some outcome => return outcome
      | none => attendAll rest

/-- A session over the lines of an input. -/
def session [Port π] (lines : List (Outcome CommandFlaw Command)) :
    Run BenchError (Bench × π) (Option JobReport) := do
  greet
  attendAll lines

end Bench

end SystolicGemm
