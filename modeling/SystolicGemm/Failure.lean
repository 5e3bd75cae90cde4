import SystolicGemm.Engine.Phase
import SystolicGemm.Job.Plan
import SystolicGemm.Memory.Port

/-!
# Failures of the accelerator

Everything the accelerator can answer instead of doing its work.
-/

namespace SystolicGemm

/-- Why the accelerator did not do what it was asked to. -/
inductive Failure where
  | geometry (flaw : GeometryFlaw)
  | job (flaw : JobFlaw)
  | busy
  | transaction (stream : Operand) (addr : Nat) (status : Status)
  | slotWidth (stream : Operand) (expected got : Nat)
  | continuationPending (event pending : Event)
  | unexpectedEvent (event : Event) (pending : Option Event)
  | streamIncomplete (stream : Operand) (done total : Nat)
  | portPoisoned
  deriving DecidableEq, Repr

namespace Failure

/-- A number in hexadecimal, marked as such. -/
def hex (n : Nat) : String := "0x" ++ String.ofList (Nat.toDigits 16 n)

/-- The failure in words. -/
def message : Failure → String
  | geometry flaw => "invalid array geometry: " ++ flaw.message
  | job flaw => "invalid job configuration: " ++ flaw.message
  | busy => "accelerator busy, trigger rejected"
  | transaction stream addr status =>
    s!"{stream.name} transaction at {hex addr} failed with status {status.name}"
  | slotWidth stream expected got =>
    s!"{stream.name} slot is {got} bytes, beat is {expected} bytes"
  | continuationPending event pending =>
    s!"{event.name} armed while {pending.name} is still pending"
  | unexpectedEvent event none => s!"{event.name} delivered but None was pending"
  | unexpectedEvent event (some pending) =>
    s!"{event.name} delivered but Some({pending.name}) was pending"
  | streamIncomplete stream done total =>
    s!"{stream.name} stream ended after {done} of {total} beats"
  | portPoisoned => "memory port lock poisoned"

/-- The failure that a flaw of the array leads to. -/
def liftGeometry {α : Type} : Outcome GeometryFlaw α → Outcome Failure α
  | .ok a => .ok a
  | .error (.trap t) => .error (.trap t)
  | .error (.error flaw) => .error (.error (.geometry flaw))

/-- The failure that a flaw of the job leads to. -/
def liftJob {α : Type} : Outcome JobFlaw α → Outcome Failure α
  | .ok a => .ok a
  | .error (.trap t) => .error (.trap t)
  | .error (.error flaw) => .error (.error (.job flaw))

end Failure

end SystolicGemm
