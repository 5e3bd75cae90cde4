import SystolicGemm.Engine.Basic

/-!
# Running a job

Delivering the armed events of an engine one after the other, until the report.
-/

namespace SystolicGemm.Engine

variable {π : Type}

/-- Delivers the armed event, if there is one: its delay, and the report if it
completes the job. -/
def wake [Port π] : Run Failure (Engine × π) (Option (Nat × Option JobReport)) := do
  match (← get).1.pending with
  | none => return none
  | some (event, latency) => return some (latency, ← deliver event)

/-- Delivers armed events until one completes the job, at most `fuel` of them:
the sum of their delays, and the report. -/
def drain [Port π] : (fuel : Nat) → Run Failure (Engine × π) (Nat × Option JobReport)
  | 0 => return (0, none)
  | fuel + 1 => do
    match ← wake with
    | none => return (0, none)
    | some (latency, some report) => return (latency, some report)
    | some (latency, none) =>
      let (rest, report) ← drain fuel
      return (latency + rest, report)

end SystolicGemm.Engine
