import SystolicGemm.Memory.Flat

/-!
# Gated memory

Flat memory behind a gate that may answer chosen beats itself, by their number
from the first one on. A beat that the gate answers takes no time and does not
reach the memory. A gate that an earlier user left poisoned serves nothing.
-/

namespace SystolicGemm

/-- Flat memory with answers of the gate's own. -/
structure GatedMemory where
  memory : Memory
  /-- Beats that have reached the gate. -/
  seen : Nat
  /-- The gate's answer to a beat, if it does not pass it on. -/
  verdict : Nat → Option Status
  poisoned : Bool

namespace GatedMemory

/-- A gate that passes every beat on. -/
def opened (m : Memory) : GatedMemory := ⟨m, 0, fun _ => none, false⟩

/-- Serves a beat, or answers it at the gate. -/
def access (r : Request) : EStateM PortFault GatedMemory Reply := fun g =>
  if g.poisoned then .error .poisoned g else
    let counted := { g with seen := g.seen + 1 }
    match g.verdict g.seen with
    | some status => .ok ⟨status, 0, r.data⟩ counted
    | none =>
      match Memory.access r g.memory with
      | .ok reply m => .ok reply { counted with memory := m }
      | .error fault m => .error fault { counted with memory := m }

instance : Port GatedMemory := ⟨access⟩

end GatedMemory

end SystolicGemm
