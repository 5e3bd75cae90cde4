import SystolicGemm.Word

/-!
# Ring cursors

A cursor over the slots of a ring. A ring of no slots can be built and reset;
asking it for a slot traps, since that addresses a buffer that nobody allocated.
-/

namespace SystolicGemm

/-- A position in a ring of `capacity` slots. -/
structure Ring where
  pos : Nat
  capacity : Nat
  deriving DecidableEq, Repr, Inhabited

namespace Ring

/-- The first slot of a ring. -/
def ofCapacity (capacity : Nat) : Ring := ⟨0, capacity⟩

/-- The slot `delta` places ahead. -/
def offset (r : Ring) (delta : Nat) : Checked Nat :=
  if r.capacity = 0 then .error .emptyRing
  else return (← Word.add r.pos delta) % r.capacity

/-- The ring moved `delta` slots ahead. -/
def skip (r : Ring) (delta : Nat) : Checked Ring :=
  return { r with pos := ← r.offset delta }

/-- The current slot, and the ring moved past it. -/
def advance (r : Ring) : Checked (Nat × Ring) :=
  return (r.pos, ← r.skip 1)

/-- The ring back at its first slot. -/
def reset (r : Ring) : Ring := { r with pos := 0 }

theorem offset_eq_ok_iff {r : Ring} {delta p : Nat} :
    r.offset delta = .ok p ↔
      r.capacity ≠ 0 ∧ r.pos + delta < Word.limit ∧ p = (r.pos + delta) % r.capacity := by
  unfold offset
  split
  · next h => simp [h]
  · next h =>
    cases hs : Word.add r.pos delta with
    | ok s =>
      obtain ⟨hlt, rfl⟩ := Word.add_eq_ok_iff.mp hs
      simp [h, hlt, bind, Except.bind, pure, Except.pure, eq_comm]
    | error t =>
      have hlt : ¬ r.pos + delta < Word.limit := fun hlt => by
        rw [Word.add_eq_ok_iff.mpr ⟨hlt, rfl⟩] at hs
        cases hs
      simp [hlt, bind, Except.bind]

end Ring

end SystolicGemm
