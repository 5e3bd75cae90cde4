/-!
# Machine words

Addresses, counters and lengths of the accelerator are 64-bit words, registers
are 32-bit words. Here they are natural numbers, and an operation whose exact
result does not fit its word *traps*: it has no value at all, rather than a
wrapped one.

A computation that can only trap is `Checked`. One that can also fail for a
reason of its own domain stops with a `Stop`, which keeps the two apart.
-/

namespace SystolicGemm

/-- Why a computation has no result. -/
inductive Trap where
  /-- The exact result does not fit the word. -/
  | overflow
  /-- A quotient by zero. -/
  | divisionByZero
  /-- A slot outside its buffer. -/
  | outOfRange
  /-- A cursor over no slots. -/
  | emptyRing
  /-- Two cursors that must agree have parted. -/
  | cursorMismatch
  /-- A cut inside a character. -/
  | brokenCharacter
  deriving DecidableEq, Repr

/-- A computation that yields a value or traps. -/
abbrev Checked (α : Type) := Except Trap α

/-- How a computation ends without a value: a trap, or an error of its domain. -/
inductive Stop (ε : Type) where
  | trap (t : Trap)
  | error (e : ε)
  deriving DecidableEq, Repr

/-- A computation that yields a value, fails with an `ε`, or traps. -/
abbrev Outcome (ε α : Type) := Except (Stop ε) α

/-- A computation on a state, which it leaves behind also when it stops. -/
abbrev Run (ε σ α : Type) := EStateM (Stop ε) σ α

instance {ε : Type} : MonadLift Checked (Except (Stop ε)) where
  monadLift
    | .ok a => .ok a
    | .error t => .error (.trap t)

instance {ε σ : Type} : MonadLift (Except (Stop ε)) (EStateM (Stop ε) σ) where
  monadLift
    | .ok a => pure a
    | .error stop => throw stop

instance {ε σ : Type} : MonadLift Checked (EStateM (Stop ε) σ) where
  monadLift
    | .ok a => pure a
    | .error t => throw (.trap t)

/-- Ends a computation with an error of its domain. -/
def fail {ε α : Type} {m : Type → Type} [MonadExcept (Stop ε) m] (e : ε) : m α :=
  throw (Stop.error e)

/-- Goes on under a condition, and fails without it. -/
def ensure {ε : Type} (c : Prop) [Decidable c] (e : ε) : Outcome ε Unit :=
  if c then .ok () else .error (.error e)

theorem ensure_eq_ok_iff {ε : Type} {c : Prop} [Decidable c] {e : ε} {u : Unit} :
    ensure c e = .ok u ↔ c := by
  unfold ensure
  split <;> simp_all

namespace Word

/-- The number of 64-bit words. -/
def limit : Nat := 0x10000000000000000

/-- The number of 32-bit words. -/
def limit32 : Nat := 0x100000000

/-- The number of 64-bit words whose highest bit is clear. -/
def halfLimit : Nat := 0x8000000000000000

/-- Whether an integer fits a 64-bit word with a sign. -/
def isSigned (n : Int) : Bool := -(halfLimit : Int) ≤ n && n < halfLimit

/-- The number itself, if it is below the bound. -/
def below (bound n : Nat) : Checked Nat :=
  if n < bound then .ok n else .error .overflow

/-- The sum of two 64-bit words. -/
def add (a b : Nat) : Checked Nat := below limit (a + b)

/-- The product of two 64-bit words. -/
def mul (a b : Nat) : Checked Nat := below limit (a * b)

/-- The difference of two words, which has to be non-negative. -/
def sub (a b : Nat) : Checked Nat :=
  if b ≤ a then .ok (a - b) else .error .overflow

/-- The quotient of two words. -/
def div (a b : Nat) : Checked Nat :=
  if b = 0 then .error .divisionByZero else .ok (a / b)

/-- The remainder of two words. -/
def rem (a b : Nat) : Checked Nat :=
  if b = 0 then .error .divisionByZero else .ok (a % b)

/-- The product of two 32-bit words. -/
def mul32 (a b : UInt32) : Checked UInt32 :=
  if a.toNat * b.toNat < limit32 then .ok (a * b) else .error .overflow

/-- The size of a buffer, which has to be below half the address space. -/
def capacity (n : Nat) : Checked Nat := below halfLimit n

/-- The low 32 bits of a number. -/
def low32 (n : Nat) : UInt32 := n.toUInt32

theorem below_eq_ok_iff {bound n v : Nat} : below bound n = .ok v ↔ n < bound ∧ v = n := by
  unfold below
  split <;> simp_all only [Except.ok.injEq, true_and, false_and, reduceCtorEq, eq_comm]

theorem add_eq_ok_iff {a b v : Nat} : add a b = .ok v ↔ a + b < limit ∧ v = a + b :=
  below_eq_ok_iff

theorem mul_eq_ok_iff {a b v : Nat} : mul a b = .ok v ↔ a * b < limit ∧ v = a * b :=
  below_eq_ok_iff

theorem sub_eq_ok_iff {a b v : Nat} : sub a b = .ok v ↔ b ≤ a ∧ v = a - b := by
  unfold sub
  split <;> simp_all only [Except.ok.injEq, true_and, false_and, reduceCtorEq, eq_comm]

theorem div_eq_ok_iff {a b v : Nat} : div a b = .ok v ↔ b ≠ 0 ∧ v = a / b := by
  unfold div
  split <;> simp_all [eq_comm]

theorem rem_eq_ok_iff {a b v : Nat} : rem a b = .ok v ↔ b ≠ 0 ∧ v = a % b := by
  unfold rem
  split <;> simp_all [eq_comm]

end Word

end SystolicGemm
