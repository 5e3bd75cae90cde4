import SystolicGemm.Decimal.Text
import SystolicGemm.Golden.Sampler
import SystolicGemm.Job.Layout
import SystolicGemm.Element

/-!
# The reference product

Operands drawn from a seed, `Z = Y + X * W` in double precision, and the check
of a result against it. The tolerance of an element scales with its magnitude,
the sum of the absolute values of what was added up.
-/

namespace SystolicGemm

/-- The operands of a problem, row by row. -/
structure Operands where
  x : Array Single
  w : Array Single
  y : Array Single
  deriving DecidableEq

namespace Operands

/-- `count` quarters between minus two and two, as the format holds them. -/
def draw (e : Element) : (count : Nat) → Sampler → List Single → List Single × Sampler
  | 0, s, drawn => (drawn.reverse, s)
  | count + 1, s, drawn =>
    let (v, s) := s.step
    let value := Binary.roundFinite .single (decide (v < 0)) v.natAbs (-2)
    draw e count s (e.quantize value :: drawn)

/-- The size of a matrix, as far as it can be held. -/
def area (rows cols : Nat) : Checked Nat := do
  let count ← Word.mul rows cols
  let _ ← Word.capacity (4 * count)
  return count

/-- The operands of a seed: first all of X, then W, then Y. -/
def random (shape : Shape) (e : Element) (seed : UInt64) : Checked Operands := do
  let (x, s) := draw e (← area shape.m shape.n) (.ofSeed seed) []
  let (w, s) := draw e (← area shape.n shape.k) s []
  let (y, _) := draw e (← area shape.m shape.k) s []
  return ⟨x.toArray, w.toArray, y.toArray⟩

/-- An element of a matrix in double precision, which holds it exactly. -/
def wide (values : Array Single) (i : Nat) : Checked Double :=
  match values[i]? with
  | some v => .ok (v.convert .double)
  | none => .error .outOfRange

/-- Adds `count` products of row `i` and column `j` from position `p` on to a sum and
their absolute values to its magnitude. -/
def contract (ops : Operands) (shape : Shape) (i j : Nat) :
    (count p : Nat) → (sum magnitude : Double) → Checked (Double × Double)
  | 0, _, sum, magnitude => .ok (sum, magnitude)
  | count + 1, p, sum, magnitude => do
    let x ← wide ops.x (i * shape.n + p)
    let w ← wide ops.w (p * shape.k + j)
    contract ops shape i j count (p + 1) (sum + x * w) (magnitude + (x * w).abs)

/-- One element of the reference and its magnitude. -/
def cell (ops : Operands) (shape : Shape) (i j : Nat) : Checked (Double × Double) := do
  let y ← wide ops.y (i * shape.k + j)
  ops.contract shape i j shape.n 0 y y.abs

/-- Puts `count` elements of the reference from index `i` on behind others. -/
def cellsFrom (ops : Operands) (shape : Shape) :
    (count i : Nat) → (cells : Array (Double × Double)) → Checked (Array (Double × Double))
  | 0, _, cells => .ok cells
  | count + 1, i, cells => do
    let c ← ops.cell shape (i / shape.k) (i % shape.k)
    cellsFrom ops shape count (i + 1) (cells.push c)

/-- The reference and its magnitudes, row by row. -/
def reference (ops : Operands) (shape : Shape) : Checked (List (Double × Double)) := do
  let count ← Word.mul shape.m shape.k
  let _ ← Word.capacity (8 * count)
  let cells ← ops.cellsFrom shape count 0 #[]
  return cells.toList

end Operands

/-- A result element that is not close enough to the reference. -/
structure Mismatch where
  row : Nat
  col : Nat
  got : Single
  expected : Double
  tolerance : Double
  deriving DecidableEq

/-- The mismatch in words. -/
def Mismatch.message (m : Mismatch) : String :=
  let got := Decimal.text .plain m.got
  let expected := Decimal.text .plain m.expected
  let tolerance := Decimal.text .plain m.tolerance
  s!"z[{m.row}][{m.col}] = {got} but reference is {expected} (tolerance {tolerance})"

namespace Operands

/-- Compares the elements from index `i` on with the reference, as far as both
go. The result is the largest error, starting from `worst`. -/
def compare (shape : Shape) (e : Element) :
    (i : Nat) → (worst : Double) → List Single → List (Double × Double) →
      Except Mismatch Double
  | i, worst, got :: z, (expected, magnitude) :: reference =>
    let error := (got.convert .double - expected).abs
    let tolerance := e.tolerance shape.n magnitude
    if tolerance.lt error || got.isNaN then
      .error ⟨i / shape.k, i % shape.k, got, expected, tolerance⟩
    else compare shape e (i + 1) (worst.max error) z reference
  | _, worst, _, _ => .ok worst

/-- Checks a result against the reference: the largest absolute error, or the
first element whose error is not tolerated. -/
def check (ops : Operands) (shape : Shape) (e : Element) (z : List Single) :
    Outcome Mismatch Double := do
  let reference ← ops.reference shape
  match compare shape e 0 (.zero .double) z reference with
  | .ok worst => return worst
  | .error mismatch => fail mismatch

end Operands

end SystolicGemm
