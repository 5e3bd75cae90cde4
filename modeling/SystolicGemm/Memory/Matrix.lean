import SystolicGemm.Memory.Flat

/-!
# Matrices in memory

A row-major matrix with a row pitch in bytes. Its cells need not touch: bytes
between the end of a row and the pitch belong to nobody.
-/

namespace SystolicGemm

/-- Where a matrix lies and how its elements are stored. -/
structure MatrixPlace where
  addr : Nat
  cols : Nat
  pitch : Nat
  format : Element
  deriving DecidableEq, Repr

namespace MatrixPlace

/-- The address of the element with row-major index `i`. -/
def cell (p : MatrixPlace) (i : Nat) : Checked Nat := do
  let row ← Word.div i p.cols
  let col ← Word.rem i p.cols
  let offset ← Word.add (← Word.mul row p.pitch) (← Word.mul col p.format.bytes)
  Word.add p.addr offset

end MatrixPlace

namespace Memory

/-- Writes the elements from index `i` on, in row-major order. It stops at the
first cell that does not lie inside, and says whether there was none. -/
def writeElements (p : MatrixPlace) : Nat → List Single → Memory → Checked (Bool × Memory)
  | _, [], m => .ok (true, m)
  | i, v :: vs, m => do
    match m.writeBytes? (← p.cell i) (p.format.encode v) with
    | some m => writeElements p (i + 1) vs m
    | none => return (false, m)

/-- Writes a matrix, as far as its cells lie inside. -/
def writeMatrix (m : Memory) (p : MatrixPlace) (values : List Single) : Checked (Bool × Memory) :=
  writeElements p 0 values m

/-- Reads `count` elements from index `i` on, if their cells lie inside. -/
def readElements (m : Memory) (p : MatrixPlace) : (count i : Nat) → Checked (Option (List Single))
  | 0, _ => .ok (some [])
  | count + 1, i => do
    match m.readBytes? (← p.cell i) p.format.bytes with
    | some raw =>
      match ← m.readElements p count (i + 1) with
      | some rest => return some (p.format.decode raw :: rest)
      | none => return none
    | none => return none

/-- Reads a matrix of `rows` rows, if its cells lie inside. -/
def readMatrix (m : Memory) (p : MatrixPlace) (rows : Nat) : Checked (Option (List Single)) := do
  let count ← Word.mul rows p.cols
  let _ ← Word.capacity (4 * count)
  m.readElements p count 0

end Memory

end SystolicGemm
