import SystolicGemm.Job.Image
import SystolicGemm.Stream.Pattern

/-!
# Job plans

An image is accepted if its fields agree with each other and with the array. Its
plan says how long the contraction is, how many tiles there are, and how each of
the four streams walks through memory.
-/

namespace SystolicGemm

/-- One of the four matrices. -/
inductive Operand where
  | x
  | w
  | y
  | z
  deriving DecidableEq, Repr, Inhabited

/-- The operand in messages. -/
def Operand.name : Operand → String
  | x => "x"
  | w => "w"
  | y => "y"
  | z => "z"

/-- Why an image is refused. -/
inductive JobFlaw where
  | noTiles (x w : TileCounts)
  | contractionTiles (wRows xCols : Nat)
  | contractionLeftovers (xCol wRow : Nat)
  | leftoverTooLarge (leftovers : Leftovers) (width : Nat)
  | wrongLength (matrix : String) (got expected : Nat)
  | pitchTooShort (matrix : String) (pitch rowBytes : Nat)
  /-- The engine has no job. -/
  | absent
  deriving DecidableEq, Repr

/-- The flaw in words. -/
def JobFlaw.message : JobFlaw → String
  | noTiles x w =>
    s!"tile counts must be non-zero (x_iters={x.describe}, w_iters={w.describe})"
  | contractionTiles wRows xCols =>
    s!"W row tiles ({wRows}) differ from X column tiles ({xCols})"
  | contractionLeftovers xCol wRow =>
    s!"X column leftover {xCol} differs from W row leftover {wRow}"
  | leftoverTooLarge leftovers width =>
    s!"leftovers {leftovers.describe} must be below the array width {width}"
  | wrongLength matrix got expected =>
    s!"{matrix} total length is {got}, tiling implies {expected}"
  | pitchTooShort matrix pitch rowBytes =>
    s!"{matrix} row pitch {pitch} is shorter than a row of {rowBytes} bytes"
  | absent => "no job configured"

/-- The tiling of an accepted job. -/
structure Plan where
  /-- Contraction length. -/
  n : Nat
  /-- Output columns. -/
  k : Nat
  colTiles : Nat
  wColTiles : Nat
  xRowTiles : Nat
  leftovers : Leftovers
  x : Pattern
  w : Pattern
  y : Pattern
  z : Pattern
  deriving DecidableEq, Repr, Inhabited

namespace Plan

/-- Output tiles. -/
def tiles (p : Plan) : Nat := p.xRowTiles * p.wColTiles

end Plan

namespace JobImage

/-- Valid elements in the final tile of an axis. -/
def finalTile (width leftover : Nat) : Nat := if leftover = 0 then width else leftover

/-- The elements along an axis of `tiles` tiles. -/
def extent (width tiles leftover : Nat) : Checked Nat := do
  Word.add (← Word.mul (tiles - 1) width) (finalTile width leftover)

/-- The product of three words. -/
def mul3 (a b c : Nat) : Checked Nat := do Word.mul (← Word.mul a b) c

/-- Fails at the first length that the tiling contradicts. -/
def checkLengths : List (String × UInt32 × Nat) → Outcome JobFlaw Unit
  | [] => return
  | (matrix, got, expected) :: rest => do
    ensure (got.toNat = expected) (JobFlaw.wrongLength matrix got.toNat expected)
    checkLengths rest

/-- Fails at the first pitch that does not hold a row. -/
def checkPitches : List (String × UInt32 × Nat) → Outcome JobFlaw Unit
  | [] => return
  | (matrix, pitch, rowBytes) :: rest => do
    ensure (rowBytes ≤ pitch.toNat) (JobFlaw.pitchTooShort matrix pitch.toNat rowBytes)
    checkPitches rest

/-- Checks the image against the array and derives its plan. -/
def validate (j : JobImage) (g : Geometry) : Outcome JobFlaw Plan := do
  let l ← g.checkedWidth
  let elem := g.elementBytes
  let xRowTiles := j.xTiles.rows.toNat
  let colTiles := j.xTiles.cols.toNat
  let wColTiles := j.wTiles.cols.toNat
  ensure (xRowTiles ≠ 0 ∧ colTiles ≠ 0 ∧ wColTiles ≠ 0) (JobFlaw.noTiles j.xTiles j.wTiles)
  ensure (j.wTiles.rows.toNat = colTiles)
    (JobFlaw.contractionTiles j.wTiles.rows.toNat colTiles)
  let lo := j.leftovers
  ensure (lo.xCol = lo.wRow) (JobFlaw.contractionLeftovers lo.xCol lo.wRow)
  ensure (∀ v ∈ [lo.xRow, lo.xCol, lo.wRow, lo.wCol], v < l) (JobFlaw.leftoverTooLarge lo l)
  let n ← extent l colTiles lo.xCol
  let k ← extent l wColTiles lo.wCol
  let xBeats ← mul3 l colTiles xRowTiles
  let wBeats ← mul3 n wColTiles xRowTiles
  let yzBeats ← mul3 l wColTiles xRowTiles
  checkLengths [("X", j.xLength, xBeats), ("W", j.wLength, wBeats),
    ("Y", j.yLength, yzBeats), ("Z", j.zLength, yzBeats)]
  let xRow ← Word.mul n elem
  let yzRow ← Word.mul k elem
  checkPitches [("X", j.xPitch, xRow), ("W", j.wPitch, yzRow), ("Y/Z", j.yzPitch, yzRow)]
  let step ← Word.mul l elem
  let xBlock ← Word.mul l j.xPitch.toNat
  let yzBlock ← Word.mul l j.yzPitch.toNat
  let edge := Word.low32 l
  let yz (base length : UInt32) : Pattern := {
    base := base.toNat
    total := length.toNat
    inner := ⟨edge, j.yzPitch.toNat⟩
    middle := ⟨j.wTiles.cols, step⟩
    outer := ⟨j.xTiles.rows, yzBlock⟩
    wrapStride := 0 }
  return {
    n, k, colTiles, wColTiles, xRowTiles
    leftovers := lo
    x := {
      base := j.xAddr.toNat
      total := j.xLength.toNat
      inner := ⟨edge, j.xPitch.toNat⟩
      middle := ⟨j.xTiles.cols, step⟩
      outer := ⟨j.xTiles.rows, xBlock⟩
      wrapStride := 0 }
    w := {
      base := j.wAddr.toNat
      total := j.wLength.toNat
      inner := ⟨Word.low32 n, j.wPitch.toNat⟩
      middle := ⟨j.wTiles.cols, step⟩
      outer := ⟨j.xTiles.rows, 0⟩
      wrapStride := 0 }
    y := yz j.yAddr j.yLength
    z := yz j.zAddr j.zLength }

end JobImage

end SystolicGemm
