import SystolicGemm.Block
import SystolicGemm.Geometry
import SystolicGemm.Job.Plan
import SystolicGemm.Ring

/-!
# The tile store

The operand buffers of the array, and the multiply-accumulate kernel over them.

All buffers hold raw elements and are filled beat by beat, each through a cursor
of its own. W holds the rows of one tile, Y two tiles of which one is loaded
while the other is in use, Z one tile. X is a ring of columns: the chunks of a
row tile lie side by side, and the next row tile starts where the last one ends,
so that it can be loaded before its predecessor is used up.
-/

namespace SystolicGemm

/-- Where the next beat of X goes: rows first, then chunks, then row tiles. -/
structure XCursor where
  row : Ring
  chunk : Ring
  /-- First column of the row tile. -/
  colBase : Nat
  deriving DecidableEq, Repr, Inhabited

/-- A beat's place in a buffer. -/
structure Slot where
  operand : Operand
  start : Nat
  size : Nat
  deriving DecidableEq, Repr

/-- The operand buffers and their cursors. -/
structure TileStore where
  geometry : Geometry
  allocated : Bool
  /-- Contraction length. -/
  n : Nat
  /-- Columns that fill up the last chunk of X. -/
  xPad : Nat
  /-- Rows that fill up the last tile of W. -/
  wPad : Nat
  /-- Columns of the X ring. -/
  xCols : Nat
  x : Block
  w : Block
  y : Block
  z : Block
  xCursor : XCursor
  wCursor : Ring
  yCursor : Ring
  zCursor : Ring
  /-- First column of the row tile in use. -/
  xOffset : Nat
  /-- First row of the Y tile in use. -/
  yOffset : Nat
  deriving Repr, Inhabited

namespace TileStore

/-- A cursor over no slots. -/
def noSlots : Ring := .ofCapacity 0

/-- A cursor over no slots of X. -/
def noXSlots : XCursor := ⟨noSlots, noSlots, 0⟩

/-- The store of an array, with no room for X and W yet. -/
def create (g : Geometry) : Checked TileStore := do
  let l ← g.checkedWidth
  let beat ← g.checkedBeatBytes
  let yRows ← Word.mul 2 l
  let yBytes ← Word.capacity (← Word.mul yRows beat)
  let zBytes ← Word.capacity (← Word.mul l beat)
  return {
    geometry := g
    allocated := false
    n := 0
    xPad := 0
    wPad := 0
    xCols := 0
    x := .zeros 0
    w := .zeros 0
    y := .zeros yBytes
    z := .zeros zBytes
    xCursor := noXSlots
    wCursor := noSlots
    yCursor := .ofCapacity yRows
    zCursor := .ofCapacity l
    xOffset := 0
    yOffset := 0 }

/-- The store with room for a contraction of length `n`, all cleared. -/
def alloc (s : TileStore) (n : Nat) (leftovers : Leftovers) : Checked TileStore := do
  let l := s.geometry.width
  let xPad ← Word.rem (← Word.sub l leftovers.xCol) l
  let wPad ← Word.rem (← Word.sub l leftovers.wRow) l
  let xCols ← Word.add (← Word.add n xPad) (2 * l)
  let wRows ← Word.add n wPad
  let wBytes ← Word.capacity (← Word.mul wRows s.geometry.beatBytes)
  let xBytes ← Word.capacity (← Word.mul (← Word.mul l xCols) s.geometry.elementBytes)
  return { s with
    allocated := true
    n, xPad, wPad, xCols
    x := .zeros xBytes
    w := .zeros wBytes
    y := s.y.clear
    z := s.z.clear
    xCursor := ⟨.ofCapacity l, .ofCapacity ((n + xPad) / l), 0⟩
    wCursor := .ofCapacity wRows
    yCursor := s.yCursor.reset
    zCursor := s.zCursor.reset
    xOffset := 0
    yOffset := 0 }

/-- The store without room for X and W. A store without any stays as it is. -/
def free (s : TileStore) : TileStore :=
  if s.allocated then
    { s with
      allocated := false
      x := .zeros 0
      w := .zeros 0
      y := s.y.clear
      z := s.z.clear
      xCursor := noXSlots
      wCursor := noSlots
      yCursor := s.yCursor.reset
      zCursor := s.zCursor.reset
      xOffset := 0
      yOffset := 0 }
  else s

/-- The buffer of an operand. -/
def buffer (s : TileStore) : Operand → Block
  | .x => s.x
  | .w => s.w
  | .y => s.y
  | .z => s.z

/-- The store with another buffer for an operand. -/
def setBuffer (s : TileStore) (o : Operand) (b : Block) : TileStore :=
  match o with
  | .x => { s with x := b }
  | .w => { s with w := b }
  | .y => { s with y := b }
  | .z => { s with z := b }

/-- A beat's place in a buffer, which has to hold it. -/
def slotAt (s : TileStore) (o : Operand) (start : Nat) : Checked Slot :=
  if start + s.geometry.beatBytes ≤ (s.buffer o).size then
    .ok ⟨o, start, s.geometry.beatBytes⟩
  else .error .outOfRange

/-- The bytes of a slot. -/
def read (s : TileStore) (slot : Slot) : Bytes := (s.buffer slot.operand).read slot.start slot.size

/-- The store with bytes at the beginning of a slot. -/
def fill (s : TileStore) (slot : Slot) (raw : Bytes) : TileStore :=
  s.setBuffer slot.operand ((s.buffer slot.operand).write slot.start (raw.take slot.size))

/-- Row and chunk of the next X slot. -/
def peekX (s : TileStore) : Nat × Nat := (s.xCursor.row.pos, s.xCursor.chunk.pos)

/-- The X cursor past a slot. -/
def nextX (s : TileStore) : Checked XCursor := do
  let c := s.xCursor
  let row ← c.row.skip 1
  if row.pos ≠ 0 then return { c with row }
  let chunk ← c.chunk.skip 1
  if chunk.pos ≠ 0 then return { c with row, chunk }
  return ⟨row, chunk, ← Word.rem (c.colBase + s.n + s.xPad) s.xCols⟩

/-- The next X slot, and the store past it. -/
def takeX (s : TileStore) : Checked (Slot × TileStore) := do
  let c := s.xCursor
  let col ← Word.rem (c.colBase + c.chunk.pos * s.geometry.width) s.xCols
  let xCursor ← s.nextX
  let slot ← s.slotAt .x ((c.row.pos * s.xCols + col) * s.geometry.elementBytes)
  return (slot, { s with xCursor })

/-- The next W slot, and the store past it. -/
def takeW (s : TileStore) : Checked (Slot × TileStore) := do
  let (row, wCursor) ← s.wCursor.advance
  return (← s.slotAt .w (row * s.geometry.beatBytes), { s with wCursor })

/-- The store past a W row that is only padding. -/
def skipW (s : TileStore) : Checked TileStore :=
  return { s with wCursor := ← s.wCursor.skip 1 }

/-- The next Y slot, and the store past it. -/
def takeY (s : TileStore) : Checked (Slot × TileStore) := do
  let (row, yCursor) ← s.yCursor.advance
  return (← s.slotAt .y (row * s.geometry.beatBytes), { s with yCursor })

/-- The next Z slot, and the store past it. -/
def takeZ (s : TileStore) : Checked (Slot × TileStore) := do
  let (row, zCursor) ← s.zCursor.advance
  return (← s.slotAt .z (row * s.geometry.beatBytes), { s with zCursor })

/-- The element with the given index in a buffer. -/
def element (s : TileStore) (o : Operand) (index : Nat) : Checked Single :=
  let e := s.geometry.format
  let start := index * e.bytes
  if start + e.bytes ≤ (s.buffer o).size then
    .ok (e.decode ((s.buffer o).read start e.bytes))
  else .error .outOfRange

/-- Row `i` of the X tile in use. -/
def xRow (s : TileStore) (i : Nat) : Checked (List Single) :=
  (List.range s.n).mapM fun k => do
    s.element .x (i * s.xCols + (← Word.rem (s.xOffset + k) s.xCols))

/-- Column `j` of the W tile. -/
def wCol (s : TileStore) (j : Nat) : Checked (List Single) :=
  (List.range s.n).mapM fun k => s.element .w (k * s.geometry.width + j)

/-- Row `i` of the Y tile in use. -/
def yRow (s : TileStore) (i : Nat) : Checked (List Single) :=
  (List.range s.geometry.width).mapM fun j =>
    s.element .y ((i + s.yOffset) * s.geometry.width + j)

/-- `y` and the products of two vectors accumulated in order. -/
def accumulate (e : Element) (y : Single) (xs ws : List Single) : Single :=
  (xs.zip ws).foldl (fun acc (x, w) => e.fma acc x w) y

/-- The Z tile, row by row. -/
def product (s : TileStore) : Checked (List (List Single)) := do
  let rows := List.range s.geometry.width
  let wCols ← rows.mapM s.wCol
  rows.mapM fun i => do
    let xs ← s.xRow i
    let ys ← s.yRow i
    return (ys.zip wCols).map fun (y, ws) => accumulate s.geometry.format y xs ws

/-- `Z = Y + X * W` over the tile in use. Y moves on to its other tile, and with
`retireX` X moves on to the next row tile. -/
def computeZ (s : TileStore) (retireX : Bool) : Checked TileStore := do
  let l := s.geometry.width
  let z := s.z.write 0 ((← s.product).flatten.flatMap s.geometry.format.encode)
  let yOffset ← Word.rem (s.yOffset + l) (2 * l)
  let xOffset ←
    if retireX then Word.rem (s.xOffset + s.n + s.xPad) s.xCols else pure s.xOffset
  return { s with z, yOffset, xOffset }

end TileStore

end SystolicGemm
