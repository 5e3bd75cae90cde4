import Mathlib.Data.List.Basic
import SystolicGemm.Memory.Flat
import SystolicGemm.Proofs.Engine.Edge
import SystolicGemm.Proofs.TileStore.Reading

/-!
# Cells, beats and tiles

`Plan.gemm` is the product that a job is about, as a function of a memory. This
module follows it through the buffers: a beat carries the cells of its row and
tile column, with zeros past the edges, and a store that holds the beats of a
tile computes the rows of that tile. No time passes here; which beats are in the
buffers when a tile is computed is a matter of the schedule.
-/

namespace SystolicGemm

namespace Plan

/-- The value of a cell of an operand's matrix. -/
def cell (p : Plan) (g : Geometry) (m : Memory) (o : Operand) (r c : Nat) : Single :=
  g.format.decode ((List.range g.elementBytes).map fun i =>
    m.byte (p.rowAddr o r (c * g.elementBytes + i)))

/-- `Y + X * W` in row `r` and column `c`, for given cells. -/
def accumulated (p : Plan) (g : Geometry) (cells : Operand → Nat → Nat → Single) (r c : Nat) :
    Single :=
  (List.range p.n).foldl (fun acc k => g.format.fma acc (cells .x r k) (cells .w k c))
    (cells .y r c)

/-- **The product that a job is about**, accumulated in the order of the contraction. -/
def gemm (p : Plan) (g : Geometry) (m : Memory) (r c : Nat) : Single :=
  p.accumulated g (p.cell g m) r c

/-- Byte `i` of a row of a matrix, zero past the edges. -/
def paddedByte (p : Plan) (g : Geometry) (m : Memory) (o : Operand) (r i : Nat) : UInt8 :=
  if r < p.rows g.width o ∧ i < p.cols o * g.elementBytes then m.byte (p.rowAddr o r i) else 0

/-- The value of a cell as the array sees it, zero bytes past the edges. -/
def paddedCell (p : Plan) (g : Geometry) (m : Memory) (o : Operand) (r c : Nat) : Single :=
  g.format.decode ((List.range g.elementBytes).map fun i =>
    p.paddedByte g m o r (c * g.elementBytes + i))

/-- What beat `b` of an operand brings in. -/
def beatData (p : Plan) (g : Geometry) (m : Memory) (o : Operand) (b : Nat) : Bytes :=
  (List.range g.beatBytes).map fun i =>
    p.paddedByte g m o (p.row g.width o b) (p.column g.width o b * g.beatBytes + i)

/-- What beat `b` of Z takes out. -/
def beatResult (p : Plan) (g : Geometry) (m : Memory) (b : Nat) : Bytes :=
  (List.range g.width).flatMap fun j => g.format.encode
    (p.accumulated g (p.paddedCell g m) (p.row g.width .z b) (p.column g.width .z b * g.width + j))

/-- What beat `b` of an operand carries. -/
def carried (p : Plan) (g : Geometry) (m : Memory) : Operand → Nat → Bytes
  | .z => p.beatResult g m
  | .x => p.beatData g m .x
  | .w => p.beatData g m .w
  | .y => p.beatData g m .y

/-- What the slots of the buffers are to hold. Slot `j` of W is for row
`j % (colTiles * width)` of a tile, and rows past the contraction are padding. -/
def held (p : Plan) (g : Geometry) (m : Memory) : Operand → Nat → Option Bytes
  | .x, b => some (p.beatData g m .x b)
  | .w, j =>
    if j % (p.colTiles * g.width) < p.n then
      some (p.beatData g m .w (j / (p.colTiles * g.width) * p.n + j % (p.colTiles * g.width)))
    else none
  | .y, b => some (p.beatData g m .y b)
  | .z, b => some (p.beatResult g m b)

variable {p : Plan} {g : Geometry} {m : Memory}

@[simp] theorem length_beatData (o : Operand) (b : Nat) :
    (p.beatData g m o b).length = g.beatBytes := by
  simp [beatData]

@[simp] theorem length_beatResult (b : Nat) : (p.beatResult g m b).length = g.beatBytes :=
  length_flatMap_range _ (fun _ => Element.length_encode ..) _

@[simp] theorem length_carried (o : Operand) (b : Nat) :
    (p.carried g m o b).length = g.beatBytes := by
  cases o
  case z => exact length_beatResult b
  all_goals exact length_beatData _ b

/-- The padding does not show in the cells of the matrix. -/
theorem paddedCell_of_lt {o : Operand} {r c : Nat} (hr : r < p.rows g.width o)
    (hc : c < p.cols o) : p.paddedCell g m o r c = p.cell g m o r c := by
  have hbytes : ∀ i ∈ List.range g.elementBytes,
      p.paddedByte g m o r (c * g.elementBytes + i) =
        m.byte (p.rowAddr o r (c * g.elementBytes + i)) := fun i hi =>
    if_pos ⟨hr, rowMajor_lt hc (List.mem_range.mp hi)⟩
  rw [paddedCell, cell, List.map_congr_left hbytes]

/-- Nor does it show in what is computed from them. -/
theorem accumulated_padded {r c : Nat} (hr : r < p.m g.width) (hc : c < p.k) :
    p.accumulated g (p.paddedCell g m) r c = p.gemm g m r c := by
  have hy : p.paddedCell g m .y r c = p.cell g m .y r c := paddedCell_of_lt hr hc
  rw [gemm, accumulated, accumulated, hy]
  refine List.foldl_ext _ _ _ fun acc k hk => ?_
  have hk := List.mem_range.mp hk
  rw [paddedCell_of_lt (o := .x) hr hk, paddedCell_of_lt (o := .w) hk hc]

/-- An element of a beat is a cell of the matrix. -/
theorem decode_beatData (o : Operand) (b : Nat) {c : Nat} (hc : c < g.width) :
    g.elementOf (p.beatData g m o b) c =
      p.paddedCell g m o (p.row g.width o b) (p.column g.width o b * g.width + c) := by
  have hle := Nat.mul_le_mul_right g.elementBytes (Nat.succ_le_of_lt hc)
  rw [Nat.succ_mul] at hle
  have hbytes : ((p.beatData g m o b).drop (c * g.elementBytes)).take g.elementBytes =
      (List.range g.elementBytes).map fun i => p.paddedByte g m o (p.row g.width o b)
        ((p.column g.width o b * g.width + c) * g.elementBytes + i) := by
    apply List.ext_getElem
    · simp [Geometry.beatBytes]
      omega
    · intro i _ _
      simp [beatData, Geometry.beatBytes, Nat.add_mul, Nat.mul_assoc, Nat.add_assoc]
  rw [Geometry.elementOf, hbytes, paddedCell]

end Plan

namespace TileStore

/-- Where a tally has to be for its tile to be computed. -/
structure Ready (t : Tally) (g : Geometry) (p : Plan) (tile : Tile) : Prop where
  x : t.x = (tile.row + 1) * (p.colTiles * g.width)
  w : t.w = (p.index tile + 1) * (p.colTiles * g.width)
  y : t.y = (p.index tile + 1) * g.width
  retired : t.retired = tile.row
  computed : t.computed = p.index tile

variable {s : TileStore} {g : Geometry} {t : Tally} {p : Plan} {m : Memory} {tile : Tile}

variable (h : s.Resident g p.colTiles t (p.held g m)) (hs : s.At g p.n p.colTiles t)
  (hp : p.Sound g) (ht : Ready t g p tile)

include h hs ht

theorem Resident.y_eq (hcol : tile.col < p.wColTiles) {i j : Nat} (hi : i < g.width)
    (hj : j < g.width) :
    s.elementAt .y ((i + s.yOffset) * g.width + j) =
      p.paddedCell g m .y (tile.row * g.width + i) (tile.col * g.width + j) := by
  obtain ⟨hrow, hcolumn⟩ := p.row_column (o := .y) (r := tile.row) hi hcol
  have hy := ht.y
  rw [Nat.succ_mul] at hy
  rw [h.elementAt_y hs hj hi (by rw [ht.computed]; omega) (by rw [ht.computed]; omega) rfl,
    p.decode_beatData _ _ hj, ht.computed]
  exact congrArg₂ _ hrow (congrArg (· * g.width + j) hcolumn)

include hp

theorem Resident.x_eq {i k : Nat} (hi : i < g.width) (hk : k < p.n) :
    s.elementAt .x (i * s.xCols + (s.xOffset + k) % s.xCols) =
      p.paddedCell g m .x (tile.row * g.width + i) k := by
  have hkl : k % g.width < g.width := Nat.mod_lt _ hp.width_pos
  have hchunk : k / g.width < p.colTiles :=
    Nat.div_lt_of_lt_mul (Nat.mul_comm g.width _ ▸ Nat.lt_of_lt_of_le hk hp.n_le)
  obtain ⟨hrow, hcolumn⟩ := p.row_column (o := .x) (r := tile.row) hi hchunk
  have hx := ht.x
  have hle := Nat.mul_le_mul_right g.width (Nat.succ_le_of_lt hchunk)
  rw [Nat.succ_mul, ← Nat.mul_assoc] at hx
  rw [Nat.succ_mul] at hle
  -- column `k` of a row of tiles is column `k % width` of chunk `k / width`
  have helement := h.elementAt_x hs hkl (c := k / g.width) hi
    (by rw [ht.retired, Nat.add_mul]; omega)
    (by rw [ht.retired, Nat.add_mul, Nat.add_mul p.colTiles]; omega) rfl
  rw [Nat.div_add_mod', p.decode_beatData _ _ hkl, ht.retired] at helement
  exact helement.trans (congrArg₂ _ hrow ((congrArg (· * g.width + k % g.width) hcolumn).trans
    (Nat.div_add_mod' k g.width)))

theorem Resident.w_eq (hcol : tile.col < p.wColTiles) {j k : Nat} (hj : j < g.width)
    (hk : k < p.n) :
    s.elementAt .w (k * g.width + j) = p.paddedCell g m .w k (tile.col * g.width + j) := by
  have hrows : k < p.colTiles * g.width := Nat.lt_of_lt_of_le hk hp.n_le
  obtain ⟨hrow, hcolumn⟩ := p.row_column (o := .w) (r := tile.row) hk hcol
  obtain ⟨hdiv, hmod⟩ := div_mod_of_lt (q := p.index tile) hrows
  -- rows of the contraction are not padding
  have hheld : p.held g m .w (p.index tile * (p.colTiles * g.width) + k) =
      some (p.beatData g m .w (p.index tile * p.n + k)) := by
    rw [Plan.held, hmod, hdiv, if_pos hk]
  have hw := ht.w
  rw [Nat.succ_mul] at hw
  rw [h.elementAt_w hs hj hrows (by omega) (by omega) hheld, p.decode_beatData _ _ hj]
  exact congrArg₂ _ (hrow.trans (Nat.zero_add k)) (congrArg (· * g.width + j) hcolumn)

/-- **The rows that the kernel computes are those of the product.** -/
theorem Resident.rowBytes_eq (hcol : tile.col < p.wColTiles) {i : Nat} (hi : i < g.width) :
    s.rowBytes i = p.beatResult g m (p.index tile * g.width + i) := by
  obtain ⟨hrow, hcolumn⟩ := p.row_column (o := .z) (r := tile.row) hi hcol
  have hrow' : p.row g.width .z (p.index tile * g.width + i) = tile.row * g.width + i := hrow
  have hcolumn' : p.column g.width .z (p.index tile * g.width + i) = tile.col := hcolumn
  have hcell : ∀ j ∈ List.range g.width, g.format.encode (s.cellValue i j) =
      g.format.encode (p.accumulated g (p.paddedCell g m) (tile.row * g.width + i)
        (tile.col * g.width + j)) := by
    intro j hj
    have hj := List.mem_range.mp hj
    rw [cellValue, xRowAt, wColAt, hs.geometry, hs.length, h.y_eq hs ht hcol hi hj,
      accumulate_map, Plan.accumulated]
    refine congrArg _ (List.foldl_ext _ _ _ fun acc k hk => ?_)
    have hk := List.mem_range.mp hk
    rw [h.x_eq hs hp ht hi hk, h.w_eq hs hp ht hcol hj hk]
  rw [rowBytes, Plan.beatResult, hrow', hcolumn', hs.geometry, List.flatMap_def, List.flatMap_def,
    List.map_congr_left hcell]

end TileStore

end SystolicGemm
