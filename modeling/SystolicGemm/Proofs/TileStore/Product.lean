import SystolicGemm.Proofs.TileStore.Slots

/-!
# What the kernel computes

`computeZ` reads the buffers through checked indices, row by row and column by
column. Under `TileStore.At` no index is out of range, so the kernel is the
plain double loop over `cellValue`, and its result fills the Z buffer row after
row.
-/

namespace SystolicGemm

/-- A checked map over a list has a value if every element has. -/
theorem mapM_eq_ok {ε α β : Type} {f : α → Except ε β} {h : α → β} {l : List α}
    (hf : ∀ a ∈ l, f a = .ok (h a)) : l.mapM f = .ok (l.map h) := by
  induction l with
  | nil => rfl
  | cons a l ih =>
    rw [List.mapM_cons, hf a (List.mem_cons_self ..), ok_bind,
      ih fun b hb => hf b (List.mem_cons_of_mem _ hb)]
    rfl

namespace TileStore

/-- The element with the given index in a buffer. -/
def elementAt (s : TileStore) (o : Operand) (index : Nat) : Single :=
  s.geometry.format.decode
    ((s.buffer o).read (index * s.geometry.elementBytes) s.geometry.elementBytes)

/-- Row `i` of the X tile in use. -/
def xRowAt (s : TileStore) (i : Nat) : List Single :=
  (List.range s.n).map fun k => s.elementAt .x (i * s.xCols + (s.xOffset + k) % s.xCols)

/-- Column `j` of the W tile. -/
def wColAt (s : TileStore) (j : Nat) : List Single :=
  (List.range s.n).map fun k => s.elementAt .w (k * s.geometry.width + j)

/-- The Z element that the kernel computes in row `i` and column `j`. -/
def cellValue (s : TileStore) (i j : Nat) : Single :=
  accumulate s.geometry.format (s.elementAt .y ((i + s.yOffset) * s.geometry.width + j))
    (s.xRowAt i) (s.wColAt j)

/-- The bytes of row `i` of the Z tile. -/
def rowBytes (s : TileStore) (i : Nat) : Bytes :=
  (List.range s.geometry.width).flatMap fun j => s.geometry.format.encode (s.cellValue i j)

/-- The store after a tile has been computed. -/
def computed (s : TileStore) (retireX : Bool) : TileStore :=
  { s with
    z := s.z.write 0 ((List.range s.geometry.width).flatMap s.rowBytes)
    yOffset := (s.yOffset + s.geometry.width) % (2 * s.geometry.width)
    xOffset := if retireX then (s.xOffset + s.n + s.xPad) % s.xCols else s.xOffset }

variable {s : TileStore} {g : Geometry} {n chunks : Nat} {t : Tally}

theorem element_of_lt {o : Operand} {index : Nat} (count : Nat)
    (hsize : (s.buffer o).size = count * s.geometry.elementBytes) (h : index < count) :
    s.element o index = .ok (s.elementAt o index) := by
  have hle : index * s.geometry.elementBytes + s.geometry.elementBytes ≤ (s.buffer o).size := by
    rw [hsize, ← Nat.succ_mul]
    exact Nat.mul_le_mul_right _ h
  exact if_pos hle

theorem At.xRow (h : s.At g n chunks t) (hr : Roomy g chunks) {i : Nat} (hi : i < g.width) :
    s.xRow i = .ok (s.xRowAt i) := by
  have hpos : 0 < s.xCols := by rw [h.xCols]; exact Nat.mul_pos (by omega) hr.width_pos
  refine mapM_eq_ok fun k _ => ?_
  rw [Word.rem_of_pos hpos, ok_bind]
  refine element_of_lt (g.width * s.xCols) ?_ (rowMajor_lt hi (Nat.mod_lt _ hpos))
  rw [h.geometry, h.xCols]
  exact h.xSize

theorem At.wCol (h : s.At g n chunks t) {j : Nat} (hj : j < g.width) :
    s.wCol j = .ok (s.wColAt j) := by
  refine mapM_eq_ok fun k hk => ?_
  have hk : k < chunks * g.width := by
    have := List.mem_range.mp hk
    have := h.padded
    rw [h.length] at *
    omega
  rw [h.geometry]
  refine element_of_lt (chunks * g.width * g.width) ?_ (rowMajor_lt hk hj)
  rw [h.geometry, Nat.mul_assoc]
  exact h.wSize

theorem At.yOffset_le (h : s.At g n chunks t) : s.yOffset ≤ g.width := by
  rw [h.yOffset, Nat.mul_mod_mul_right]
  have : t.computed % 2 ≤ 1 := Nat.le_of_lt_succ (Nat.mod_lt _ Nat.two_pos)
  calc t.computed % 2 * g.width ≤ 1 * g.width := Nat.mul_le_mul_right _ this
    _ = g.width := Nat.one_mul _

theorem At.yRow (h : s.At g n chunks t) {i : Nat} (hi : i < g.width) :
    s.yRow i = .ok ((List.range g.width).map fun j =>
      s.elementAt .y ((i + s.yOffset) * g.width + j)) := by
  have hy := h.yOffset_le
  unfold TileStore.yRow
  rw [h.geometry]
  refine mapM_eq_ok fun j hj => ?_
  refine element_of_lt (2 * g.width * g.width) ?_
    (rowMajor_lt (by omega) (List.mem_range.mp hj))
  rw [h.geometry, Nat.mul_assoc (2 * g.width)]
  exact h.ySize

/-- **The kernel is the plain double loop.** -/
theorem At.product (h : s.At g n chunks t) (hr : Roomy g chunks) :
    s.product = .ok ((List.range g.width).map fun i =>
      (List.range g.width).map fun j => s.cellValue i j) := by
  have hcols : (List.range g.width).mapM s.wCol = .ok ((List.range g.width).map s.wColAt) :=
    mapM_eq_ok fun j hj => h.wCol (List.mem_range.mp hj)
  unfold TileStore.product
  simp only [h.geometry]
  rw [hcols, ok_bind]
  refine mapM_eq_ok fun i hi => ?_
  have hi := List.mem_range.mp hi
  rw [h.xRow hr hi, ok_bind, h.yRow hi, ok_bind, List.zip_map', List.map_map]
  simp only [pure_eq_ok, Except.ok.injEq, cellValue, h.geometry]
  rfl

/-- **A tile can always be computed.** -/
theorem At.computeZ (h : s.At g n chunks t) (hr : Roomy g chunks) (retireX : Bool) :
    s.computeZ retireX = .ok (s.computed retireX) := by
  have hx : 0 < s.xCols := by rw [h.xCols]; exact Nat.mul_pos (by omega) hr.width_pos
  have hy : 0 < 2 * s.geometry.width := by
    rw [h.geometry]
    exact Nat.mul_pos Nat.two_pos hr.width_pos
  have hz : ((List.range g.width).map fun i => (List.range g.width).map fun j =>
      s.cellValue i j).flatten.flatMap s.geometry.format.encode =
      (List.range s.geometry.width).flatMap s.rowBytes := by
    have hrow : s.rowBytes = fun i =>
        ((List.range g.width).map fun j => s.cellValue i j).flatMap s.geometry.format.encode := by
      funext i
      rw [List.flatMap_map, rowBytes, h.geometry]
    rw [← List.flatMap_def, List.flatMap_assoc, hrow, h.geometry]
  unfold TileStore.computeZ
  rw [h.product hr, ok_bind, hz, Word.rem_of_pos hy, ok_bind]
  cases retireX
  · rfl
  · simp only [if_true, Word.rem_of_pos hx]
    rfl

/-- The tally after a tile has been computed. -/
def tallyComputed (t : Tally) (retireX : Bool) : Tally :=
  { t with computed := t.computed + 1, retired := t.retired + if retireX then 1 else 0 }

theorem At.computed (h : s.At g n chunks t) (retireX : Bool) :
    (s.computed retireX).At g n chunks (tallyComputed t retireX) where
  geometry := h.geometry
  allocated := h.allocated
  length := h.length
  padded := h.padded
  xCols := h.xCols
  xSize := h.xSize
  wSize := h.wSize
  ySize := h.ySize
  zSize := (Block.size_write ..).trans h.zSize
  xCursor := h.xCursor
  wCursor := h.wCursor
  yCursor := h.yCursor
  zCursor := h.zCursor
  xOffset := by
    cases retireX
    · exact h.xOffset
    · simp only [TileStore.computed, tallyComputed, if_true, h.xOffset, h.xCols, h.length,
        Nat.add_assoc, h.padded, Nat.mod_add_mod, Nat.succ_mul]
  yOffset := by
    simp only [TileStore.computed, tallyComputed, h.yOffset, h.geometry, Nat.mod_add_mod,
      Nat.succ_mul]

end TileStore

end SystolicGemm
