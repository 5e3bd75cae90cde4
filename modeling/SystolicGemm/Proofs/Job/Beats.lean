import Mathlib.Tactic.Common
import SystolicGemm.Proofs.Job.Accepted

/-!
# The beats of a job

Every operand is moved in `lines * columns * xRowTiles` beats: a column of tiles
is walked line by line, then the next column, then the next row of tiles. For W
the lines are those of the whole contraction and each row of tiles starts over;
for the others a row of tiles is as high as the array is wide.

`Plan.Sound` states what the engine relies on, for all four operands at once.
The two facts that keep a run from stopping are `Sound.roomy` and `Sound.addr_lt`:
no offset and no address of any beat leaves a 64-bit word.
-/

namespace SystolicGemm

namespace Plan

/-- The pattern of an operand. -/
def pattern (p : Plan) : Operand → Pattern
  | .x => p.x
  | .w => p.w
  | .y => p.y
  | .z => p.z

/-- Beats in one column of tiles, for an array of width `l`. -/
def lines (p : Plan) (l : Nat) : Operand → Nat
  | .w => p.n
  | .x | .y | .z => l

/-- Tiles in a row of tiles. -/
def columns (p : Plan) : Operand → Nat
  | .x => p.colTiles
  | .w | .y | .z => p.wColTiles

/-- Beats in the whole job. -/
def beats (p : Plan) (l : Nat) (o : Operand) : Nat := p.lines l o * p.columns o * p.xRowTiles

/-- Rows of X, Y and Z. -/
def m (p : Plan) (l : Nat) : Nat :=
  (p.xRowTiles - 1) * l + JobImage.finalTile l p.leftovers.xRow

/-- Rows of an operand's matrix. -/
def rows (p : Plan) (l : Nat) : Operand → Nat
  | .w => p.n
  | .x | .y | .z => p.m l

/-- Columns of an operand's matrix. -/
def cols (p : Plan) : Operand → Nat
  | .x => p.n
  | .w | .y | .z => p.k

/-- The row pitch of an operand's matrix. -/
def pitch (p : Plan) (o : Operand) : Nat := (p.pattern o).inner.stride

/-- Rows of the matrix above the row of tiles that beat `b` belongs to. -/
def rowBase (p : Plan) (l : Nat) (o : Operand) (b : Nat) : Nat :=
  match o with
  | .w => 0
  | .x | .y | .z => b / p.lines l o / p.columns o * l

/-- The matrix row of beat `b`. -/
def row (p : Plan) (l : Nat) (o : Operand) (b : Nat) : Nat :=
  p.rowBase l o b + b % p.lines l o

/-- The tile column of beat `b`. -/
def column (p : Plan) (l : Nat) (o : Operand) (b : Nat) : Nat :=
  b / p.lines l o % p.columns o

/-- The address of beat `b`. -/
def addr (p : Plan) (g : Geometry) (o : Operand) (b : Nat) : Nat :=
  (p.pattern o).base + p.row g.width o b * p.pitch o + p.column g.width o b * g.beatBytes

/-- What the engine relies on in the plan of a job. -/
structure Sound (p : Plan) (g : Geometry) : Prop where
  xRowTiles_pos : 0 < p.xRowTiles
  colTiles_pos : 0 < p.colTiles
  wColTiles_pos : 0 < p.wColTiles
  contraction : p.leftovers.xCol = p.leftovers.wRow
  xRow_lt : p.leftovers.xRow < g.width
  xCol_lt : p.leftovers.xCol < g.width
  wCol_lt : p.leftovers.wCol < g.width
  n : p.n = (p.colTiles - 1) * g.width + JobImage.finalTile g.width p.leftovers.xCol
  k : p.k = (p.wColTiles - 1) * g.width + JobImage.finalTile g.width p.leftovers.wCol
  inner : ∀ o, (p.pattern o).inner.count = p.lines g.width o
  middle : ∀ o, (p.pattern o).middle.count = p.columns o
  outer : ∀ o, (p.pattern o).outer.count = p.xRowTiles
  middleStride : ∀ o, (p.pattern o).middle.stride = g.beatBytes
  outerStride : ∀ o, (p.pattern o).outer.stride = if o = .w then 0 else g.width * p.pitch o
  wrapStride : ∀ o, (p.pattern o).wrapStride = 0
  total : ∀ o, (p.pattern o).total = p.beats g.width o
  beats_lt : ∀ o, p.beats g.width o < Word.limit32
  base_lt : ∀ o, (p.pattern o).base < Word.limit32
  pitch_lt : ∀ o, p.pitch o < Word.limit32
  row_le : ∀ o, p.cols o * g.elementBytes ≤ p.pitch o

end Plan

namespace JobImage

/-- A word that is a positive length counts for itself. -/
theorem count_of_toNat {d : Level} {c : Nat} (h : d.length.toNat = c) (hc : 0 < c) :
    d.count = c := by
  unfold Level.count
  omega

theorem toNat_low32 {n : Nat} (h : n < Word.limit32) : (Word.low32 n).toNat = n :=
  Nat.mod_eq_of_lt h

/-- **The plan of an accepted image is sound.** -/
theorem Accepted.sound {j : JobImage} {g : Geometry} {p : Plan} (hg : g.Valid)
    (h : j.Accepted g p) : p.Sound g := by
  have hl := hg.width_pos
  have hl32 : g.width < Word.limit32 := Nat.lt_of_le_of_lt hg.width_le (by decide)
  have hn : 0 < p.n := by
    rw [h.n]
    have := finalTile_pos p.leftovers.xCol hl
    omega
  have hn32 : p.n < Word.limit32 := by
    have h1 : p.n ≤ p.n * p.wColTiles * p.xRowTiles := by
      rw [Nat.mul_assoc]
      exact Nat.le_mul_of_pos_right _ (Nat.mul_pos h.wColTiles_pos h.xRowTiles_pos)
    exact Nat.lt_of_le_of_lt h1 (h.wLength ▸ j.wLength.toNat_lt)
  have hrows := count_of_toNat (d := ⟨j.xTiles.rows, g.width * j.xPitch.toNat⟩)
    h.xRowTiles.symm h.xRowTiles_pos
  have hcols := count_of_toNat (d := ⟨j.xTiles.cols, g.beatBytes⟩) h.colTiles.symm h.colTiles_pos
  have hwcols := count_of_toNat (d := ⟨j.wTiles.cols, g.beatBytes⟩)
    h.wColTiles.symm h.wColTiles_pos
  have hwidth := count_of_toNat (d := ⟨Word.low32 g.width, j.xPitch.toNat⟩) (toNat_low32 hl32) hl
  have hlen := count_of_toNat (d := ⟨Word.low32 p.n, j.wPitch.toNat⟩) (toNat_low32 hn32) hn
  exact {
    xRowTiles_pos := h.xRowTiles_pos
    colTiles_pos := h.colTiles_pos
    wColTiles_pos := h.wColTiles_pos
    contraction := h.contraction
    xRow_lt := h.xRow_lt
    xCol_lt := h.xCol_lt
    wCol_lt := h.wCol_lt
    n := h.n
    k := h.k
    inner := fun o => by
      cases o <;> simp only [Plan.pattern, h.x, h.w, h.y, h.z]
      exacts [hwidth, hlen, hwidth, hwidth]
    middle := fun o => by
      cases o <;> simp only [Plan.pattern, h.x, h.w, h.y, h.z]
      exacts [hcols, hwcols, hwcols, hwcols]
    outer := fun o => by
      cases o <;> simp only [Plan.pattern, h.x, h.w, h.y, h.z] <;> exact hrows
    middleStride := fun o => by cases o <;> simp only [Plan.pattern, h.x, h.w, h.y, h.z]
    outerStride := fun o => by cases o <;> simp [Plan.pitch, Plan.pattern, h.x, h.w, h.y, h.z]
    wrapStride := fun o => by cases o <;> simp only [Plan.pattern, h.x, h.w, h.y, h.z]
    total := fun o => by
      cases o <;> simp only [Plan.pattern, h.x, h.w, h.y, h.z]
      exacts [h.xLength, h.wLength, h.yLength, h.zLength]
    beats_lt := fun o => by
      cases o
      exacts [lt_of_eq_of_lt h.xLength.symm j.xLength.toNat_lt,
        lt_of_eq_of_lt h.wLength.symm j.wLength.toNat_lt,
        lt_of_eq_of_lt h.yLength.symm j.yLength.toNat_lt,
        lt_of_eq_of_lt h.zLength.symm j.zLength.toNat_lt]
    base_lt := fun o => by
      cases o <;> simp only [Plan.pattern, h.x, h.w, h.y, h.z] <;> exact UInt32.toNat_lt _
    pitch_lt := fun o => by
      cases o <;> simp only [Plan.pitch, Plan.pattern, h.x, h.w, h.y, h.z] <;>
        exact UInt32.toNat_lt _
    row_le := fun o => by
      cases o <;> simp only [Plan.pitch, Plan.pattern, h.x, h.w, h.y, h.z]
      exacts [h.xPitch, h.wPitch, h.yzPitch, h.yzPitch] }

end JobImage

namespace Plan

namespace Sound

variable {p : Plan} {g : Geometry} (h : p.Sound g)

include h

theorem n_pos : 0 < p.n := by
  have hw : 0 < g.width := by have := h.xRow_lt; omega
  have := JobImage.finalTile_pos p.leftovers.xCol hw
  rw [h.n]
  omega

theorem width_pos : 0 < g.width := by
  have := h.xRow_lt
  omega

theorem lines_pos (o : Operand) : 0 < p.lines g.width o := by
  cases o
  exacts [h.width_pos, h.n_pos, h.width_pos, h.width_pos]

theorem columns_pos (o : Operand) : 0 < p.columns o := by
  cases o
  exacts [h.colTiles_pos, h.wColTiles_pos, h.wColTiles_pos, h.wColTiles_pos]

theorem lines_lt (o : Operand) : p.lines g.width o < Word.limit32 := by
  have h1 : p.lines g.width o ≤ p.beats g.width o := by
    unfold beats
    rw [Nat.mul_assoc]
    exact Nat.le_mul_of_pos_right _ (Nat.mul_pos (h.columns_pos o) h.xRowTiles_pos)
  exact Nat.lt_of_le_of_lt h1 (h.beats_lt o)

/-- The row of tiles of a beat of the job. -/
theorem block_lt {o : Operand} {b : Nat} (hb : b < p.beats g.width o) :
    b / p.lines g.width o / p.columns o < p.xRowTiles := by
  rw [Nat.div_div_eq_div_mul, Nat.div_lt_iff_lt_mul (Nat.mul_pos (h.lines_pos o) (h.columns_pos o)),
    Nat.mul_comm]
  exact hb

/-- Rows of tiles are rows of the matrix, so they are no more than beats. -/
theorem mul_width_lt : p.xRowTiles * g.width < Word.limit32 := by
  have h1 : p.xRowTiles * g.width ≤ p.beats g.width .x := by
    show _ ≤ g.width * p.colTiles * p.xRowTiles
    rw [Nat.mul_comm, Nat.mul_right_comm]
    exact Nat.le_mul_of_pos_right _ h.colTiles_pos
  exact Nat.lt_of_le_of_lt h1 (h.beats_lt .x)

/-- No beat lies below the last row of tiles. -/
theorem row_lt {o : Operand} {b : Nat} (hb : b < p.beats g.width o) :
    p.row g.width o b < Word.limit32 - 1 := by
  have hline : b % p.lines g.width o < p.lines g.width o := Nat.mod_lt _ (h.lines_pos o)
  have hblock := h.block_lt hb
  cases o with
  | w =>
    have := h.lines_lt .w
    simp only [row, rowBase]
    omega
  | x | y | z =>
    have h1 := h.mul_width_lt
    have h2 := Nat.mul_le_mul_right g.width (Nat.succ_le_of_lt hblock)
    rw [Nat.succ_mul] at h2
    simp only [row, rowBase]
    simp only [lines] at h2 hline ⊢
    omega

/-- The elements in the last tile of an operand's columns. -/
theorem cols_eq (o : Operand) : ∃ last, 0 < last ∧ last ≤ g.width ∧
    p.cols o = (p.columns o - 1) * g.width + last := by
  cases o
  case x => exact ⟨_, JobImage.finalTile_pos _ h.width_pos, JobImage.finalTile_le h.xCol_lt, h.n⟩
  all_goals
    exact ⟨_, JobImage.finalTile_pos _ h.width_pos, JobImage.finalTile_le h.wCol_lt, h.k⟩

theorem column_lt (o : Operand) (b : Nat) : p.column g.width o b < p.columns o :=
  Nat.mod_lt _ (h.columns_pos o)

/-- Every tile column begins inside the row. -/
theorem column_mul_lt (o : Operand) (b : Nat) :
    p.column g.width o b * g.beatBytes < p.pitch o := by
  obtain ⟨last, hlast, _, hcols⟩ := h.cols_eq o
  have h1 : p.column g.width o b ≤ p.columns o - 1 := Nat.le_sub_one_of_lt (h.column_lt o b)
  have h2 : p.column g.width o b * g.width < p.cols o := by
    have := Nat.mul_le_mul_right g.width h1
    omega
  have h3 := Nat.mul_lt_mul_of_pos_right h2 g.elementBytes_pos
  rw [Nat.mul_assoc] at h3
  exact Nat.lt_of_lt_of_le h3 (h.row_le o)

/-- **The address of every beat, and of every byte in it, fits a word.** -/
theorem addr_lt {o : Operand} {b : Nat} (hb : b < p.beats g.width o) :
    p.addr g o b + Geometry.maxBeatBytes ≤ Word.limit := by
  have hbase := h.base_lt o
  have hpitch := h.pitch_lt o
  have hcol := h.column_mul_lt o b
  have hrow : p.row g.width o b * p.pitch o ≤ (Word.limit32 - 2) * (Word.limit32 - 1) :=
    Nat.mul_le_mul (Nat.le_sub_one_of_lt (h.row_lt hb)) (Nat.le_sub_one_of_lt hpitch)
  unfold addr
  simp only [Word.limit, Word.limit32, Geometry.maxBeatBytes] at *
  omega

/-- Where a beat of the job lies in the pattern of its operand. -/
theorem offset_posAt {o : Operand} {b : Nat} (hb : b < p.beats g.width o) :
    ((p.pattern o).posAt b).offset =
      p.row g.width o b * p.pitch o + p.column g.width o b * g.beatBytes := by
  have hblock : b / p.lines g.width o / p.columns o % p.xRowTiles =
      b / p.lines g.width o / p.columns o := Nat.mod_eq_of_lt (h.block_lt hb)
  simp only [Pattern.offset_posAt, Pattern.innerAt, Pattern.middleAt, Pattern.outerAt,
    h.inner, h.middle, h.outer, h.middleStride, h.outerStride, h.wrapStride, hblock]
  cases o <;> simp [row, rowBase, column, pitch, Nat.add_mul, Nat.mul_assoc] <;> omega

theorem addr_posAt {o : Operand} {b : Nat} (hb : b < p.beats g.width o) :
    (p.pattern o).addr ((p.pattern o).posAt b) = .ok (p.addr g o b) := by
  have haddr := h.addr_lt hb
  have hlt : (p.pattern o).base + ((p.pattern o).posAt b).offset < Word.limit := by
    rw [h.offset_posAt hb, ← Nat.add_assoc]
    exact Nat.lt_of_lt_of_le (Nat.lt_add_of_pos_right (by decide)) haddr
  rw [Pattern.addr, Word.add_of_lt hlt, h.offset_posAt hb, ← Nat.add_assoc]
  rfl

/-- **No offset of a walk leaves a word.** -/
theorem roomy (hg : g.Valid) (o : Operand) (u : Nat) : (p.pattern o).Roomy u where
  inner := by
    have h1 : (p.pattern o).innerAt u + 1 ≤ p.lines g.width o :=
      h.inner o ▸ Nat.mod_lt _ (Level.count_pos _)
    have h2 := Nat.mul_le_mul_right (p.pitch o) h1
    have h3 : p.lines g.width o * p.pitch o < Word.limit32 * Word.limit32 :=
      Nat.mul_lt_mul'' (h.lines_lt o) (h.pitch_lt o)
    rw [Nat.succ_mul] at h2
    exact Nat.lt_of_le_of_lt h2 h3
  middle := fun _ => by
    have h1 : p.column g.width o u * g.beatBytes < Word.limit32 :=
      Nat.lt_trans (h.column_mul_lt o u) (h.pitch_lt o)
    have h2 := hg.beatBytes_le
    rw [h.middleStride, Pattern.middleAt, h.inner, h.middle]
    simp only [column, Word.limit, Word.limit32, Geometry.maxBeatBytes] at *
    omega
  outer := fun _ _ => by
    rw [h.outerStride]
    split
    · rw [Nat.mul_zero]
      decide
    · have h1 : (p.pattern o).outerAt u + 1 ≤ p.xRowTiles :=
        h.outer o ▸ Nat.mod_lt _ (Level.count_pos _)
      have h2 := Nat.mul_le_mul_right (g.width * p.pitch o) h1
      have h3 : p.xRowTiles * (g.width * p.pitch o) < Word.limit32 * Word.limit32 := by
        rw [← Nat.mul_assoc]
        exact Nat.mul_lt_mul'' h.mul_width_lt (h.pitch_lt o)
      rw [Nat.succ_mul] at h2
      exact Nat.lt_of_le_of_lt h2 h3
  wrap := fun _ _ _ => by
    rw [h.wrapStride, Nat.mul_zero]
    decide

end Sound

end Plan

end SystolicGemm
