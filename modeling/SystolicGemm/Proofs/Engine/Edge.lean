import SystolicGemm.Proofs.Engine.Schedule

/-!
# The edges of a job

A beat is as wide as the array, but the last tiles of a matrix need not be full.
`Sound.enables_strobe` says what the strobes make of that: a byte of a beat takes
part exactly if it belongs to a cell of the matrix, whichever edges the beat lies
at.
-/

namespace SystolicGemm

namespace JobImage

/-- Where an axis of tiles with a leftover ends. -/
theorem lt_extent_iff {t tiles w leftover i : Nat} (ht : t < tiles) (hi : i < w) :
    t * w + i < (tiles - 1) * w + finalTile w leftover ↔
      ¬ (t + 1 = tiles ∧ leftover ≠ 0 ∧ leftover ≤ i) := by
  rcases Nat.lt_or_ge (t + 1) tiles with hlt | hge
  · -- a tile before the last one is full
    have hle := Nat.mul_le_mul_right w (Nat.le_sub_one_of_lt hlt)
    rw [Nat.succ_mul] at hle
    constructor <;> omega
  · have hlast : tiles = t + 1 := by omega
    subst hlast
    unfold finalTile
    rw [Nat.add_sub_cancel]
    split <;> omega

/-- An axis measured in bytes. -/
theorem finalTile_mul (w leftover : Nat) {e : Nat} (he : 0 < e) :
    finalTile w leftover * e = finalTile (w * e) (leftover * e) := by
  unfold finalTile
  by_cases h : leftover = 0
  · simp [h]
  · rw [if_neg h, if_neg (Nat.mul_ne_zero h (Nat.ne_of_gt he))]

end JobImage

theorem Strobe.enables_edge (e : Element) (final : Bool) (leftover : Nat) {i : Nat} (hi : i < 64) :
    (edge e final leftover).enables i =
      decide ¬ (final = true ∧ leftover ≠ 0 ∧ leftover * e.bytes ≤ i) := by
  unfold edge
  cases final
  · simp [enables_full, hi]
  by_cases h : leftover = 0
  · simp [h, enables_full, hi]
  · simp [h, firstElements, enables_firstBytes]
    omega

theorem Strobe.enables_masked (c : Bool) (s : Strobe) (i : Nat) :
    (if c then s else empty).enables i = (c && s.enables i) := by
  cases c <;> simp

namespace Plan

/-- The address of byte `i` of a row of an operand's matrix. -/
def rowAddr (p : Plan) (o : Operand) (r i : Nat) : Nat := (p.pattern o).base + r * p.pitch o + i

/-- Whether byte `i` of beat `b` belongs to a cell: it lies not below the last row
and not past the end of its row. -/
def Covers (p : Plan) (g : Geometry) (o : Operand) (b i : Nat) : Prop :=
  p.row g.width o b < p.rows g.width o ∧
    p.column g.width o b * g.beatBytes + i < p.cols o * g.elementBytes

instance (p : Plan) (g : Geometry) (o : Operand) (b i : Nat) : Decidable (p.Covers g o b i) :=
  inferInstanceAs (Decidable (_ ∧ _))

theorem addr_add (p : Plan) (g : Geometry) (o : Operand) (b i : Nat) :
    p.addr g o b + i =
      p.rowAddr o (p.row g.width o b) (p.column g.width o b * g.beatBytes + i) :=
  Nat.add_assoc ..

namespace Sound

variable {p : Plan} {g : Geometry} (h : p.Sound g)

include h

theorem cols_mul_le (o : Operand) : p.cols o * g.elementBytes ≤ p.columns o * g.beatBytes := by
  obtain ⟨last, -, hlast, hcols⟩ := h.cols_eq o
  have hc := h.columns_pos o
  have hle : p.cols o ≤ p.columns o * g.width := by
    have := Nat.sub_add_cancel hc
    rw [hcols, ← this, Nat.succ_mul, Nat.add_sub_cancel]
    omega
  rw [Geometry.beatBytes, ← Nat.mul_assoc]
  exact Nat.mul_le_mul_right _ hle

/-- The rows of a matrix fit its tiles. -/
theorem rows_le (o : Operand) :
    p.rows g.width o ≤ if o = .w then p.lines g.width o else p.xRowTiles * g.width := by
  cases o with
  | w => exact Nat.le_refl _
  | x | y | z =>
    have hle := JobImage.finalTile_le h.xRow_lt
    have hpos := Nat.sub_add_cancel h.xRowTiles_pos
    show p.m g.width ≤ p.xRowTiles * g.width
    rw [m, ← hpos, Nat.succ_mul, Nat.add_sub_cancel]
    omega

/-- The strobe of a tile column. -/
theorem column_lt_iff (o : Operand) {b i : Nat} (hi : i < g.beatBytes) :
    p.column g.width o b * g.beatBytes + i < p.cols o * g.elementBytes ↔
      ¬ (p.column g.width o b + 1 = p.columns o ∧
        (if o = .x then p.leftovers.xCol else p.leftovers.wCol) ≠ 0 ∧
        (if o = .x then p.leftovers.xCol else p.leftovers.wCol) * g.elementBytes ≤ i) := by
  have hcols : p.cols o * g.elementBytes = (p.columns o - 1) * g.beatBytes +
      JobImage.finalTile g.beatBytes
        ((if o = .x then p.leftovers.xCol else p.leftovers.wCol) * g.elementBytes) := by
    rw [Geometry.beatBytes, ← JobImage.finalTile_mul _ _ g.elementBytes_pos, ← Nat.mul_assoc,
      ← Nat.add_mul]
    cases o
    exacts [congrArg (· * _) h.n, congrArg (· * _) h.k, congrArg (· * _) h.k,
      congrArg (· * _) h.k]
  have he := Nat.ne_of_gt g.elementBytes_pos
  rw [hcols, JobImage.lt_extent_iff (h.column_lt o b) hi, Nat.mul_ne_zero_iff]
  simp [he]

/-- The row mask. -/
theorem rowValid_iff {o : Operand} (ho : o ≠ .w) {b : Nat} (hb : b < p.beats g.width o) :
    Engine.rowValid p (b / p.lines g.width o / p.columns o) (b % p.lines g.width o) = true ↔
      p.row g.width o b < p.rows g.width o := by
  have hblock := h.block_lt hb
  have hline : b % p.lines g.width o < p.lines g.width o := Nat.mod_lt _ (h.lines_pos o)
  cases o with
  | w => exact absurd rfl ho
  | x | y | z =>
    simp only [row, rowBase, rows, m, lines] at hblock hline ⊢
    rw [JobImage.lt_extent_iff hblock hline]
    simp [Engine.rowValid, or_assoc, imp_iff_not_or]

/-- **A strobe enables what belongs to the matrix.** -/
theorem enables_strobe (hg : g.Valid) {o : Operand} {b i : Nat} (hb : b < p.beats g.width o)
    (hi : i < g.beatBytes) :
    (Engine.strobe g.format p (p.transfer g.width o b)).enables i = decide (p.Covers g o b i) := by
  have hi64 : i < 64 := Nat.lt_of_lt_of_le hi hg.beatBytes_le
  have hcol := h.column_lt_iff o (b := b) hi
  cases o with
  | w =>
    have hrow : p.row g.width .w b < p.rows g.width .w := by
      rw [row, rowBase, Nat.zero_add]
      exact Nat.mod_lt _ (h.lines_pos .w)
    rw [transfer, Transfer.of, Engine.strobe, Strobe.enables_edge _ _ _ hi64, decide_eq_decide,
      Covers, hcol]
    simp [hrow, columns, column, Geometry.elementBytes]
  | x | y | z =>
    have hrow := h.rowValid_iff (by decide) hb
    rw [transfer, Transfer.of, Engine.strobe, Strobe.enables_masked,
      Strobe.enables_edge _ _ _ hi64, Bool.eq_iff_iff, Bool.and_eq_true, hrow, decide_eq_true_iff,
      decide_eq_true_iff, Covers, hcol]
    simp [columns, column, lines, Geometry.elementBytes]

end Sound

end Plan

end SystolicGemm
