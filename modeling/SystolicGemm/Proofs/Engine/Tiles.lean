import SystolicGemm.Engine.Basic
import SystolicGemm.Proofs.TileStore.Resident

/-!
# Tiles and their beats

A job goes through its output tiles row by row. This module says which beats of
an operand belong to which tile, what the store phase after a tile moves, and
which tile comes next.
-/

namespace SystolicGemm

/-- A transfer of an operand: the line in its tile and the place of the tile. -/
def Transfer.of (o : Operand) (line row col : Nat) : Transfer :=
  match o with
  | .x => .loadX line col row
  | .w => .loadW line ⟨row, col⟩
  | .y => .loadY line ⟨row, col⟩
  | .z => .storeZ line ⟨row, col⟩

@[simp] theorem Transfer.operand_of (o : Operand) (line row col : Nat) :
    (Transfer.of o line row col).operand = o := by cases o <;> rfl

namespace Plan

variable (p : Plan)

/-- The transfer of beat `b` of an operand. -/
def transfer (l : Nat) (o : Operand) (b : Nat) : Transfer :=
  .of o (b % p.lines l o) (b / p.lines l o / p.columns o) (b / p.lines l o % p.columns o)

/-- Output tiles before a tile. -/
def index (t : Tile) : Nat := t.row * p.wColTiles + t.col

/-- Beats of X in a row tile. -/
def xRowBeats (l : Nat) : Nat := p.colTiles * l

/-- How often the store phase after a tile goes through the rows of the array:
once for Z, once for the next tile of Y, and once for each chunk of the next row
tile of X that has to be there from the start. -/
def storeRounds (t : Tile) : Nat :=
  if t.col + 1 < p.wColTiles then 2
  else if t.row + 1 < p.xRowTiles then 2 + min p.colTiles 2
  else 1

/-- Subcycles of a whole job. -/
def subcycles (g : Geometry) : Nat :=
  3 * g.width + p.tiles * (p.colTiles * g.width * g.depth) +
    g.height * g.depth * (2 * p.tiles - 1 + (p.xRowTiles - 1) * min p.colTiles 2)

theorem index_lt {t : Tile} (hrow : t.row < p.xRowTiles) (hcol : t.col < p.wColTiles) :
    p.index t < p.tiles := rowMajor_lt hrow hcol

theorem transfer_of {l : Nat} {o : Operand} {i r c : Nat} (hi : i < p.lines l o)
    (hc : c < p.columns o) :
    p.transfer l o ((r * p.columns o + c) * p.lines l o + i) = .of o i r c := by
  obtain ⟨htile, hline⟩ := div_mod_of_lt (q := r * p.columns o + c) hi
  obtain ⟨hblock, hcolumn⟩ := div_mod_of_lt (q := r) hc
  rw [transfer, hline, htile, hblock, hcolumn]

/-- Where line `i` of tile column `c` in row of tiles `r` lies. -/
theorem row_column {l : Nat} {o : Operand} {i r c : Nat} (hi : i < p.lines l o)
    (hc : c < p.columns o) :
    p.row l o ((r * p.columns o + c) * p.lines l o + i) =
        (if o = .w then 0 else r * l) + i ∧
      p.column l o ((r * p.columns o + c) * p.lines l o + i) = c := by
  obtain ⟨htile, hline⟩ := div_mod_of_lt (q := r * p.columns o + c) hi
  obtain ⟨hblock, hcolumn⟩ := div_mod_of_lt (q := r) hc
  constructor
  · cases o <;> simp only [row, rowBase, hline, htile, hblock] <;> rfl
  · rw [column, htile, hcolumn]

/-- A line of a tile of the job is one of its beats. -/
theorem beat_lt {l : Nat} {o : Operand} {i r c : Nat} (hi : i < p.lines l o)
    (hc : c < p.columns o) (hr : r < p.xRowTiles) :
    (r * p.columns o + c) * p.lines l o + i < p.beats l o := by
  have h1 := Nat.mul_le_mul_right (p.columns o) (Nat.succ_le_of_lt hr)
  rw [Nat.succ_mul] at h1
  have h2 : r * p.columns o + c + 1 ≤ p.xRowTiles * p.columns o := by omega
  have h3 := Nat.mul_le_mul_right (p.lines l o) h2
  rw [Nat.succ_mul] at h3
  have h4 : p.beats l o = p.xRowTiles * p.columns o * p.lines l o := by
    rw [beats, Nat.mul_comm, Nat.mul_comm (p.lines l o), Nat.mul_assoc]
  omega

end Plan

/-- The contraction does not fill more than its chunks. -/
theorem Plan.Sound.n_le {p : Plan} {g : Geometry} (h : p.Sound g) :
    p.n ≤ p.colTiles * g.width := by
  have hpad := TileStore.add_pad h.xCol_lt h.colTiles_pos
  rw [← h.n] at hpad
  omega

/-! ## The store queue -/

namespace Engine

/-- A walk through the rows for one value after the other. -/
theorem getElem?_rounds {α : Type} (f : Nat → Nat → α) {k l i : Nat} (hi : i < k * l) :
    ((List.range k).flatMap fun c => (List.range l).map (f c))[i]? = some (f (i / l) (i % l)) := by
  have hl : 0 < l := Nat.pos_of_ne_zero fun h => by simp [h] at hi
  have hround : i / l < k := Nat.div_lt_of_lt_mul (Nat.mul_comm k l ▸ hi)
  have hget := getElem?_flatMap_range (fun c => (List.range l).map (f c)) (fun _ => by simp)
    hround (Nat.mod_lt i hl)
  rw [Nat.div_add_mod'] at hget
  simp [hget, Nat.mod_lt i hl]

variable {l : Nat} {p : Plan} {t : Tile}

theorem index_nextTile : p.index (nextTile p t) = p.index t + 1 := by
  unfold nextTile Plan.index
  split
  · simp only [Nat.succ_mul]
    omega
  · simp only []
    omega

theorem col_nextTile_lt (hcol : t.col < p.wColTiles) : (nextTile p t).col < p.wColTiles := by
  unfold nextTile
  split <;> simp only [] <;> omega

/-- What the rounds of the store phase move. -/
def storeSlot (p : Plan) (t : Tile) (round line : Nat) : Transfer :=
  match round with
  | 0 => .of .z line t.row t.col
  | 1 => .of .y line (nextTile p t).row (nextTile p t).col
  | chunk + 2 => .of .x line (nextTile p t).row chunk

theorem storeQueue_eq (hcol : t.col < p.wColTiles) :
    storeQueue l p t =
      (List.range (p.storeRounds t)).flatMap fun r => (List.range l).map (storeSlot p t r) := by
  have h0 : storeSlot p t 0 = fun row => .storeZ row t := rfl
  have h1 : storeSlot p t 1 = fun row => .loadY row (nextTile p t) := rfl
  have h2 : ∀ c, storeSlot p t (c + 2) = fun row => .loadX row c (nextTile p t).row := fun _ => rfl
  unfold storeQueue Plan.storeRounds
  by_cases hc : t.col + 1 < p.wColTiles
  · have hn : nextTile p t = ⟨t.row, t.col + 1⟩ := if_neg (by omega)
    simp [hc, List.range_succ, h0, h1, hn]
  have hn : nextTile p t = ⟨t.row + 1, 0⟩ := if_pos (by omega)
  rw [if_neg hc, if_neg hc]
  split
  · have hshift : ∀ c, storeSlot p t (2 + c) = _ := fun c => Nat.add_comm c 2 ▸ h2 c
    rw [List.range_add, List.flatMap_append, List.flatMap_map]
    simp [List.range_succ, h0, h1, hn, hshift]
  · simp [List.range_succ, h0]

theorem length_storeQueue (hcol : t.col < p.wColTiles) :
    (storeQueue l p t).length = p.storeRounds t * l := by
  rw [storeQueue_eq hcol, length_flatMap_range (l := l) _ fun _ => by simp]

theorem getElem?_storeQueue (hcol : t.col < p.wColTiles) (i : Nat) :
    (storeQueue l p t)[i]? =
      if i < p.storeRounds t * l then some (storeSlot p t (i / l) (i % l)) else none := by
  split
  · next hi => rw [storeQueue_eq hcol, getElem?_rounds _ hi]
  · next hi =>
    rw [List.getElem?_eq_none_iff, length_storeQueue hcol]
    omega

/-- The store phase takes whole cycles. -/
theorem storeCycles_eq {g : Geometry} (hg : g.Valid) (hcol : t.col < p.wColTiles) :
    ((storeQueue g.width p t).length + g.pipeRegs - 1) / g.pipeRegs =
      p.storeRounds t * g.height := by
  have hp := hg.pipeRegs_pos
  have hlen : (storeQueue g.width p t).length = p.storeRounds t * g.height * g.pipeRegs := by
    rw [length_storeQueue hcol, Geometry.width, Nat.mul_assoc]
  rw [hlen, Nat.div_eq_iff hp]
  omega

end Engine

namespace Plan

variable {p : Plan} {t : Tile}

theorem storeRounds_pos : 0 < p.storeRounds t := by
  unfold storeRounds
  split
  · exact Nat.two_pos
  split <;> omega

/-- How a job goes on after a tile: in its row, in the next row, or not at all. -/
theorem nextTile_cases (hrow : t.row < p.xRowTiles) (hcol : t.col < p.wColTiles) :
    (t.col + 1 < p.wColTiles ∧ p.storeRounds t = 2 ∧
      Engine.nextTile p t = ⟨t.row, t.col + 1⟩) ∨
    (t.col + 1 = p.wColTiles ∧ t.row + 1 < p.xRowTiles ∧
      p.storeRounds t = 2 + min p.colTiles 2 ∧ Engine.nextTile p t = ⟨t.row + 1, 0⟩) ∨
    (t.col + 1 = p.wColTiles ∧ t.row + 1 = p.xRowTiles ∧ p.storeRounds t = 1 ∧
      Engine.nextTile p t = ⟨p.xRowTiles, 0⟩) := by
  unfold storeRounds Engine.nextTile
  rcases Nat.lt_or_eq_of_le (Nat.succ_le_of_lt hcol) with hc | hc
  · rw [if_pos hc, if_neg (by omega)]
    exact .inl ⟨hc, rfl, rfl⟩
  rw [if_neg (by omega), if_pos hc]
  rcases Nat.lt_or_eq_of_le (Nat.succ_le_of_lt hrow) with hr | hr
  · rw [if_pos hr]
    exact .inr (.inl ⟨hc, hr, rfl, rfl⟩)
  · rw [if_neg (by omega)]
    exact .inr (.inr ⟨hc, hr, rfl, by rw [← hr]⟩)

theorem row_nextTile_le (hrow : t.row < p.xRowTiles) (hcol : t.col < p.wColTiles) :
    (Engine.nextTile p t).row ≤ p.xRowTiles := by
  rcases nextTile_cases hrow hcol with ⟨_, _, hn⟩ | ⟨_, hr, _, hn⟩ | ⟨_, _, _, hn⟩
  · rw [hn]
    exact Nat.le_of_lt hrow
  · rw [hn]
    exact Nat.le_of_lt hr
  · exact Nat.le_of_eq (congrArg Tile.row hn)

/-- Past the last tile a job has nothing to go on with. -/
theorem eq_of_row_nextTile (hrow : t.row < p.xRowTiles) (hcol : t.col < p.wColTiles)
    (h : (Engine.nextTile p t).row = p.xRowTiles) : Engine.nextTile p t = ⟨p.xRowTiles, 0⟩ := by
  rcases nextTile_cases hrow hcol with ⟨_, _, hn⟩ | ⟨_, hr, _, hn⟩ | ⟨_, _, _, hn⟩ <;>
    rw [hn] at h ⊢
  · exact absurd h (Nat.ne_of_lt hrow)
  · exact absurd h (Nat.ne_of_lt hr)

/-- Only the last tile has no tile after it. -/
theorem row_nextTile_lt (hrow : t.row < p.xRowTiles) (hcol : t.col < p.wColTiles)
    (h : 1 < p.storeRounds t) : (Engine.nextTile p t).row < p.xRowTiles := by
  rcases nextTile_cases hrow hcol with ⟨_, _, hn⟩ | ⟨_, hr, _, hn⟩ | ⟨_, _, hone, _⟩
  · rw [hn]
    exact hrow
  · rw [hn]
    exact hr
  · omega

end Plan

end SystolicGemm
