import SystolicGemm.Proofs.TileStore.Resident

/-!
# What the kernel reads

The kernel addresses the buffers by row and column of the tile in use and knows nothing of
beats. Where a beat is resident it reads the elements of that beat: those of X in the row
tile that is not used up, those of W in the rows that came in last and those of Y in the
tile that has not been computed.
-/

namespace SystolicGemm

/-- Element `j` of a beat. -/
def Geometry.elementOf (g : Geometry) (raw : Bytes) (j : Nat) : Single :=
  g.format.decode ((raw.drop (j * g.elementBytes)).take g.elementBytes)

namespace TileStore

/-- How many of the first `j` slots of W are for beats: of each tile the first `n`. -/
def wBeats (g : Geometry) (n chunks j : Nat) : Nat :=
  j / (chunks * g.width) * n + min n (j % (chunks * g.width))

end TileStore

/-- Beats of an operand that have gone through a store. -/
def Tally.beats (g : Geometry) (n chunks : Nat) (t : Tally) : Operand → Nat
  | .x => t.x
  | .w => TileStore.wBeats g n chunks t.w
  | .y => t.y
  | .z => t.z

namespace TileStore

/-- What the slots are to hold if these beats come in, those of each operand in order, and
these rows of Z are computed. Slot `j` of W is for row `j % (chunks * width)` of a tile, and
rows past the contraction are padding. -/
def heldOf (g : Geometry) (n chunks : Nat) (beats : Operand → List Bytes)
    (z : Nat → Option Bytes) : Operand → Nat → Option Bytes
  | .x, b => (beats .x)[b]?
  | .w, j =>
    if j % (chunks * g.width) < n then
      (beats .w)[j / (chunks * g.width) * n + j % (chunks * g.width)]?
    else none
  | .y, b => (beats .y)[b]?
  | .z, b => z b

/-! ## Beats and slots of W -/

section

variable {g : Geometry} {n chunks : Nat} {t : Tally}

theorem wBeats_add (hn : n ≤ chunks * g.width) {q k : Nat} (hk : k ≤ chunks * g.width) :
    wBeats g n chunks (q * (chunks * g.width) + k) = q * n + min n k := by
  unfold wBeats
  rcases Nat.lt_or_eq_of_le hk with hlt | rfl
  · obtain ⟨hdiv, hmod⟩ := div_mod_of_lt (q := q) hlt
    rw [hdiv, hmod]
  · -- a whole tile is the beginning of the next one
    rw [← Nat.succ_mul, Nat.mul_mod_left, Nat.min_zero, Nat.min_eq_left hn]
    rcases Nat.eq_zero_or_pos (chunks * g.width) with h0 | hpos
    · obtain rfl : n = 0 := by omega
      simp
    · rw [Nat.mul_div_cancel _ hpos, Nat.succ_mul, Nat.add_zero]

/-- A slot of W is for a beat or for padding. -/
theorem wBeats_succ (hn : n ≤ chunks * g.width) (hpos : 0 < chunks * g.width) (j : Nat) :
    wBeats g n chunks (j + 1) =
      wBeats g n chunks j + if j % (chunks * g.width) < n then 1 else 0 := by
  have hlt := Nat.mod_lt j hpos
  have hsplit := Nat.div_add_mod' j (chunks * g.width)
  have hsucc := wBeats_add hn (q := j / (chunks * g.width)) (Nat.succ_le_of_lt hlt)
  rw [Nat.succ_eq_add_one, ← Nat.add_assoc, hsplit] at hsucc
  rw [hsucc, wBeats]
  split <;> omega

/-- The next slot is for the next beat, unless it is padding. -/
theorem heldOf_count {beats : Operand → List Bytes} {z : Nat → Option Bytes} {o : Operand}
    (ho : o ≠ .z) (hw : o = .w → t.w % (chunks * g.width) < n) :
    heldOf g n chunks beats z o (t.count o) = (beats o)[t.beats g n chunks o]? := by
  cases o with
  | x | y => rfl
  | w =>
    have hlt := hw rfl
    rw [heldOf, Tally.count, if_pos hlt, Tally.beats, wBeats, Nat.min_eq_right (Nat.le_of_lt hlt)]
  | z => exact absurd rfl ho

theorem beats_take (hn : n ≤ chunks * g.width) (hpos : 0 < chunks * g.width) {q : Operand}
    (hw : q = .w → t.w % (chunks * g.width) < n) (o : Operand) :
    (t.take q).beats g n chunks o = t.beats g n chunks o + if q = o then 1 else 0 := by
  by_cases hq : q = .w
  · subst hq
    cases o with
    | w => exact (wBeats_succ hn hpos t.w).trans (by rw [if_pos (hw rfl)]; rfl)
    | x | y | z => rfl
  · cases q <;> cases o <;> first | rfl | exact absurd rfl hq

theorem beats_pad (hn : n ≤ chunks * g.width) (hpos : 0 < chunks * g.width)
    (hw : n ≤ t.w % (chunks * g.width)) (o : Operand) :
    (t.take .w).beats g n chunks o = t.beats g n chunks o := by
  cases o with
  | w => exact (wBeats_succ hn hpos t.w).trans (by rw [if_neg (Nat.not_lt.mpr hw)]; rfl)
  | x | y | z => rfl

end

/-! ## Elements -/

variable {s : TileStore} {g : Geometry} {n chunks : Nat} {t : Tally}
  {held : Operand → Nat → Option Bytes}

/-- A place in a ring of `c` pieces. -/
theorem mul_add_mod_mul {q l i : Nat} (hi : i < l) (c : Nat) :
    (q * l + i) % (c * l) = q % c * l + i := by
  obtain ⟨hdiv, hmod⟩ := div_mod_of_lt (q := q) hi
  rw [Nat.mul_comm c, Nat.mod_mul, hmod, hdiv, Nat.add_comm, Nat.mul_comm l]

theorem accumulate_map (e : Element) (y : Single) (xs ws : Nat → Single) (n : Nat) :
    accumulate e y ((List.range n).map xs) ((List.range n).map ws) =
      (List.range n).foldl (fun acc k => e.fma acc (xs k) (ws k)) y := by
  rw [accumulate, List.zip_map', List.foldl_map]

section

variable (h : s.Resident g chunks t held) (hs : s.At g n chunks t) {raw : Bytes} {j : Nat}
  (hj : j < g.width)

include h hs hj

/-- An element of a resident beat. -/
theorem Resident.elementAt {o : Operand} {b index : Nat} (hb : b < t.top g.width o)
    (hwin : t.top g.width o ≤ b + span g chunks o) (hraw : held o b = some raw)
    (hindex : index * g.elementBytes = startOf g chunks o b + j * g.elementBytes) :
    s.elementAt o index = g.elementOf raw j := by
  have hle := Nat.mul_le_mul_right g.elementBytes (Nat.succ_le_of_lt hj)
  rw [Nat.succ_mul] at hle
  rw [TileStore.elementAt, hs.geometry, hindex, Block.read_add hle, ← Geometry.beatBytes,
    h o b raw hb hwin hraw, Geometry.elementOf]

/-- Row `i` of chunk `c` of the X tile in use. -/
theorem Resident.elementAt_x {c i : Nat} (hi : i < g.width)
    (hb : (t.retired * chunks + c) * g.width + i < t.x)
    (hwin : t.x ≤ (t.retired * chunks + c) * g.width + i + (chunks + 2) * g.width)
    (hraw : held .x ((t.retired * chunks + c) * g.width + i) = some raw) :
    s.elementAt .x (i * s.xCols + (s.xOffset + (c * g.width + j)) % s.xCols) =
      g.elementOf raw j := by
  -- the chunks of the tile follow those that are used up
  have hsplit : t.retired * (chunks * g.width) + (c * g.width + j) =
      (t.retired * chunks + c) * g.width + j := by
    rw [Nat.add_mul, Nat.mul_assoc, Nat.add_assoc]
  obtain ⟨hdiv, hmod⟩ := div_mod_of_lt (q := t.retired * chunks + c) hi
  refine h.elementAt hs hj hb hwin hraw ?_
  rw [startOf, xStart, hs.xOffset, hs.xCols, Nat.mod_add_mod, hsplit, mul_add_mod_mul hj, hmod,
    hdiv, ← Nat.add_mul, Nat.add_assoc]

/-- Row `k` of the W tile that came in last, or is coming in. -/
theorem Resident.elementAt_w {q k : Nat} (hk : k < chunks * g.width)
    (hb : q * (chunks * g.width) + k < t.w) (hwin : t.w ≤ q * (chunks * g.width) + k +
      chunks * g.width) (hraw : held .w (q * (chunks * g.width) + k) = some raw) :
    s.elementAt .w (k * g.width + j) = g.elementOf raw j := by
  obtain ⟨-, hmod⟩ := div_mod_of_lt (q := q) hk
  refine h.elementAt hs hj hb hwin hraw ?_
  rw [startOf, wStart, hmod, Nat.add_mul, Geometry.beatBytes, Nat.mul_assoc]

/-- Row `i` of the Y tile in use. -/
theorem Resident.elementAt_y {i : Nat} (hi : i < g.width)
    (hb : t.computed * g.width + i < t.y) (hwin : t.y ≤ t.computed * g.width + i + 2 * g.width)
    (hraw : held .y (t.computed * g.width + i) = some raw) :
    s.elementAt .y ((i + s.yOffset) * g.width + j) = g.elementOf raw j := by
  refine h.elementAt hs hj hb hwin hraw ?_
  rw [startOf, yStart, hs.yOffset, mul_add_mod_mul hi, Nat.mul_mod_mul_right, Nat.add_mul,
    Nat.add_comm i, Geometry.beatBytes, Nat.mul_assoc]

end

end TileStore

end SystolicGemm
