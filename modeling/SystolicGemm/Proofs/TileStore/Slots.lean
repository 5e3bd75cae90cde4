import SystolicGemm.Proofs.Job.Beats
import SystolicGemm.TileStore

/-!
# Where the slots of a store are

A store hands out slots in order, so its cursors are functions of how many slots
it has handed out. `Tally` is that count and `TileStore.At` is the whole shape
of a store after it: buffer sizes, cursors and offsets, everything but the
bytes. The X buffer looks irregular, with its row, chunk and column base, but
seen chunk by chunk it is one ring of `chunks + 2` columns of tiles: chunk `q`
of the job goes to ring column `q % (chunks + 2)`.

Nothing here fails: a slot is inside its buffer, and a cursor has slots.
-/

namespace SystolicGemm

/-- How much has gone through a store since it was allocated. -/
structure Tally where
  /-- Beats of X. -/
  x : Nat
  /-- Rows of W, padding included. -/
  w : Nat
  /-- Beats of Y. -/
  y : Nat
  /-- Beats of Z. -/
  z : Nat
  /-- Row tiles of X that are used up. -/
  retired : Nat
  /-- Tiles that have been computed. -/
  computed : Nat
  deriving DecidableEq, Repr

/-- Nothing yet. -/
def Tally.none : Tally := ⟨0, 0, 0, 0, 0, 0⟩

namespace Ring

theorem skip_mod {c cap : Nat} (hcap : 0 < cap) (hlt : cap < Word.limit) :
    (⟨c % cap, cap⟩ : Ring).skip 1 = .ok ⟨(c + 1) % cap, cap⟩ := by
  have hmod : c % cap < cap := Nat.mod_lt _ hcap
  have hoff : (⟨c % cap, cap⟩ : Ring).offset 1 = .ok ((c + 1) % cap) :=
    offset_eq_ok_iff.mpr
      ⟨Nat.ne_of_gt hcap, Nat.lt_of_le_of_lt hmod hlt, (Nat.mod_add_mod ..).symm⟩
  simp [skip, hoff]

theorem advance_mod {c cap : Nat} (hcap : 0 < cap) (hlt : cap < Word.limit) :
    (⟨c % cap, cap⟩ : Ring).advance = .ok (c % cap, ⟨(c + 1) % cap, cap⟩) := by
  simp [advance, skip_mod hcap hlt]

end Ring

namespace TileStore

/-- Where beat `b` of X starts in its buffer. -/
def xStart (g : Geometry) (chunks b : Nat) : Nat :=
  (b % g.width * ((chunks + 2) * g.width) + b / g.width % (chunks + 2) * g.width) * g.elementBytes

/-- Where row `j` of W, padding included, starts in its buffer. -/
def wStart (g : Geometry) (chunks j : Nat) : Nat := j % (chunks * g.width) * g.beatBytes

/-- Where beat `b` of Y starts in its buffer. -/
def yStart (g : Geometry) (b : Nat) : Nat := b % (2 * g.width) * g.beatBytes

/-- Where beat `b` of Z starts in its buffer. -/
def zStart (g : Geometry) (b : Nat) : Nat := b % g.width * g.beatBytes

/-- The X cursor after `b` beats. -/
def xCursorAt (g : Geometry) (chunks b : Nat) : XCursor :=
  ⟨⟨b % g.width, g.width⟩, ⟨b / g.width % chunks, chunks⟩,
    b / g.width / chunks * (chunks * g.width) % ((chunks + 2) * g.width)⟩

/-- A store for a contraction of length `n` in `chunks` chunks, after a tally. -/
structure At (s : TileStore) (g : Geometry) (n chunks : Nat) (t : Tally) : Prop where
  geometry : s.geometry = g
  allocated : s.allocated = true
  length : s.n = n
  padded : n + s.xPad = chunks * g.width
  xCols : s.xCols = (chunks + 2) * g.width
  xSize : s.x.size = g.width * ((chunks + 2) * g.width) * g.elementBytes
  wSize : s.w.size = chunks * g.width * g.beatBytes
  ySize : s.y.size = 2 * g.width * g.beatBytes
  zSize : s.z.size = g.width * g.beatBytes
  xCursor : s.xCursor = xCursorAt g chunks t.x
  wCursor : s.wCursor = ⟨t.w % (chunks * g.width), chunks * g.width⟩
  yCursor : s.yCursor = ⟨t.y % (2 * g.width), 2 * g.width⟩
  zCursor : s.zCursor = ⟨t.z % g.width, g.width⟩
  xOffset : s.xOffset = t.retired * (chunks * g.width) % ((chunks + 2) * g.width)
  yOffset : s.yOffset = t.computed * g.width % (2 * g.width)

/-- The part of a store that no job changes. -/
structure Fits (s : TileStore) (g : Geometry) : Prop where
  geometry : s.geometry = g
  ySize : s.y.size = 2 * g.width * g.beatBytes
  zSize : s.z.size = g.width * g.beatBytes
  yCapacity : s.yCursor.capacity = 2 * g.width
  zCapacity : s.zCursor.capacity = g.width

theorem At.fits {s : TileStore} {g : Geometry} {n chunks : Nat} {t : Tally}
    (h : s.At g n chunks t) : s.Fits g :=
  ⟨h.geometry, h.ySize, h.zSize, by rw [h.yCursor], by rw [h.zCursor]⟩

section

variable {s : TileStore} {g : Geometry} {n chunks : Nat} {t : Tally}

/-- A chunk that the contraction fills only in part is padded to its width. -/
theorem add_pad {l leftover : Nat} (hl : leftover < l) (hc : 0 < chunks) :
    (chunks - 1) * l + JobImage.finalTile l leftover + (l - leftover) % l = chunks * l := by
  have hmul : (chunks - 1) * l + l = chunks * l := by
    rw [← Nat.succ_mul]
    congr 1
    omega
  unfold JobImage.finalTile
  split
  · next h0 => rw [h0, Nat.sub_zero, Nat.mod_self, Nat.add_zero, hmul]
  · next h0 =>
    rw [Nat.mod_eq_of_lt (by omega)]
    omega

/-- The sizes that keep every cursor inside a word. -/
structure Roomy (g : Geometry) (chunks : Nat) : Prop where
  width_pos : 0 < g.width
  chunks_pos : 0 < chunks
  cols_lt : (chunks + 2) * g.width < Word.limit

/-- The padded contraction is no longer than two 32-bit words. -/
theorem columns_lt {p : Plan} (hp : p.Sound g) (hg : g.Valid) :
    (p.colTiles + 2) * g.width < 2 * Word.limit32 := by
  have hpad := add_pad hp.xCol_lt hp.colTiles_pos
  have hmod : (g.width - p.leftovers.xCol) % g.width < g.width := Nat.mod_lt _ hp.width_pos
  have hw : g.width ≤ 64 := hg.width_le
  have hn := hp.lines_lt .w
  rw [← hp.n] at hpad
  rw [Nat.add_mul, ← hpad]
  simp only [Plan.lines, Word.limit32] at *
  omega

theorem roomy {p : Plan} (hp : p.Sound g) (hg : g.Valid) : Roomy g p.colTiles :=
  ⟨hp.width_pos, hp.colTiles_pos, Nat.lt_trans (columns_lt hp hg) (by decide)⟩

/-- **The store that an allocation yields.** Nothing has gone through it, and its rings fit
a word. -/
theorem at_of_alloc (hs : s.Fits g) (hl : 0 < g.width) {leftovers : Leftovers}
    (hrow : leftovers.wRow = leftovers.xCol)
    (hpad : n + (g.width - leftovers.xCol) % g.width = chunks * g.width) {s' : TileStore}
    (h : s.alloc n leftovers = .ok s') :
    s'.At g n chunks .none ∧ (chunks + 2) * g.width < Word.limit := by
  have hrem : ∀ {a b : Nat}, Word.rem a g.width = .ok b → b = a % g.width := by
    intro a b h
    rw [Word.rem_of_pos hl] at h
    exact (Except.ok.inj h).symm
  unfold alloc at h
  simp only [hs.geometry, hrow] at h
  obtain ⟨pad, hsub, h⟩ := bind_eq_ok_iff.mp h
  obtain ⟨xPad, hxPad, h⟩ := bind_eq_ok_iff.mp h
  obtain ⟨pad', hsub', h⟩ := bind_eq_ok_iff.mp h
  obtain ⟨wPad, hwPad, h⟩ := bind_eq_ok_iff.mp h
  obtain ⟨columns, hcolumns, h⟩ := bind_eq_ok_iff.mp h
  obtain ⟨xCols, hxCols, h⟩ := bind_eq_ok_iff.mp h
  obtain ⟨wRows, hwRows, h⟩ := bind_eq_ok_iff.mp h
  obtain ⟨wSize, hwSize, h⟩ := bind_eq_ok_iff.mp h
  obtain ⟨wBytes, hwBytes, h⟩ := bind_eq_ok_iff.mp h
  obtain ⟨xElements, hxElements, h⟩ := bind_eq_ok_iff.mp h
  obtain ⟨xSize, hxSize, h⟩ := bind_eq_ok_iff.mp h
  obtain ⟨xBytes, hxBytes, h⟩ := bind_eq_ok_iff.mp h
  cases h
  -- both paddings fill the contraction up to whole chunks
  obtain ⟨-, rfl⟩ := Word.sub_eq_ok_iff.mp hsub
  obtain ⟨-, rfl⟩ := Word.sub_eq_ok_iff.mp hsub'
  obtain rfl := hrem hxPad
  obtain rfl := hrem hwPad
  obtain ⟨-, rfl⟩ := Word.add_eq_ok_iff.mp hcolumns
  obtain ⟨-, rfl⟩ := Word.add_eq_ok_iff.mp hwRows
  rw [hpad] at hxCols hwSize
  obtain ⟨hfits, rfl⟩ := Word.add_eq_ok_iff.mp hxCols
  rw [← Nat.add_mul] at hfits hxElements
  obtain ⟨-, rfl⟩ := Word.mul_eq_ok_iff.mp hwSize
  obtain ⟨-, rfl⟩ := Word.below_eq_ok_iff.mp hwBytes
  obtain ⟨-, rfl⟩ := Word.mul_eq_ok_iff.mp hxElements
  obtain ⟨-, rfl⟩ := Word.mul_eq_ok_iff.mp hxSize
  obtain ⟨-, rfl⟩ := Word.below_eq_ok_iff.mp hxBytes
  refine ⟨?_, hfits⟩
  exact {
    geometry := rfl
    allocated := rfl
    length := rfl
    padded := hpad
    xCols := by rw [hpad, ← Nat.add_mul]
    xSize := rfl
    wSize := rfl
    ySize := hs.ySize
    zSize := hs.zSize
    xCursor := by simp [xCursorAt, Tally.none, Ring.ofCapacity, hpad, Nat.mul_div_cancel _ hl]
    wCursor := by simp [Tally.none, Ring.ofCapacity, hpad]
    yCursor := by simp [Tally.none, Ring.reset, hs.yCapacity]
    zCursor := by simp [Tally.none, Ring.reset, hs.zCapacity]
    xOffset := by simp [Tally.none]
    yOffset := by simp [Tally.none] }

/-- **A store can be allocated for every sound plan**, and nothing has gone
through it then. -/
theorem exists_alloc (hs : s.Fits g) {p : Plan} (hp : p.Sound g) (hg : g.Valid) :
    ∃ s', s.alloc p.n p.leftovers = .ok s' ∧ s'.At g p.n p.colTiles .none := by
  have hl := hg.width_pos
  have hpad : p.n + (g.width - p.leftovers.xCol) % g.width = p.colTiles * g.width := by
    rw [hp.n]
    exact add_pad hp.xCol_lt hp.colTiles_pos
  have hw64 : g.width ≤ 64 := hg.width_le
  have hb64 : g.beatBytes ≤ 64 := hg.beatBytes_le
  have hcols_lt := columns_lt hp hg
  have hrows_lt : p.colTiles * g.width < 2 * Word.limit32 := by
    rw [Nat.add_mul] at hcols_lt
    omega
  have hwBytes : p.colTiles * g.width * g.beatBytes < Word.halfLimit :=
    Nat.lt_of_le_of_lt (Nat.mul_le_mul (Nat.le_of_lt hrows_lt) hb64) (by decide)
  have hxl : g.width * ((p.colTiles + 2) * g.width) < Word.halfLimit :=
    Nat.lt_of_le_of_lt (Nat.mul_le_mul hw64 (Nat.le_of_lt hcols_lt)) (by decide)
  have hxBytes : g.width * ((p.colTiles + 2) * g.width) * g.elementBytes < Word.halfLimit := by
    rw [Nat.mul_right_comm]
    exact Nat.lt_of_le_of_lt (Nat.mul_le_mul hb64 (Nat.le_of_lt hcols_lt)) (by decide)
  -- every size is below half a word, so nothing that `alloc` computes leaves one
  have hhalf : Word.halfLimit < Word.limit := by decide
  have h33 : 2 * Word.limit32 < Word.limit := by decide
  have hrem : ∀ a, Word.rem a g.width = .ok (a % g.width) := fun _ => Word.rem_of_pos hl
  have hrows : Word.add p.n ((g.width - p.leftovers.xCol) % g.width) =
      .ok (p.colTiles * g.width) := by
    rw [Word.add_of_lt (by omega), hpad]
  have hcols : Word.add (p.colTiles * g.width) (2 * g.width) =
      .ok ((p.colTiles + 2) * g.width) := by
    rw [Word.add_of_lt (by rw [← Nat.add_mul]; omega), ← Nat.add_mul]
  have halloc : ∃ s', s.alloc p.n p.leftovers = .ok s' := by
    unfold alloc
    simp only [hs.geometry, ← hp.contraction, Word.sub_of_le (Nat.le_of_lt hp.xCol_lt), hrem,
      ok_bind, hrows, hcols, Word.mul_of_lt (Nat.lt_trans hwBytes hhalf),
      Word.capacity_of_lt hwBytes, Word.mul_of_lt (Nat.lt_trans hxl hhalf),
      Word.mul_of_lt (Nat.lt_trans hxBytes hhalf), Word.capacity_of_lt hxBytes]
    exact ⟨_, rfl⟩
  obtain ⟨s', halloc⟩ := halloc
  exact ⟨s', halloc, (at_of_alloc hs hl hp.contraction.symm hpad halloc).1⟩

/-! ## Taking slots -/

/-- Of a chunk only its place in the ring of chunks matters. -/
theorem column_mod (l q : Nat) :
    (q / chunks * (chunks * l) % ((chunks + 2) * l) + q % chunks * l) % ((chunks + 2) * l) =
      q % (chunks + 2) * l := by
  have hq : q / chunks * (chunks * l) + q % chunks * l = q * l := by
    rw [← Nat.mul_assoc, ← Nat.add_mul, Nat.mul_comm (q / chunks), Nat.div_add_mod]
  rw [Nat.mod_add_mod, hq, Nat.mul_mod_mul_right]

theorem At.nextX (h : s.At g n chunks t) (hr : Roomy g chunks) :
    s.nextX = .ok (xCursorAt g chunks (t.x + 1)) := by
  have hl := hr.width_pos
  have hc := hr.chunks_pos
  have hcols := hr.cols_lt
  have hl_lt : g.width < Word.limit :=
    Nat.lt_of_le_of_lt (Nat.le_mul_of_pos_left _ (by omega)) hcols
  have hc_lt : chunks < Word.limit := by
    have := Nat.le_mul_of_pos_right (chunks + 2) hl
    omega
  have hrow := Ring.skip_mod (c := t.x) hl hl_lt
  have hchunk := Ring.skip_mod (c := t.x / g.width) hc hc_lt
  unfold TileStore.nextX
  simp only [h.xCursor, xCursorAt, hrow, ok_bind]
  -- the row moves alone, or carries into the chunk
  rcases Nat.lt_or_eq_of_le (Nat.mod_lt t.x hl) with hlt | heq
  · obtain ⟨h1, h2⟩ := succ_mod_div_of_lt hlt
    rw [if_pos (by omega), h2]
    rfl
  obtain ⟨h1, h2⟩ := succ_mod_div_of_eq heq
  rw [if_neg (by omega), hchunk, ok_bind]
  -- the chunk moves alone, or carries into the column base
  rcases Nat.lt_or_eq_of_le (Nat.mod_lt (t.x / g.width) hc) with hlt' | heq'
  · obtain ⟨h3, h4⟩ := succ_mod_div_of_lt hlt'
    simp only []
    rw [if_pos (by omega), h2, h4]
    rfl
  · obtain ⟨h3, h4⟩ := succ_mod_div_of_eq heq'
    have hpos : 0 < s.xCols := by rw [h.xCols]; exact Nat.mul_pos (by omega) hl
    have hbase : t.x / g.width / chunks * (chunks * g.width) + (n + s.xPad) =
        (t.x / g.width / chunks + 1) * (chunks * g.width) := by
      rw [h.padded, Nat.succ_mul]
    simp only []
    rw [if_neg (by omega), Word.rem_of_pos hpos, h2, h4, h.length, h.xCols, Nat.add_assoc,
      Nat.mod_add_mod, hbase]
    rfl

/-- The X slot lies in one row of the buffer. -/
theorem xStart_add_le (hr : Roomy g chunks) (b : Nat) :
    xStart g chunks b + g.beatBytes ≤
      g.width * ((chunks + 2) * g.width) * g.elementBytes := by
  have hrow : b % g.width + 1 ≤ g.width := Nat.mod_lt _ hr.width_pos
  have hcol : b / g.width % (chunks + 2) + 1 ≤ chunks + 2 := Nat.mod_lt _ (by omega)
  have h1 := Nat.mul_le_mul_right ((chunks + 2) * g.width) hrow
  have h2 := Nat.mul_le_mul_right g.width hcol
  have h3 : b % g.width * ((chunks + 2) * g.width) + b / g.width % (chunks + 2) * g.width +
      g.width ≤ g.width * ((chunks + 2) * g.width) := by
    rw [Nat.succ_mul] at h1 h2
    omega
  have h4 := Nat.mul_le_mul_right g.elementBytes h3
  rw [Nat.add_mul] at h4
  exact h4

/-- A slot of a buffer of `count` beats. -/
theorem mod_mul_add_le {count : Nat} (hc : 0 < count) (b beat : Nat) :
    b % count * beat + beat ≤ count * beat := by
  rw [← Nat.succ_mul]
  exact Nat.mul_le_mul_right _ (Nat.mod_lt _ hc)

theorem slotAt_of_le {o : Operand} {start : Nat}
    (h : start + s.geometry.beatBytes ≤ (s.buffer o).size) :
    s.slotAt o start = .ok ⟨o, start, s.geometry.beatBytes⟩ := if_pos h

theorem At.takeX (h : s.At g n chunks t) (hr : Roomy g chunks) :
    s.takeX = .ok (⟨.x, xStart g chunks t.x, g.beatBytes⟩,
      { s with xCursor := xCursorAt g chunks (t.x + 1) }) := by
  have hpos : 0 < (chunks + 2) * g.width := Nat.mul_pos (by omega) hr.width_pos
  have hcol := @column_mod chunks g.width (t.x / g.width)
  have hle := xStart_add_le hr t.x
  unfold TileStore.takeX
  simp only [h.xCursor, h.nextX hr, xCursorAt, Word.rem_of_pos hpos, ok_bind, h.xCols,
    h.geometry, hcol]
  rw [slotAt_of_le (by rw [h.geometry]; exact h.xSize ▸ hle), h.geometry]
  rfl

theorem At.takeW (h : s.At g n chunks t) (hr : Roomy g chunks) :
    s.takeW = .ok (⟨.w, wStart g chunks t.w, g.beatBytes⟩,
      { s with wCursor := ⟨(t.w + 1) % (chunks * g.width), chunks * g.width⟩ }) := by
  have hpos := Nat.mul_pos hr.chunks_pos hr.width_pos
  have hlt : chunks * g.width < Word.limit :=
    Nat.lt_of_le_of_lt (Nat.mul_le_mul_right _ (by omega)) hr.cols_lt
  have hle := mod_mul_add_le hpos t.w g.beatBytes
  unfold TileStore.takeW
  simp only [h.wCursor, Ring.advance_mod hpos hlt, ok_bind, h.geometry]
  rw [slotAt_of_le (by rw [h.geometry]; exact h.wSize ▸ hle), h.geometry]
  rfl

theorem At.skipW (h : s.At g n chunks t) (hr : Roomy g chunks) :
    s.skipW = .ok { s with wCursor := ⟨(t.w + 1) % (chunks * g.width), chunks * g.width⟩ } := by
  have hpos := Nat.mul_pos hr.chunks_pos hr.width_pos
  have hlt : chunks * g.width < Word.limit :=
    Nat.lt_of_le_of_lt (Nat.mul_le_mul_right _ (by omega)) hr.cols_lt
  unfold TileStore.skipW
  simp only [h.wCursor, Ring.skip_mod hpos hlt, ok_bind]
  rfl

theorem At.takeY (h : s.At g n chunks t) (hr : Roomy g chunks) :
    s.takeY = .ok (⟨.y, yStart g t.y, g.beatBytes⟩,
      { s with yCursor := ⟨(t.y + 1) % (2 * g.width), 2 * g.width⟩ }) := by
  have hpos : 0 < 2 * g.width := Nat.mul_pos Nat.two_pos hr.width_pos
  have hlt : 2 * g.width < Word.limit :=
    Nat.lt_of_le_of_lt (Nat.mul_le_mul_right _ (by omega)) hr.cols_lt
  have hle := mod_mul_add_le hpos t.y g.beatBytes
  unfold TileStore.takeY
  simp only [h.yCursor, Ring.advance_mod hpos hlt, ok_bind, h.geometry]
  rw [slotAt_of_le (by rw [h.geometry]; exact h.ySize ▸ hle), h.geometry]
  rfl

theorem At.takeZ (h : s.At g n chunks t) (hr : Roomy g chunks) :
    s.takeZ = .ok (⟨.z, zStart g t.z, g.beatBytes⟩,
      { s with zCursor := ⟨(t.z + 1) % g.width, g.width⟩ }) := by
  have hlt : g.width < Word.limit :=
    Nat.lt_of_le_of_lt (Nat.le_mul_of_pos_left _ (by omega)) hr.cols_lt
  have hle := mod_mul_add_le hr.width_pos t.z g.beatBytes
  unfold TileStore.takeZ
  simp only [h.zCursor, Ring.advance_mod hr.width_pos hlt, ok_bind, h.geometry]
  rw [slotAt_of_le (by rw [h.geometry]; exact h.zSize ▸ hle), h.geometry]
  rfl

end

end TileStore

/-! ## Slots of an operand -/

/-- The tally after one more slot of an operand. -/
def Tally.take (t : Tally) : Operand → Tally
  | .x => { t with x := t.x + 1 }
  | .w => { t with w := t.w + 1 }
  | .y => { t with y := t.y + 1 }
  | .z => { t with z := t.z + 1 }

namespace TileStore

/-- The next slot of an operand after a tally. -/
def slotOf (g : Geometry) (chunks : Nat) (t : Tally) : Operand → Slot
  | .x => ⟨.x, xStart g chunks t.x, g.beatBytes⟩
  | .w => ⟨.w, wStart g chunks t.w, g.beatBytes⟩
  | .y => ⟨.y, yStart g t.y, g.beatBytes⟩
  | .z => ⟨.z, zStart g t.z, g.beatBytes⟩

@[simp] theorem operand_slotOf (g : Geometry) (chunks : Nat) (t : Tally) (o : Operand) :
    (slotOf g chunks t o).operand = o := by cases o <;> rfl

@[simp] theorem size_slotOf (g : Geometry) (chunks : Nat) (t : Tally) (o : Operand) :
    (slotOf g chunks t o).size = g.beatBytes := by cases o <;> rfl

/-- The store with the cursor of an operand moved past its next slot. -/
def passed (s : TileStore) (g : Geometry) (chunks : Nat) (t : Tally) : Operand → TileStore
  | .x => { s with xCursor := xCursorAt g chunks (t.x + 1) }
  | .w => { s with wCursor := ⟨(t.w + 1) % (chunks * g.width), chunks * g.width⟩ }
  | .y => { s with yCursor := ⟨(t.y + 1) % (2 * g.width), 2 * g.width⟩ }
  | .z => { s with zCursor := ⟨(t.z + 1) % g.width, g.width⟩ }

@[simp] theorem buffer_passed (s : TileStore) (g : Geometry) (chunks : Nat) (t : Tally)
    (o q : Operand) : (s.passed g chunks t o).buffer q = s.buffer q := by
  cases o <;> cases q <;> rfl

section

variable {s : TileStore} {g : Geometry} {n chunks : Nat} {t : Tally}

theorem At.passed (h : s.At g n chunks t) (o : Operand) :
    (s.passed g chunks t o).At g n chunks (t.take o) := by
  cases o
  case x => exact { h with xCursor := rfl }
  case w => exact { h with wCursor := rfl }
  case y => exact { h with yCursor := rfl }
  case z => exact { h with zCursor := rfl }

/-- The bytes of a store do not matter to its shape. -/
theorem At.fill (h : s.At g n chunks t) (slot : Slot) (raw : Bytes) :
    (s.fill slot raw).At g n chunks t := by
  obtain ⟨o, start, size⟩ := slot
  cases o
  case x => exact { h with xSize := (Block.size_write ..).trans h.xSize }
  case w => exact { h with wSize := (Block.size_write ..).trans h.wSize }
  case y => exact { h with ySize := (Block.size_write ..).trans h.ySize }
  case z => exact { h with zSize := (Block.size_write ..).trans h.zSize }

/-- Every slot lies inside its buffer. -/
theorem At.slotOf_le (h : s.At g n chunks t) (hr : Roomy g chunks) (o : Operand) :
    (slotOf g chunks t o).start + g.beatBytes ≤ (s.buffer o).size := by
  cases o
  case x => exact h.xSize ▸ xStart_add_le hr t.x
  case w => exact h.wSize ▸ mod_mul_add_le (Nat.mul_pos hr.chunks_pos hr.width_pos) ..
  case y => exact h.ySize ▸ mod_mul_add_le (Nat.mul_pos Nat.two_pos hr.width_pos) ..
  case z => exact h.zSize ▸ mod_mul_add_le hr.width_pos ..

end

end TileStore

end SystolicGemm
