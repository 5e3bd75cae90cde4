import SystolicGemm.Proofs.Engine.Edge
import SystolicGemm.Proofs.Job.Packed
import SystolicGemm.Settings.Config

/-!
# Jobs of a problem

What a driver asks for when it asks for a problem. `Shape.Fits` is what an array and
its registers demand of a problem: then the image comes about without an overflow,
it is accepted, and its plan is that of the problem, with as many rows and columns as
the problem has and as few tiles as cover them.
-/

namespace SystolicGemm

/-! ## Tiles -/

namespace Config

variable {a l : Nat}

theorem tilesOver_pos (ha : 0 < a) : 0 < tilesOver a l := by
  unfold tilesOver
  by_cases hrem : a % l = 0
  · have hdiv := Nat.div_add_mod a l
    rw [hrem] at hdiv
    have hpos : 0 < a / l := by
      rcases Nat.eq_zero_or_pos (a / l) with h | h
      · rw [h] at hdiv
        omega
      · exact h
    omega
  · rw [if_neg hrem]
    exact Nat.succ_pos _

/-- Tiles but for the last are full, and that one has what is left. -/
theorem tilesOver_cover (ha : 0 < a) :
    (tilesOver a l - 1) * l + JobImage.finalTile l (a % l) = a := by
  have hdiv := Nat.div_add_mod' a l
  have hpos := tilesOver_pos (l := l) ha
  unfold tilesOver JobImage.finalTile at *
  by_cases hrem : a % l = 0
  · rw [if_pos hrem, Nat.add_zero] at hpos
    rw [if_pos hrem, if_pos hrem, Nat.add_zero, Nat.sub_one_mul, Nat.sub_add_cancel]
    · omega
    · exact Nat.le_mul_of_pos_left l hpos
  · rw [if_neg hrem, if_neg hrem, Nat.add_sub_cancel, hdiv]

theorem le_tilesOver_mul (ha : 0 < a) (hl : 0 < l) : a ≤ tilesOver a l * l := by
  have hcover := tilesOver_cover (l := l) ha
  have hle := JobImage.finalTile_le (Nat.mod_lt a hl)
  have hpos := tilesOver_pos (l := l) ha
  have hmul := Nat.sub_one_mul (tilesOver a l) l
  have hfull : l ≤ tilesOver a l * l := Nat.le_mul_of_pos_left l hpos
  omega

/-- No side has more tiles than elements. -/
theorem tilesOver_le (ha : 0 < a) : tilesOver a l ≤ a := by
  have hcover := tilesOver_cover (l := l) ha
  rcases Nat.eq_zero_or_pos l with rfl | hl
  · rw [tilesOver, Nat.div_zero, Nat.mod_zero, if_neg (Nat.ne_of_gt ha)]
    exact ha
  · have hlast := JobImage.finalTile_pos (a % l) hl
    have hmul : tilesOver a l - 1 ≤ (tilesOver a l - 1) * l := Nat.le_mul_of_pos_right _ hl
    omega

/-- The tiles are a quotient that is rounded up. -/
theorem tilesOver_eq_div (hl : 0 < l) : tilesOver a l = (a + l - 1) / l := by
  have hmod := Nat.mod_lt a hl
  have heq := Nat.div_add_mod' a l
  unfold tilesOver
  by_cases hrem : a % l = 0
  · rw [if_pos hrem, Nat.add_zero]
    exact (Nat.div_eq_of_lt_le (by omega) (by rw [Nat.succ_mul]; omega)).symm
  · rw [if_neg hrem]
    exact (Nat.div_eq_of_lt_le (by rw [Nat.succ_mul]; omega) (by
      rw [Nat.succ_mul, Nat.succ_mul]
      omega)).symm

theorem checked_tilesOver (hl : 0 < l) (hlt : a + l < Word.limit) :
    JobImage.tilesOver a l = .ok (tilesOver a l) := by
  have hsub : Word.sub (a + l) 1 = .ok (a + l - 1) := Word.sub_of_le (by omega)
  have hdiv : Word.div (a + l - 1) l = .ok ((a + l - 1) / l) :=
    Word.div_eq_ok_iff.mpr ⟨Nat.ne_of_gt hl, rfl⟩
  rw [JobImage.tilesOver, Word.add_of_lt hlt, ok_bind, hsub, ok_bind, hdiv, tilesOver_eq_div hl]

end Config

namespace Geometry.Valid

variable {g : Geometry} (hg : g.Valid)

include hg

theorem width_lt_limit32 : g.width < Word.limit32 := Nat.lt_of_le_of_lt hg.width_le (by decide)

/-- Nothing overflows when the tiles of a side that is a register word are counted. -/
theorem tilesOver_eq {a : Nat} (ha : a < Word.limit32) :
    JobImage.tilesOver a g.width = .ok (Config.tilesOver a g.width) :=
  Config.checked_tilesOver hg.width_pos
    (Nat.lt_trans (Nat.add_lt_add ha hg.width_lt_limit32) (by decide))

end Geometry.Valid

/-! ## Problems -/

namespace Shape

/-- Tiles along the rows of X. -/
def rowTiles (s : Shape) (g : Geometry) : Nat := Config.tilesOver s.m g.width

/-- Tiles along the contraction. -/
def colTiles (s : Shape) (g : Geometry) : Nat := Config.tilesOver s.n g.width

/-- Tiles along the columns of W. -/
def wColTiles (s : Shape) (g : Geometry) : Nat := Config.tilesOver s.k g.width

/-- Whether the registers hold the tile counts and the lengths of a problem. -/
structure Fits (s : Shape) (g : Geometry) : Prop where
  m_pos : 0 < s.m
  n_pos : 0 < s.n
  k_pos : 0 < s.k
  rowTiles_lt : s.rowTiles g < 0x10000
  colTiles_lt : s.colTiles g < 0x10000
  wColTiles_lt : s.wColTiles g < 0x10000
  xBeats_lt : g.width * s.colTiles g * s.rowTiles g < Word.limit32
  wBeats_lt : s.n * s.wColTiles g * s.rowTiles g < Word.limit32
  yzBeats_lt : g.width * s.wColTiles g * s.rowTiles g < Word.limit32

/-- Whether the lengths of the image of a problem are register words. -/
structure Sized (s : Shape) (g : Geometry) : Prop where
  m_pos : 0 < s.m
  n_pos : 0 < s.n
  k_pos : 0 < s.k
  xBeats_lt : g.width * s.colTiles g * s.rowTiles g < Word.limit32
  wBeats_lt : s.n * s.wColTiles g * s.rowTiles g < Word.limit32
  yzBeats_lt : g.width * s.wColTiles g * s.rowTiles g < Word.limit32

/-- Rows of a matrix of a problem. -/
def rows (s : Shape) : Operand → Nat
  | .w => s.n
  | .x | .y | .z => s.m

/-- Columns of a matrix of a problem. -/
def cols (s : Shape) : Operand → Nat
  | .x => s.n
  | .w | .y | .z => s.k

/-- The image that asks for a problem. -/
def image (s : Shape) (g : Geometry) (layout : Layout) : JobImage where
  xAddr := layout.xAddr
  wAddr := layout.wAddr
  yAddr := layout.yAddr
  zAddr := layout.zAddr
  xLength := Word.low32 (g.width * s.colTiles g * s.rowTiles g)
  wLength := Word.low32 (s.n * s.wColTiles g * s.rowTiles g)
  yLength := Word.low32 (g.width * s.wColTiles g * s.rowTiles g)
  zLength := Word.low32 (g.width * s.wColTiles g * s.rowTiles g)
  wTiles := ⟨Word.low32 (s.colTiles g), Word.low32 (s.wColTiles g)⟩
  xTiles := ⟨Word.low32 (s.rowTiles g), Word.low32 (s.colTiles g)⟩
  leftovers := ⟨s.m % g.width, s.n % g.width, s.n % g.width, s.k % g.width⟩
  xPitch := layout.xPitch
  wPitch := layout.wPitch
  yzPitch := layout.yzPitch

end Shape

namespace Layout

/-- Where a matrix lies. -/
def addr (l : Layout) : Operand → UInt32
  | .x => l.xAddr
  | .w => l.wAddr
  | .y => l.yAddr
  | .z => l.zAddr

/-- The row pitch of a matrix. -/
def pitch (l : Layout) : Operand → UInt32
  | .x => l.xPitch
  | .w => l.wPitch
  | .y | .z => l.yzPitch

/-- Whether the pitches hold the rows of a problem. -/
def Holds (l : Layout) (s : Shape) (elementBytes : Nat) : Prop :=
  ∀ o, s.cols o * elementBytes ≤ (l.pitch o).toNat

/-- Whether the matrices of a problem lie inside a memory, wherever the others are. -/
def Inside (l : Layout) (s : Shape) (base size : Nat) : Prop :=
  ∀ o, base ≤ (l.addr o).toNat ∧ (l.addr o).toNat + (l.pitch o).toNat * s.rows o ≤ base + size

end Layout

theorem Word.mul32_low32 {a b : Nat} (ha : a < limit32) (hb : b < limit32) (h : a * b < limit32) :
    mul32 (low32 a) (low32 b) = .ok (low32 (a * b)) := by
  have hmul : low32 a * low32 b = low32 (a * b) := (UInt32.ofNat_mul a b).symm
  rw [mul32, JobImage.toNat_low32 ha, JobImage.toNat_low32 hb, if_pos h, hmul]

namespace Shape.Sized

variable {s : Shape} {g : Geometry} (h : s.Sized g) (hg : g.Valid)

include h

theorem rowTiles_pos : 0 < s.rowTiles g := Config.tilesOver_pos h.m_pos

theorem colTiles_pos : 0 < s.colTiles g := Config.tilesOver_pos h.n_pos

theorem wColTiles_pos : 0 < s.wColTiles g := Config.tilesOver_pos h.k_pos

/-- Every line, column and row of tiles of W has beats. -/
theorem factors_lt : s.n < Word.limit32 ∧ s.wColTiles g < Word.limit32 ∧
    s.rowTiles g < Word.limit32 := by
  have hlt := h.wBeats_lt
  have hmul := Nat.mul_pos h.n_pos h.wColTiles_pos
  have hle : s.n * s.wColTiles g ≤ s.n * s.wColTiles g * s.rowTiles g :=
    Nat.le_mul_of_pos_right _ h.rowTiles_pos
  have hn : s.n ≤ s.n * s.wColTiles g := Nat.le_mul_of_pos_right _ h.wColTiles_pos
  have hk : s.wColTiles g ≤ s.n * s.wColTiles g := Nat.le_mul_of_pos_left _ h.n_pos
  have hm : s.rowTiles g ≤ s.n * s.wColTiles g * s.rowTiles g := Nat.le_mul_of_pos_left _ hmul
  omega

theorem colTiles_lt : s.colTiles g < Word.limit32 :=
  Nat.lt_of_le_of_lt (Config.tilesOver_le h.n_pos) h.factors_lt.1

theorem toNat_rowTiles : (Word.low32 (s.rowTiles g)).toNat = s.rowTiles g :=
  JobImage.toNat_low32 h.factors_lt.2.2

theorem toNat_colTiles : (Word.low32 (s.colTiles g)).toNat = s.colTiles g :=
  JobImage.toNat_low32 h.colTiles_lt

theorem toNat_wColTiles : (Word.low32 (s.wColTiles g)).toNat = s.wColTiles g :=
  JobImage.toNat_low32 h.factors_lt.2.1

/-- The lengths of the image are those that its tiles imply. -/
theorem checkLengths_image : JobImage.checkLengths [
    ("X", Word.low32 (g.width * s.colTiles g * s.rowTiles g),
      g.width * s.colTiles g * s.rowTiles g),
    ("W", Word.low32 (s.n * s.wColTiles g * s.rowTiles g), s.n * s.wColTiles g * s.rowTiles g),
    ("Y", Word.low32 (g.width * s.wColTiles g * s.rowTiles g),
      g.width * s.wColTiles g * s.rowTiles g),
    ("Z", Word.low32 (g.width * s.wColTiles g * s.rowTiles g),
      g.width * s.wColTiles g * s.rowTiles g)] = .ok () := by
  rw [JobImage.checkLengths_eq_ok_iff]
  simp only [List.mem_cons, List.not_mem_nil, or_false, forall_eq_or_imp, forall_eq]
  exact ⟨JobImage.toNat_low32 h.xBeats_lt, JobImage.toNat_low32 h.wBeats_lt,
    JobImage.toNat_low32 h.yzBeats_lt, JobImage.toNat_low32 h.yzBeats_lt⟩

include hg

/-- The sides of a problem are words: none has more elements than its matrices have beats. -/
theorem sides_lt : s.m < Word.limit32 ∧ s.n < Word.limit32 ∧ s.k < Word.limit32 := by
  have hl := hg.width_pos
  have hm : s.m ≤ s.rowTiles g * g.width := Config.le_tilesOver_mul h.m_pos hl
  have hk : s.k ≤ s.wColTiles g * g.width := Config.le_tilesOver_mul h.k_pos hl
  have hm' : s.rowTiles g * g.width ≤ g.width * s.wColTiles g * s.rowTiles g := by
    rw [Nat.mul_right_comm, Nat.mul_comm]
    exact Nat.le_mul_of_pos_right _ h.wColTiles_pos
  have hk' : s.wColTiles g * g.width ≤ g.width * s.wColTiles g * s.rowTiles g := by
    rw [Nat.mul_comm]
    exact Nat.le_mul_of_pos_right _ h.rowTiles_pos
  have hlt := h.yzBeats_lt
  exact ⟨by omega, h.factors_lt.1, by omega⟩

/-- **The image of a problem comes about without an overflow.** -/
theorem ofShape_eq (layout : Layout) : JobImage.ofShape s g layout = .ok (s.image g layout) := by
  have hl := hg.width_pos
  obtain ⟨hm, hn, hk⟩ := h.sides_lt hg
  have hwidth := hg.width_lt_limit32
  obtain ⟨hn32, houts, hrows⟩ := h.factors_lt
  -- a product of two of three factors is no larger than that of all
  have htwo : ∀ {a b}, a * b * s.rowTiles g < Word.limit32 → a * b < Word.limit32 := fun hlt =>
    Nat.lt_of_le_of_lt (Nat.le_mul_of_pos_right _ h.rowTiles_pos) hlt
  have hyz := Word.mul32_low32 hwidth houts (htwo h.yzBeats_lt)
  have hyz' := Word.mul32_low32 (htwo h.yzBeats_lt) hrows h.yzBeats_lt
  have hx := Word.mul32_low32 hwidth h.colTiles_lt (htwo h.xBeats_lt)
  have hx' := Word.mul32_low32 (htwo h.xBeats_lt) hrows h.xBeats_lt
  have hw := Word.mul32_low32 hn32 houts (htwo h.wBeats_lt)
  have hw' := Word.mul32_low32 (htwo h.wBeats_lt) hrows h.wBeats_lt
  simp only [rowTiles, colTiles, wColTiles] at hyz hyz' hx hx' hw hw'
  simp only [JobImage.ofShape, hg.checkedWidth, hg.tilesOver_eq hm, hg.tilesOver_eq hn,
    hg.tilesOver_eq hk, Word.rem_of_pos hl, ok_bind, hyz, hyz', hx, hx', hw, hw']
  rfl

/-- **The image of a problem is accepted** if the pitches of its layout hold its rows. -/
theorem exists_validate {layout : Layout} (hholds : layout.Holds s g.elementBytes) :
    ∃ p, (s.image g layout).validate g = .ok p := by
  have hl := hg.width_pos
  have hwidth : g.width ≤ 0x400000 := Nat.le_trans hg.width_le (by decide)
  obtain ⟨_, hn, hk⟩ := h.sides_lt hg
  have he := g.elementBytes_lt
  have hrows := h.toNat_rowTiles
  have hcols := h.toNat_colTiles
  have houts := h.toNat_wColTiles
  have h32 : Word.limit32 < Word.limit := by decide
  have htiles : (Word.low32 (s.rowTiles g)).toNat ≠ 0 ∧ (Word.low32 (s.colTiles g)).toNat ≠ 0 ∧
      (Word.low32 (s.wColTiles g)).toNat ≠ 0 := by
    rw [hrows, hcols, houts]
    exact ⟨Nat.ne_of_gt h.rowTiles_pos, Nat.ne_of_gt h.colTiles_pos, Nat.ne_of_gt h.wColTiles_pos⟩
  have hleft : ∀ v ∈ [s.m % g.width, s.n % g.width, s.n % g.width, s.k % g.width],
      v < g.width := by
    simp only [List.mem_cons, List.not_mem_nil, or_false, forall_eq_or_imp, forall_eq]
    exact ⟨Nat.mod_lt _ hl, Nat.mod_lt _ hl, Nat.mod_lt _ hl, Nat.mod_lt _ hl⟩
  have hside : ∀ {a}, 0 < a → a < Word.limit32 →
      JobImage.extent g.width (Config.tilesOver a g.width) (a % g.width) = .ok a := fun ha hlt => by
    have hcover := Config.tilesOver_cover (l := g.width) ha
    exact JobImage.extent_eq_ok_iff.mpr ⟨by rw [hcover]; exact Nat.lt_trans hlt h32, hcover.symm⟩
  have hextent : JobImage.extent g.width (Word.low32 (s.colTiles g)).toNat (s.n % g.width) =
      .ok s.n := by
    rw [hcols, colTiles, hside h.n_pos hn]
  have hextent' : JobImage.extent g.width (Word.low32 (s.wColTiles g)).toNat (s.k % g.width) =
      .ok s.k := by
    rw [houts, wColTiles, hside h.k_pos hk]
  have hmul3 : ∀ {a b c}, 0 < c → a * b * c < Word.limit32 →
      JobImage.mul3 a b c = .ok (a * b * c) := fun hc hlt =>
    have hlt' := Nat.lt_trans hlt h32
    JobImage.mul3_eq_ok_iff.mpr
      ⟨Nat.lt_of_le_of_lt (Nat.le_mul_of_pos_right _ hc) hlt', hlt', rfl⟩
  have hxBeats : JobImage.mul3 g.width (Word.low32 (s.colTiles g)).toNat
      (Word.low32 (s.rowTiles g)).toNat = .ok (g.width * s.colTiles g * s.rowTiles g) := by
    rw [hcols, hrows, hmul3 h.rowTiles_pos h.xBeats_lt]
  have hwBeats : JobImage.mul3 s.n (Word.low32 (s.wColTiles g)).toNat
      (Word.low32 (s.rowTiles g)).toNat = .ok (s.n * s.wColTiles g * s.rowTiles g) := by
    rw [houts, hrows, hmul3 h.rowTiles_pos h.wBeats_lt]
  have hyzBeats : JobImage.mul3 g.width (Word.low32 (s.wColTiles g)).toNat
      (Word.low32 (s.rowTiles g)).toNat = .ok (g.width * s.wColTiles g * s.rowTiles g) := by
    rw [houts, hrows, hmul3 h.rowTiles_pos h.yzBeats_lt]
  have hrow : ∀ {a}, a < Word.limit32 → Word.mul a g.elementBytes = .ok (a * g.elementBytes) :=
    fun ha => Word.mul_of_lt (Nat.mul_lt_mul'' ha he)
  have hpitches : JobImage.checkPitches [("X", layout.xPitch, s.n * g.elementBytes),
      ("W", layout.wPitch, s.k * g.elementBytes),
      ("Y/Z", layout.yzPitch, s.k * g.elementBytes)] = .ok () := by
    rw [JobImage.checkPitches_eq_ok_iff]
    simp only [List.mem_cons, List.not_mem_nil, or_false, forall_eq_or_imp, forall_eq]
    exact ⟨hholds .x, hholds .w, hholds .y⟩
  -- one step for each check, in the order in which they are made
  exact ⟨_,
    bind_eq_ok_iff.mpr ⟨_, liftM_eq_ok_iff.mpr hg.checkedWidth,
    bind_eq_ok_iff.mpr ⟨(), ensure_eq_ok_iff.mpr htiles,
    bind_eq_ok_iff.mpr ⟨(), ensure_eq_ok_iff.mpr rfl,
    bind_eq_ok_iff.mpr ⟨(), ensure_eq_ok_iff.mpr rfl,
    bind_eq_ok_iff.mpr ⟨(), ensure_eq_ok_iff.mpr hleft,
    bind_eq_ok_iff.mpr ⟨_, liftM_eq_ok_iff.mpr hextent,
    bind_eq_ok_iff.mpr ⟨_, liftM_eq_ok_iff.mpr hextent',
    bind_eq_ok_iff.mpr ⟨_, liftM_eq_ok_iff.mpr hxBeats,
    bind_eq_ok_iff.mpr ⟨_, liftM_eq_ok_iff.mpr hwBeats,
    bind_eq_ok_iff.mpr ⟨_, liftM_eq_ok_iff.mpr hyzBeats,
    bind_eq_ok_iff.mpr ⟨_, h.checkLengths_image,
    bind_eq_ok_iff.mpr ⟨_, liftM_eq_ok_iff.mpr (hrow hn),
    bind_eq_ok_iff.mpr ⟨_, liftM_eq_ok_iff.mpr (hrow hk),
    bind_eq_ok_iff.mpr ⟨_, hpitches,
    bind_eq_ok_iff.mpr ⟨_, liftM_eq_ok_iff.mpr (JobImage.mul_of_le hwidth he),
    bind_eq_ok_iff.mpr ⟨_, liftM_eq_ok_iff.mpr (JobImage.mul_of_le hwidth layout.xPitch.toNat_lt),
    bind_eq_ok_iff.mpr ⟨_, liftM_eq_ok_iff.mpr (JobImage.mul_of_le hwidth layout.yzPitch.toNat_lt),
    rfl⟩⟩⟩⟩⟩⟩⟩⟩⟩⟩⟩⟩⟩⟩⟩⟩⟩⟩

end Shape.Sized

namespace Shape.Fits

variable {s : Shape} {g : Geometry} (h : s.Fits g) (hg : g.Valid)

include h

theorem sized : s.Sized g :=
  ⟨h.m_pos, h.n_pos, h.k_pos, h.xBeats_lt, h.wBeats_lt, h.yzBeats_lt⟩

theorem tiles_lt {a : Nat} (ha : a = s.m ∨ a = s.n ∨ a = s.k) :
    0 < a ∧ Config.tilesOver a g.width < 0x10000 := by
  rcases ha with rfl | rfl | rfl
  · exact ⟨h.m_pos, h.rowTiles_lt⟩
  · exact ⟨h.n_pos, h.colTiles_lt⟩
  · exact ⟨h.k_pos, h.wColTiles_lt⟩

include hg

/-- No side of the problem is longer than its tiles. -/
theorem le {a : Nat} (ha : a = s.m ∨ a = s.n ∨ a = s.k) : a ≤ 0x400000 := by
  obtain ⟨hpos, hlt⟩ := h.tiles_lt ha
  have hwidth : g.width ≤ 64 := hg.width_le
  have hmul : Config.tilesOver a g.width * g.width ≤ 0x10000 * 64 :=
    Nat.mul_le_mul (Nat.le_of_lt hlt) hwidth
  have hle := Config.le_tilesOver_mul hpos hg.width_pos
  omega

theorem ofShape_eq (layout : Layout) : JobImage.ofShape s g layout = .ok (s.image g layout) :=
  h.sized.ofShape_eq hg layout

theorem exists_validate {layout : Layout} (hholds : layout.Holds s g.elementBytes) :
    ∃ p, (s.image g layout).validate g = .ok p :=
  h.sized.exists_validate hg hholds

end Shape.Fits

/-! ## Plans -/

/-- Whether a plan is that of a problem, with its matrices where a layout has them. -/
structure Plan.Plans (p : Plan) (s : Shape) (g : Geometry) (layout : Layout) : Prop where
  xRowTiles : p.xRowTiles = s.rowTiles g
  colTiles : p.colTiles = s.colTiles g
  wColTiles : p.wColTiles = s.wColTiles g
  rows : ∀ o, p.rows g.width o = s.rows o
  cols : ∀ o, p.cols o = s.cols o
  base : ∀ o, (p.pattern o).base = (layout.addr o).toNat
  pitch : ∀ o, p.pitch o = (layout.pitch o).toNat

/-- **The plan of the image is that of the problem.** -/
theorem Shape.Sized.plans {s : Shape} {g : Geometry} (h : s.Sized g) {layout : Layout} {p : Plan}
    (hv : (s.image g layout).validate g = .ok p) : p.Plans s g layout := by
  have haccepted := JobImage.accepted_of_validate hv
  have hrows : p.xRowTiles = s.rowTiles g := haccepted.xRowTiles.trans h.toNat_rowTiles
  have hcols : p.colTiles = s.colTiles g := haccepted.colTiles.trans h.toNat_colTiles
  have houts : p.wColTiles = s.wColTiles g := haccepted.wColTiles.trans h.toNat_wColTiles
  have hm : p.m g.width = s.m := by
    rw [Plan.m, hrows, haccepted.leftovers]
    exact Config.tilesOver_cover h.m_pos
  have hn : p.n = s.n := by
    rw [haccepted.n, hcols, haccepted.leftovers]
    exact Config.tilesOver_cover h.n_pos
  have hk : p.k = s.k := by
    rw [haccepted.k, houts, haccepted.leftovers]
    exact Config.tilesOver_cover h.k_pos
  exact {
    xRowTiles := hrows
    colTiles := hcols
    wColTiles := houts
    rows := fun o => by
      cases o
      exacts [hm, hn, hm, hm]
    cols := fun o => by
      cases o
      exacts [hn, hk, hk, hk]
    base := fun o => by
      cases o <;> simp only [Plan.pattern, haccepted.x, haccepted.w, haccepted.y, haccepted.z] <;>
        rfl
    pitch := fun o => by
      cases o <;> simp only [Plan.pitch, Plan.pattern, haccepted.x, haccepted.w, haccepted.y,
        haccepted.z] <;> rfl }

theorem Shape.Fits.plans {s : Shape} {g : Geometry} (h : s.Fits g) {layout : Layout} {p : Plan}
    (hv : (s.image g layout).validate g = .ok p) : p.Plans s g layout :=
  h.sized.plans hv

/-- Byte `i` of a row lies inside with the whole matrix. -/
theorem Layout.Inside.has {layout : Layout} {s : Shape} {base size bytes : Nat}
    (hin : layout.Inside s base size) (hholds : layout.Holds s bytes) {o : Operand} {r i : Nat}
    (hr : r < s.rows o) (hi : i < s.cols o * bytes) :
    base ≤ (layout.addr o).toNat + r * (layout.pitch o).toNat + i ∧
      (layout.addr o).toNat + r * (layout.pitch o).toNat + i < base + size := by
  obtain ⟨hbase, hend⟩ := hin o
  have hpitch := hholds o
  have hrow := Nat.mul_le_mul_left (layout.pitch o).toNat (Nat.succ_le_of_lt hr)
  rw [Nat.mul_succ, Nat.mul_comm _ r] at hrow
  constructor <;> omega

end SystolicGemm
