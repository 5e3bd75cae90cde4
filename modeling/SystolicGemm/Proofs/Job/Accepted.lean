import SystolicGemm.Job.Plan
import SystolicGemm.Proofs.Stream.Walk

/-!
# What an accepted job promises

`JobImage.validate` is a list of checks with a plan at the end. `Accepted` is
what one learns from its success, check by check. `Plan.Sound` is the same read
from the side of the engine, once for all four operands: how many beats make up
one column of tiles, how wide a row is, and that nothing which a walk adds up
leaves a 64-bit word.
-/

namespace SystolicGemm

/-! ## Arrays -/

namespace Geometry

/-- An array that is not empty and whose beat the strobe covers. -/
structure Valid (g : Geometry) : Prop where
  height_pos : 0 < g.height
  pipeRegs_pos : 0 < g.pipeRegs
  beatBytes_le : g.beatBytes ≤ maxBeatBytes

theorem elementBytes_pos (g : Geometry) : 0 < g.elementBytes := by
  unfold elementBytes
  cases g.format <;> decide

theorem elementBytes_lt (g : Geometry) : g.elementBytes < Word.limit32 := by
  unfold elementBytes
  cases g.format <;> decide

theorem checkedBeatBytes_eq_ok_iff {g : Geometry} {b : Nat} :
    g.checkedBeatBytes = .ok b ↔
      g.width < Word.limit ∧ g.beatBytes < Word.limit ∧ b = g.beatBytes := by
  simp only [checkedBeatBytes, checkedWidth, bind_eq_ok_iff, Word.mul_eq_ok_iff]
  constructor
  · rintro ⟨w, ⟨h1, rfl⟩, h2, rfl⟩
    exact ⟨h1, h2, rfl⟩
  · rintro ⟨h1, h2, rfl⟩
    exact ⟨_, ⟨h1, rfl⟩, h2, rfl⟩

namespace Valid

variable {g : Geometry}

theorem width_pos (h : g.Valid) : 0 < g.width := Nat.mul_pos h.height_pos h.pipeRegs_pos

theorem width_le (h : g.Valid) : g.width ≤ maxBeatBytes :=
  Nat.le_trans (Nat.le_mul_of_pos_right _ g.elementBytes_pos) h.beatBytes_le

theorem width_lt (h : g.Valid) : g.width < Word.limit :=
  Nat.lt_of_le_of_lt h.width_le (by decide)

theorem beatBytes_lt (h : g.Valid) : g.beatBytes < Word.limit :=
  Nat.lt_of_le_of_lt h.beatBytes_le (by decide)

theorem checkedWidth (h : g.Valid) : g.checkedWidth = .ok g.width := Word.mul_of_lt h.width_lt

theorem checkedBeatBytes (h : g.Valid) : g.checkedBeatBytes = .ok g.beatBytes :=
  checkedBeatBytes_eq_ok_iff.mpr ⟨h.width_lt, h.beatBytes_lt, rfl⟩

end Valid

theorem validate_eq_ok_iff {g : Geometry} : g.validate = .ok () ↔ g.Valid := by
  constructor
  · intro h
    obtain ⟨_, h1, h⟩ := bind_eq_ok_iff.mp h
    obtain ⟨b, h2, h3⟩ := bind_eq_ok_iff.mp h
    obtain ⟨hh, hp⟩ := ensure_eq_ok_iff.mp h1
    obtain ⟨_, _, rfl⟩ := checkedBeatBytes_eq_ok_iff.mp (liftM_eq_ok_iff.mp h2)
    exact ⟨Nat.pos_of_ne_zero hh, Nat.pos_of_ne_zero hp, ensure_eq_ok_iff.mp h3⟩
  · intro h
    have hne : g.height ≠ 0 ∧ g.pipeRegs ≠ 0 :=
      ⟨Nat.ne_of_gt h.height_pos, Nat.ne_of_gt h.pipeRegs_pos⟩
    simp [validate, h.checkedBeatBytes, ensure, hne, h.beatBytes_le]

end Geometry

/-! ## Images -/

namespace JobImage

/-- What the checks of an image say, and the plan that they lead to. -/
structure Accepted (j : JobImage) (g : Geometry) (p : Plan) : Prop where
  xRowTiles : p.xRowTiles = j.xTiles.rows.toNat
  colTiles : p.colTiles = j.xTiles.cols.toNat
  wColTiles : p.wColTiles = j.wTiles.cols.toNat
  leftovers : p.leftovers = j.leftovers
  xRowTiles_pos : 0 < p.xRowTiles
  colTiles_pos : 0 < p.colTiles
  wColTiles_pos : 0 < p.wColTiles
  wRowTiles : j.wTiles.rows.toNat = p.colTiles
  contraction : p.leftovers.xCol = p.leftovers.wRow
  xRow_lt : p.leftovers.xRow < g.width
  xCol_lt : p.leftovers.xCol < g.width
  wCol_lt : p.leftovers.wCol < g.width
  n : p.n = (p.colTiles - 1) * g.width + finalTile g.width p.leftovers.xCol
  k : p.k = (p.wColTiles - 1) * g.width + finalTile g.width p.leftovers.wCol
  xLength : j.xLength.toNat = g.width * p.colTiles * p.xRowTiles
  wLength : j.wLength.toNat = p.n * p.wColTiles * p.xRowTiles
  yLength : j.yLength.toNat = g.width * p.wColTiles * p.xRowTiles
  zLength : j.zLength.toNat = g.width * p.wColTiles * p.xRowTiles
  xPitch : p.n * g.elementBytes ≤ j.xPitch.toNat
  wPitch : p.k * g.elementBytes ≤ j.wPitch.toNat
  yzPitch : p.k * g.elementBytes ≤ j.yzPitch.toNat
  x : p.x = ⟨j.xAddr.toNat, j.xLength.toNat, ⟨Word.low32 g.width, j.xPitch.toNat⟩,
    ⟨j.xTiles.cols, g.beatBytes⟩, ⟨j.xTiles.rows, g.width * j.xPitch.toNat⟩, 0⟩
  w : p.w = ⟨j.wAddr.toNat, j.wLength.toNat, ⟨Word.low32 p.n, j.wPitch.toNat⟩,
    ⟨j.wTiles.cols, g.beatBytes⟩, ⟨j.xTiles.rows, 0⟩, 0⟩
  y : p.y = ⟨j.yAddr.toNat, j.yLength.toNat, ⟨Word.low32 g.width, j.yzPitch.toNat⟩,
    ⟨j.wTiles.cols, g.beatBytes⟩, ⟨j.xTiles.rows, g.width * j.yzPitch.toNat⟩, 0⟩
  z : p.z = ⟨j.zAddr.toNat, j.zLength.toNat, ⟨Word.low32 g.width, j.yzPitch.toNat⟩,
    ⟨j.wTiles.cols, g.beatBytes⟩, ⟨j.xTiles.rows, g.width * j.yzPitch.toNat⟩, 0⟩

theorem finalTile_pos {width : Nat} (leftover : Nat) (h : 0 < width) :
    0 < finalTile width leftover := by
  unfold finalTile
  split <;> omega

theorem finalTile_le {width leftover : Nat} (h : leftover < width) :
    finalTile width leftover ≤ width := by
  unfold finalTile
  split <;> omega

theorem extent_eq_ok_iff {width tiles leftover v : Nat} :
    extent width tiles leftover = .ok v ↔
      (tiles - 1) * width + finalTile width leftover < Word.limit ∧
        v = (tiles - 1) * width + finalTile width leftover := by
  simp only [extent, bind_eq_ok_iff, Word.mul_eq_ok_iff, Word.add_eq_ok_iff]
  constructor
  · rintro ⟨_, ⟨_, rfl⟩, h, rfl⟩
    exact ⟨h, rfl⟩
  · rintro ⟨h, rfl⟩
    exact ⟨_, ⟨by omega, rfl⟩, h, rfl⟩

theorem mul3_eq_ok_iff {a b c v : Nat} :
    mul3 a b c = .ok v ↔ a * b < Word.limit ∧ a * b * c < Word.limit ∧ v = a * b * c := by
  simp only [mul3, bind_eq_ok_iff, Word.mul_eq_ok_iff]
  constructor
  · rintro ⟨_, ⟨h1, rfl⟩, h2, rfl⟩
    exact ⟨h1, h2, rfl⟩
  · rintro ⟨h1, h2, rfl⟩
    exact ⟨_, ⟨h1, rfl⟩, h2, rfl⟩

theorem checkLengths_eq_ok_iff {l : List (String × UInt32 × Nat)} :
    checkLengths l = .ok () ↔ ∀ c ∈ l, c.2.1.toNat = c.2.2 := by
  induction l with
  | nil => simp [checkLengths]
  | cons c rest ih =>
    obtain ⟨matrix, got, expected⟩ := c
    simp [checkLengths, bind_eq_ok_iff, ensure_eq_ok_iff, ih]

theorem checkPitches_eq_ok_iff {l : List (String × UInt32 × Nat)} :
    checkPitches l = .ok () ↔ ∀ c ∈ l, c.2.2 ≤ c.2.1.toNat := by
  induction l with
  | nil => simp [checkPitches]
  | cons c rest ih =>
    obtain ⟨matrix, pitch, rowBytes⟩ := c
    simp [checkPitches, bind_eq_ok_iff, ensure_eq_ok_iff, ih]

/-- **An accepted image has passed every check.** -/
theorem accepted_of_validate {j : JobImage} {g : Geometry} {p : Plan}
    (h : j.validate g = .ok p) : j.Accepted g p := by
  unfold validate at h
  -- one step for each check, in the order in which they are made
  obtain ⟨l, hl, h⟩ := bind_eq_ok_iff.mp h
  obtain ⟨_, rfl⟩ := Word.mul_eq_ok_iff.mp (liftM_eq_ok_iff.mp hl)
  obtain ⟨_, h1, h⟩ := bind_eq_ok_iff.mp h
  obtain ⟨_, h2, h⟩ := bind_eq_ok_iff.mp h
  obtain ⟨_, h3, h⟩ := bind_eq_ok_iff.mp h
  obtain ⟨_, h4, h⟩ := bind_eq_ok_iff.mp h
  obtain ⟨n, hn, h⟩ := bind_eq_ok_iff.mp h
  obtain ⟨k, hk, h⟩ := bind_eq_ok_iff.mp h
  obtain ⟨xb, hxb, h⟩ := bind_eq_ok_iff.mp h
  obtain ⟨wb, hwb, h⟩ := bind_eq_ok_iff.mp h
  obtain ⟨yb, hyb, h⟩ := bind_eq_ok_iff.mp h
  obtain ⟨_, h5, h⟩ := bind_eq_ok_iff.mp h
  obtain ⟨xr, hxr, h⟩ := bind_eq_ok_iff.mp h
  obtain ⟨yr, hyr, h⟩ := bind_eq_ok_iff.mp h
  obtain ⟨_, h6, h⟩ := bind_eq_ok_iff.mp h
  obtain ⟨step, hstep, h⟩ := bind_eq_ok_iff.mp h
  obtain ⟨xBlock, hx, h⟩ := bind_eq_ok_iff.mp h
  obtain ⟨yzBlock, hyz, h⟩ := bind_eq_ok_iff.mp h
  -- and what each of them says when it succeeds
  rw [ensure_eq_ok_iff] at h1 h2 h3 h4
  rw [liftM_eq_ok_iff] at hn hk hxb hwb hyb hxr hyr hstep hx hyz
  rw [checkLengths_eq_ok_iff] at h5
  rw [checkPitches_eq_ok_iff] at h6
  obtain ⟨_, rfl⟩ := extent_eq_ok_iff.mp hn
  obtain ⟨_, rfl⟩ := extent_eq_ok_iff.mp hk
  obtain ⟨_, _, rfl⟩ := mul3_eq_ok_iff.mp hxb
  obtain ⟨_, _, rfl⟩ := mul3_eq_ok_iff.mp hwb
  obtain ⟨_, _, rfl⟩ := mul3_eq_ok_iff.mp hyb
  obtain ⟨_, rfl⟩ := Word.mul_eq_ok_iff.mp hxr
  obtain ⟨_, rfl⟩ := Word.mul_eq_ok_iff.mp hyr
  obtain ⟨_, rfl⟩ := Word.mul_eq_ok_iff.mp hstep
  obtain ⟨_, rfl⟩ := Word.mul_eq_ok_iff.mp hx
  obtain ⟨_, rfl⟩ := Word.mul_eq_ok_iff.mp hyz
  cases h
  simp only [List.mem_cons, List.not_mem_nil, or_false, forall_eq_or_imp, forall_eq] at h4 h5 h6
  exact {
    xRowTiles := rfl
    colTiles := rfl
    wColTiles := rfl
    leftovers := rfl
    xRowTiles_pos := Nat.pos_of_ne_zero h1.1
    colTiles_pos := Nat.pos_of_ne_zero h1.2.1
    wColTiles_pos := Nat.pos_of_ne_zero h1.2.2
    wRowTiles := h2
    contraction := h3
    xRow_lt := h4.1
    xCol_lt := h4.2.1
    wCol_lt := h4.2.2.2
    n := rfl
    k := rfl
    xLength := h5.1
    wLength := h5.2.1
    yLength := h5.2.2.1
    zLength := h5.2.2.2
    xPitch := h6.1
    wPitch := h6.2.1
    yzPitch := h6.2.2
    x := rfl
    w := rfl
    y := rfl
    z := rfl }

end JobImage

/-! ## A job with a leftover on every axis -/

/-- An array four elements wide. -/
def Geometry.narrow : Geometry := ⟨2, 2, .fp16⟩

/-- A job of shape `7 x 9 x 6`, with two bytes between the rows of Y and Z. -/
def JobImage.ragged (yAddr zAddr : UInt32) : JobImage where
  xAddr := 0
  wAddr := 0x100
  yAddr := yAddr
  zAddr := zAddr
  xLength := 24
  wLength := 36
  yLength := 16
  zLength := 16
  wTiles := ⟨3, 2⟩
  xTiles := ⟨2, 3⟩
  leftovers := ⟨3, 1, 1, 2⟩
  xPitch := 20
  wPitch := 12
  yzPitch := 14

/-- The plan of that job. -/
def Plan.ragged (yAddr zAddr : Nat) : Plan where
  n := 9
  k := 6
  colTiles := 3
  wColTiles := 2
  xRowTiles := 2
  leftovers := ⟨3, 1, 1, 2⟩
  x := ⟨0, 24, ⟨4, 20⟩, ⟨3, 8⟩, ⟨2, 80⟩, 0⟩
  w := ⟨0x100, 36, ⟨9, 12⟩, ⟨2, 8⟩, ⟨2, 0⟩, 0⟩
  y := ⟨yAddr, 16, ⟨4, 14⟩, ⟨2, 8⟩, ⟨2, 56⟩, 0⟩
  z := ⟨zAddr, 16, ⟨4, 14⟩, ⟨2, 8⟩, ⟨2, 56⟩, 0⟩

theorem Geometry.validate_narrow : narrow.validate = .ok () := rfl

theorem JobImage.validate_ragged (yAddr zAddr : UInt32) :
    (ragged yAddr zAddr).validate .narrow = .ok (.ragged yAddr.toNat zAddr.toNat) := rfl

end SystolicGemm
