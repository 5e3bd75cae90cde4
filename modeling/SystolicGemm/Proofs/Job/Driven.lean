import Mathlib.Algebra.Order.Floor.Div
import SystolicGemm.Proofs.Job.Shaped

/-!
# Accepted images are those of drivers

A driver goes from a problem to an image, the checks go from an image to a plan, and
neither knows of the other. Still they are inverse to each other: an image is accepted
if and only if a driver would have written it, and the problem that it would have been
asked for can be read off the plan.
-/

namespace SystolicGemm

/-! ## Images of problems whose sides are words -/

namespace Word

theorem mul32_low32_eq_ok_iff {a b : Nat} (ha : a < limit32) (hb : b < limit32) {v : UInt32} :
    mul32 (low32 a) (low32 b) = .ok v ↔ a * b < limit32 ∧ v = low32 (a * b) := by
  by_cases h : a * b < limit32
  · rw [mul32_low32 ha hb h, Except.ok.injEq]
    exact ⟨fun hv => ⟨h, hv.symm⟩, fun hv => hv.2.symm⟩
  · rw [mul32, JobImage.toNat_low32 ha, JobImage.toNat_low32 hb, if_neg h]
    constructor
    · intro hv
      cases hv
    · rintro ⟨hlt, -⟩
      exact absurd hlt h

end Word

namespace Shape

/-- The sides of a problem that a driver can be asked for. -/
structure Sides (s : Shape) : Prop where
  m_pos : 0 < s.m
  n_pos : 0 < s.n
  k_pos : 0 < s.k
  m_lt : s.m < Word.limit32
  n_lt : s.n < Word.limit32
  k_lt : s.k < Word.limit32

/-- **The image of a problem comes about if its lengths are words**, and not otherwise. -/
theorem Sides.ofShape_eq_ok_iff {s : Shape} (h : s.Sides) {g : Geometry} (hg : g.Valid)
    {layout : Layout} {j : JobImage} :
    JobImage.ofShape s g layout = .ok j ↔ s.Sized g ∧ s.image g layout = j := by
  constructor
  · intro hj
    have hl := hg.width_pos
    have hwidth := hg.width_lt_limit32
    have hcount : ∀ {a}, 0 < a → a < Word.limit32 → Config.tilesOver a g.width < Word.limit32 :=
      fun hpos hlt => Nat.lt_of_le_of_lt (Config.tilesOver_le hpos) hlt
    have hrows := hcount h.m_pos h.m_lt
    have hcols := hcount h.n_pos h.n_lt
    have houts := hcount h.k_pos h.k_lt
    simp only [JobImage.ofShape, hg.checkedWidth, hg.tilesOver_eq h.m_lt, hg.tilesOver_eq h.n_lt,
      hg.tilesOver_eq h.k_lt, Word.rem_of_pos hl, ok_bind, bind_eq_ok_iff] at hj
    obtain ⟨_, hyz, _, hyz', _, hx, _, hx', _, hw, _, hw', hj⟩ := hj
    obtain ⟨hlt, rfl⟩ := (Word.mul32_low32_eq_ok_iff hwidth houts).mp hyz
    obtain ⟨hyzBeats, rfl⟩ := (Word.mul32_low32_eq_ok_iff hlt hrows).mp hyz'
    obtain ⟨hlt, rfl⟩ := (Word.mul32_low32_eq_ok_iff hwidth hcols).mp hx
    obtain ⟨hxBeats, rfl⟩ := (Word.mul32_low32_eq_ok_iff hlt hrows).mp hx'
    obtain ⟨hlt, rfl⟩ := (Word.mul32_low32_eq_ok_iff h.n_lt houts).mp hw
    obtain ⟨hwBeats, rfl⟩ := (Word.mul32_low32_eq_ok_iff hlt hrows).mp hw'
    exact ⟨⟨h.m_pos, h.n_pos, h.k_pos, hxBeats, hwBeats, hyzBeats⟩, Except.ok.inj hj⟩
  · rintro ⟨hsized, rfl⟩
    exact hsized.ofShape_eq hg layout

theorem Sized.sides {s : Shape} {g : Geometry} (h : s.Sized g) (hg : g.Valid) : s.Sides :=
  have ⟨hm, hn, hk⟩ := h.sides_lt hg
  ⟨h.m_pos, h.n_pos, h.k_pos, hm, hn, hk⟩

end Shape

/-! ## Problems of accepted images -/

namespace Config

/-- A side is what its tiles and its leftover say, and nothing else. -/
theorem tilesOver_extent {t l leftover : Nat} (ht : 0 < t) (hlt : leftover < l) :
    tilesOver ((t - 1) * l + JobImage.finalTile l leftover) l = t ∧
      ((t - 1) * l + JobImage.finalTile l leftover) % l = leftover := by
  have hl : 0 < l := Nat.zero_lt_of_lt hlt
  unfold tilesOver JobImage.finalTile
  by_cases hfull : leftover = 0
  · have hside : (t - 1) * l + l = t * l := by
      rw [← Nat.succ_mul, Nat.succ_eq_add_one, Nat.sub_add_cancel ht]
    rw [if_pos hfull, hside, Nat.mul_mod_left, if_pos rfl, Nat.mul_div_cancel t hl]
    exact ⟨rfl, hfull.symm⟩
  · obtain ⟨hdiv, hmod⟩ := div_mod_of_lt (q := t - 1) hlt
    rw [if_neg hfull, hdiv, hmod, if_neg hfull, Nat.sub_add_cancel ht]
    exact ⟨rfl, rfl⟩

theorem tilesOver_eq_ceilDiv {a l : Nat} (hl : 0 < l) : tilesOver a l = a ⌈/⌉ l := by
  rw [tilesOver_eq_div hl, Nat.ceilDiv_eq_add_pred_div]

end Config

/-- The problem of a plan. -/
def Plan.shape (p : Plan) (g : Geometry) : Shape := ⟨p.m g.width, p.n, p.k⟩

namespace JobImage

attribute [ext] JobImage

/-- The layout that is part of an image. -/
def layout (j : JobImage) : Layout :=
  ⟨j.xAddr, j.wAddr, j.yAddr, j.zAddr, j.xPitch, j.wPitch, j.yzPitch⟩

namespace Accepted

variable {j : JobImage} {g : Geometry} {p : Plan} (h : j.Accepted g p)

include h

/-- Each side of the problem has as many tiles as the plan, and leaves what the image says. -/
theorem rowTiles_shape :
    (p.shape g).rowTiles g = p.xRowTiles ∧ (p.shape g).m % g.width = j.leftovers.xRow :=
  h.leftovers ▸ Config.tilesOver_extent h.xRowTiles_pos h.xRow_lt

theorem colTiles_shape :
    (p.shape g).colTiles g = p.colTiles ∧ (p.shape g).n % g.width = j.leftovers.xCol := by
  have hextent := Config.tilesOver_extent h.colTiles_pos h.xCol_lt
  rw [← h.n, h.leftovers] at hextent
  exact hextent

theorem wColTiles_shape :
    (p.shape g).wColTiles g = p.wColTiles ∧ (p.shape g).k % g.width = j.leftovers.wCol := by
  have hextent := Config.tilesOver_extent h.wColTiles_pos h.wCol_lt
  rw [← h.k, h.leftovers] at hextent
  exact hextent

theorem sized_shape (hg : g.Valid) : (p.shape g).Sized g where
  m_pos := Nat.add_pos_right _ (finalTile_pos _ hg.width_pos)
  n_pos := (h.sound hg).n_pos
  k_pos := by
    show 0 < p.k
    rw [h.k]
    exact Nat.add_pos_right _ (finalTile_pos _ hg.width_pos)
  xBeats_lt := by
    rw [h.colTiles_shape.1, h.rowTiles_shape.1, ← h.xLength]
    exact j.xLength.toNat_lt
  wBeats_lt := by
    rw [h.wColTiles_shape.1, h.rowTiles_shape.1]
    exact lt_of_eq_of_lt h.wLength.symm j.wLength.toNat_lt
  yzBeats_lt := by
    rw [h.wColTiles_shape.1, h.rowTiles_shape.1, ← h.yLength]
    exact j.yLength.toNat_lt

/-- **The image of the problem of a plan is the image that has the plan.** -/
theorem image_shape : (p.shape g).image g j.layout = j := by
  obtain ⟨hrows, hrow⟩ := h.rowTiles_shape
  obtain ⟨hcols, hcol⟩ := h.colTiles_shape
  obtain ⟨houts, hout⟩ := h.wColTiles_shape
  have hword : ∀ {w : UInt32} {n : Nat}, w.toNat = n → Word.low32 n = w := fun hw =>
    hw ▸ UInt32.ofNat_toNat
  unfold Shape.image
  rw [hrows, hcols, houts, hrow, hcol, hout, hword h.xRowTiles.symm, hword h.wColTiles.symm]
  refine JobImage.ext rfl rfl rfl rfl ?xLength ?wLength ?yLength ?zLength ?wTiles ?xTiles
    ?leftovers rfl rfl rfl
  case xLength => exact hword h.xLength
  case wLength => exact hword h.wLength
  case yLength => exact hword h.yLength
  case zLength => exact hword h.zLength
  case wTiles => exact congrArg (TileCounts.mk · j.wTiles.cols) (hword h.wRowTiles)
  case xTiles => exact congrArg (TileCounts.mk j.xTiles.rows) (hword h.colTiles.symm)
  case leftovers =>
    have hcontraction := h.contraction
    rw [h.leftovers] at hcontraction
    exact congrArg (Leftovers.mk j.leftovers.xRow j.leftovers.xCol · j.leftovers.wCol) hcontraction

end Accepted

/-! ## Inverse to each other -/

/-- Whether an image is the one that a driver writes for a problem: its sides are words,
its image comes about without an overflow, and the pitches hold its rows. -/
structure AsksFor (j : JobImage) (g : Geometry) (s : Shape) : Prop where
  sides : s.Sides
  image : ofShape s g j.layout = .ok j
  xPitch : s.n * g.elementBytes ≤ j.xPitch.toNat
  wPitch : s.k * g.elementBytes ≤ j.wPitch.toNat
  yzPitch : s.k * g.elementBytes ≤ j.yzPitch.toNat

theorem Accepted.asksFor {j : JobImage} {g : Geometry} {p : Plan} (h : j.Accepted g p)
    (hg : g.Valid) : j.AsksFor g (p.shape g) where
  sides := (h.sized_shape hg).sides hg
  image := by rw [(h.sized_shape hg).ofShape_eq hg, h.image_shape]
  xPitch := h.xPitch
  wPitch := h.wPitch
  yzPitch := h.yzPitch

namespace AsksFor

variable {j : JobImage} {g : Geometry} {s : Shape} (h : j.AsksFor g s) (hg : g.Valid)

include h hg

theorem exists_validate : ∃ p, j.validate g = .ok p := by
  obtain ⟨hsized, himage⟩ := (h.sides.ofShape_eq_ok_iff hg).mp h.image
  have hholds : j.layout.Holds s g.elementBytes := fun o => by
    cases o
    exacts [h.xPitch, h.wPitch, h.yzPitch, h.yzPitch]
  obtain ⟨p, hp⟩ := hsized.exists_validate hg hholds
  exact ⟨p, himage ▸ hp⟩

theorem plans {p : Plan} (hv : j.validate g = .ok p) : p.Plans s g j.layout := by
  obtain ⟨hsized, himage⟩ := (h.sides.ofShape_eq_ok_iff hg).mp h.image
  exact hsized.plans (himage.symm ▸ hv)

theorem eq_shape {p : Plan} (hv : j.validate g = .ok p) : s = p.shape g := by
  have hplans := h.plans hg hv
  have hm : p.m g.width = s.m := hplans.rows .x
  have hn : p.n = s.n := hplans.rows .w
  have hk : p.k = s.k := hplans.cols .w
  rw [Plan.shape, hm, hn, hk]

end AsksFor

/-- **The checks accept exactly what drivers write.** An image has a plan if and only if
it is the image of a problem with pitches that hold its rows. Then there is no other such
problem, and the plan is that of the problem: it has its sides, and as many tiles along
each of them as the width of the array goes into it, rounded up. No image that the
registers can hold keeps the checks from an answer. -/
theorem validate_iff_asksFor {g : Geometry} (hg : g.validate = .ok ()) (j : JobImage) :
    ((∃ p, j.validate g = .ok p) ↔ ∃ s, j.AsksFor g s) ∧
    (∀ p s, j.validate g = .ok p → j.AsksFor g s →
      (∀ s', j.AsksFor g s' → s' = s) ∧
      p.n = s.n ∧ p.k = s.k ∧
      p.xRowTiles = s.m ⌈/⌉ g.width ∧
      p.colTiles = s.n ⌈/⌉ g.width ∧
      p.wColTiles = s.k ⌈/⌉ g.width) ∧
    (∀ ws, Untrapped ((RegisterFile.reset.writeAll ws).job.validate g)) := by
  have hvalid := Geometry.validate_eq_ok_iff.mp hg
  refine ⟨⟨?driven, ?accepted⟩, ?unique, ?registers⟩
  case driven =>
    rintro ⟨p, hp⟩
    exact ⟨_, (accepted_of_validate hp).asksFor hvalid⟩
  case accepted =>
    rintro ⟨s, hs⟩
    exact hs.exists_validate hvalid
  case unique =>
    intro p s hp hs
    have hplans := hs.plans hvalid hp
    have htiles : ∀ a, Config.tilesOver a g.width = a ⌈/⌉ g.width := fun a =>
      Config.tilesOver_eq_ceilDiv hvalid.width_pos
    refine ⟨fun s' hs' => ?_, hplans.rows .w, hplans.cols .w, ?_, ?_, ?_⟩
    · rw [hs'.eq_shape hvalid hp, hs.eq_shape hvalid hp]
    · rw [hplans.xRowTiles, Shape.rowTiles, htiles]
    · rw [hplans.colTiles, Shape.colTiles, htiles]
    · rw [hplans.wColTiles, Shape.wColTiles, htiles]
  case registers =>
    intro ws
    exact (RegisterFile.packed_writeAll packed_blank ws).untrapped_validate hvalid

/-- The ragged job asks for its problem, and for no other. -/
theorem validate_iff_asksFor_ragged :
    (ragged 0x200 0x300).AsksFor .narrow ⟨7, 9, 6⟩ ∧
      (∀ s, (ragged 0x200 0x300).AsksFor .narrow s → s = ⟨7, 9, 6⟩) ∧
      (3 = 9 ⌈/⌉ Geometry.narrow.width) := by
  have hasks : (ragged 0x200 0x300).AsksFor .narrow ⟨7, 9, 6⟩ :=
    ⟨⟨by decide, by decide, by decide, by decide, by decide, by decide⟩, rfl, by decide,
      by decide, by decide⟩
  obtain ⟨hunique, _, _, _, hcols, _⟩ := (validate_iff_asksFor Geometry.validate_narrow
    (ragged 0x200 0x300)).2.1 _ _ (validate_ragged 0x200 0x300) hasks
  exact ⟨hasks, hunique, hcols⟩

end JobImage

end SystolicGemm
