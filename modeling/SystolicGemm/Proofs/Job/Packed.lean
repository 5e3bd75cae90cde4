import SystolicGemm.Job.Registers
import SystolicGemm.Proofs.Job.Accepted

/-!
# Images that fit the registers

Two registers hold several numbers each, so an image that comes out of the
registers has tile counts below `0x10000` and leftovers below `0x100`. That is
what keeps every product of the checks inside its word: whatever is written to
the registers, the checks accept or refuse it, and do not trap.
-/

namespace SystolicGemm

namespace JobImage

/-- An image that survives the way through the registers. -/
structure Packed (j : JobImage) : Prop where
  xRows : j.xTiles.rows.toNat < 0x10000
  xCols : j.xTiles.cols.toNat < 0x10000
  wRows : j.wTiles.rows.toNat < 0x10000
  wCols : j.wTiles.cols.toNat < 0x10000
  xRow : j.leftovers.xRow < 0x100
  xCol : j.leftovers.xCol < 0x100
  wRow : j.leftovers.wRow < 0x100
  wCol : j.leftovers.wCol < 0x100

theorem packed_blank : blank.Packed := by
  constructor <;> decide

/-- An accepted image fits the registers if half a word holds each of its tile counts. -/
theorem Accepted.packed {j : JobImage} {g : Geometry} {p : Plan} (h : j.Accepted g p)
    (hg : g.Valid) (hx : p.xRowTiles < 0x10000) (hc : p.colTiles < 0x10000)
    (hw : p.wColTiles < 0x10000) : j.Packed := by
  have hwidth : g.width ≤ 64 := hg.width_le
  have hxRow := h.xRow_lt
  have hxCol := h.xCol_lt
  have hwCol := h.wCol_lt
  have hcontraction := h.contraction
  rw [h.leftovers] at hxRow hxCol hwCol hcontraction
  exact {
    xRows := h.xRowTiles ▸ hx
    xCols := h.colTiles ▸ hc
    wRows := h.wRowTiles ▸ hc
    wCols := h.wColTiles ▸ hw
    xRow := by omega
    xCol := by omega
    wRow := by omega
    wCol := by omega }

/-- The image of registers that hold the given words. -/
def ofWords (word : JobRegister → UInt32) : JobImage where
  xAddr := word .xAddr
  wAddr := word .wAddr
  yAddr := word .yAddr
  zAddr := word .zAddr
  xLength := word .xLength
  wLength := word .wLength
  yLength := word .yLength
  zLength := word .zLength
  wTiles := .unpack (word .wTiles)
  xTiles := .unpack (word .xTiles)
  leftovers := .unpack (word .leftovers)
  xPitch := word .xPitch
  wPitch := word .wPitch
  yzPitch := word .yzPitch

-- The fields are read with a word that is a variable. Were it `j.get`, the unpacked counts
-- would be compared with those of `j` on the way.
theorem ofWords_xLength (word : JobRegister → UInt32) :
    (ofWords word).xLength = word .xLength := rfl

theorem ofWords_yLength (word : JobRegister → UInt32) :
    (ofWords word).yLength = word .yLength := rfl

/-- Each word once, over anything. -/
theorem foldl_set (word : JobRegister → UInt32) (i : JobImage) :
    JobRegister.all.foldl (fun i r => i.set r (word r)) i = ofWords word := rfl

/-- What comes out of the registers when an image has gone in. -/
def repacked (j : JobImage) : JobImage := ofWords j.get

theorem repacked_xLength (j : JobImage) : j.repacked.xLength = j.xLength := ofWords_xLength j.get

theorem repacked_yLength (j : JobImage) : j.repacked.yLength = j.yLength := ofWords_yLength j.get

theorem Packed.repacked_eq {j : JobImage} (h : j.Packed) : j.repacked = j := by
  have hw := TileCounts.unpack_pack h.wRows h.wCols
  have hx := TileCounts.unpack_pack h.xRows h.xCols
  have hl := Leftovers.unpack_pack h.xRow h.xCol h.wRow h.wCol
  simp only [repacked, ofWords, get]
  rw [hw, hx, hl]

theorem unpack_rows_lt (word : UInt32) : (TileCounts.unpack word).rows.toNat < 0x10000 := by
  have hw := word.toNat_lt
  simp only [TileCounts.unpack, Nat.toUInt32_eq, UInt32.toNat_ofNat']
  omega

theorem unpack_cols_lt (word : UInt32) : (TileCounts.unpack word).cols.toNat < 0x10000 := by
  have hw := word.toNat_lt
  simp only [TileCounts.unpack, Nat.toUInt32_eq, UInt32.toNat_ofNat']
  omega

theorem unpack_leftovers_lt (word : UInt32) :
    (Leftovers.unpack word).xRow < 0x100 ∧ (Leftovers.unpack word).xCol < 0x100 ∧
      (Leftovers.unpack word).wRow < 0x100 ∧ (Leftovers.unpack word).wCol < 0x100 := by
  have hw := word.toNat_lt
  simp only [Leftovers.unpack]
  omega

theorem packed_repacked (j : JobImage) : j.repacked.Packed := by
  obtain ⟨h1, h2, h3, h4⟩ := unpack_leftovers_lt j.leftovers.pack
  exact {
    xRows := unpack_rows_lt _
    xCols := unpack_cols_lt _
    wRows := unpack_rows_lt _
    wCols := unpack_cols_lt _
    xRow := h1
    xCol := h2
    wRow := h3
    wCol := h4 }

theorem Packed.set {j : JobImage} (h : j.Packed) (r : JobRegister) (word : UInt32) :
    (j.set r word).Packed := by
  cases r with
  | wTiles => exact { h with wRows := unpack_rows_lt word, wCols := unpack_cols_lt word }
  | xTiles => exact { h with xRows := unpack_rows_lt word, xCols := unpack_cols_lt word }
  | leftovers =>
    obtain ⟨h1, h2, h3, h4⟩ := unpack_leftovers_lt word
    exact { h with xRow := h1, xCol := h2, wRow := h3, wCol := h4 }
  | _ => exact { h with }

end JobImage

namespace RegisterFile

/-- The registers after writes, one after the other. -/
def writeAll (f : RegisterFile) (writes : List (UInt32 × UInt32)) : RegisterFile :=
  writes.foldl (fun f w => (f.write w.1 w.2).2) f

theorem writeAll_cons (f : RegisterFile) (w : UInt32 × UInt32) (ws : List (UInt32 × UInt32)) :
    f.writeAll (w :: ws) = (f.write w.1 w.2).2.writeAll ws := rfl

theorem packed_write {f : RegisterFile} (h : f.job.Packed) (offset value : UInt32) :
    (f.write offset value).2.job.Packed := by
  unfold write
  split
  case h_7 => exact h.set _ _
  all_goals exact h

/-- **No sequence of writes leaves an image that does not fit.** -/
theorem packed_writeAll {f : RegisterFile} (h : f.job.Packed) (writes : List (UInt32 × UInt32)) :
    (f.writeAll writes).job.Packed := by
  induction writes generalizing f with
  | nil => exact h
  | cons w rest ih => exact ih (packed_write h w.1 w.2)

theorem writeAll_map (f : RegisterFile) (word : JobRegister → UInt32) (rs : List JobRegister) :
    f.writeAll (rs.map fun r => (r.offset, word r)) =
      { f with job := rs.foldl (fun i r => i.set r (word r)) f.job } := by
  induction rs generalizing f with
  | nil => rfl
  | cons r rs ih =>
    rw [List.map_cons, writeAll_cons, write_job, ih, List.foldl_cons]

/-- The writes of an image leave nothing of what the registers held. -/
theorem writeAll_writes (f : RegisterFile) (j : JobImage) :
    f.writeAll j.writes = { f with job := j.repacked } := by
  rw [JobImage.writes, writeAll_map, JobImage.foldl_set]
  rfl

/-- **An image that fits the registers comes out of them as it went in**, whatever they
held. -/
theorem job_writeAll (f : RegisterFile) {j : JobImage} (h : j.Packed) :
    (f.writeAll j.writes).job = j := by
  rw [writeAll_writes]
  exact h.repacked_eq

end RegisterFile

namespace JobImage

theorem untrapped_checkLengths (l : List (String × UInt32 × Nat)) :
    Untrapped (checkLengths l) := by
  induction l with
  | nil => exact untrapped_ok ()
  | cons c rest ih => exact (untrapped_ensure _ _).bind fun _ _ => ih

theorem untrapped_checkPitches (l : List (String × UInt32 × Nat)) :
    Untrapped (checkPitches l) := by
  induction l with
  | nil => exact untrapped_ok ()
  | cons c rest ih => exact (untrapped_ensure _ _).bind fun _ _ => ih

/-- The elements along an axis of tile counts that fit the registers. -/
theorem extent_of_lt {width tiles leftover : Nat} (hw : width ≤ 64) (ht : tiles < 0x10000)
    (hl : leftover < width) :
    ∃ v ≤ 0x400000, extent width tiles leftover = .ok v := by
  have h1 : (tiles - 1) * width ≤ (0x10000 - 1) * 64 := Nat.mul_le_mul (by omega) hw
  have h2 : finalTile width leftover ≤ width := finalTile_le hl
  exact ⟨_, by omega, extent_eq_ok_iff.mpr ⟨Nat.lt_of_le_of_lt
    (Nat.add_le_add h1 (Nat.le_trans h2 hw)) (by decide), rfl⟩⟩

theorem mul3_of_lt {a b c : Nat} (ha : a ≤ 0x400000) (hb : b < 0x10000) (hc : c < 0x10000) :
    mul3 a b c = .ok (a * b * c) := by
  have h1 : a * b ≤ 0x400000 * 0x10000 := Nat.mul_le_mul ha (Nat.le_of_lt hb)
  have h2 : a * b * c ≤ 0x400000 * 0x10000 * 0x10000 := Nat.mul_le_mul h1 (Nat.le_of_lt hc)
  exact mul3_eq_ok_iff.mpr
    ⟨Nat.lt_of_le_of_lt h1 (by decide), Nat.lt_of_le_of_lt h2 (by decide), rfl⟩

theorem mul_of_le {a b : Nat} (ha : a ≤ 0x400000) (hb : b < Word.limit32) :
    Word.mul a b = .ok (a * b) :=
  Word.mul_of_lt (Nat.lt_of_le_of_lt (Nat.mul_le_mul ha (Nat.le_of_lt hb)) (by decide))

/-- **The checks of an image that fits the registers do not trap.** -/
theorem Packed.untrapped_validate {j : JobImage} (h : j.Packed) {g : Geometry} (hg : g.Valid) :
    Untrapped (j.validate g) := by
  have hl : g.width ≤ 64 := hg.width_le
  have hl' : g.width ≤ 0x400000 := Nat.le_trans hl (by decide)
  have he := g.elementBytes_lt
  unfold validate
  refine (untrapped_liftM hg.checkedWidth).bind fun l hlw => ?_
  rw [liftM_eq_ok_iff, hg.checkedWidth] at hlw
  cases hlw
  refine (untrapped_ensure _ _).bind fun _ h1 => ?_
  refine (untrapped_ensure _ _).bind fun _ _ => ?_
  refine (untrapped_ensure _ _).bind fun _ _ => ?_
  refine (untrapped_ensure _ _).bind fun _ h4 => ?_
  rw [ensure_eq_ok_iff] at h4
  simp only [List.mem_cons, List.not_mem_nil, or_false, forall_eq_or_imp, forall_eq] at h4
  obtain ⟨n, hn, hextent⟩ := extent_of_lt hl h.xCols h4.2.1
  obtain ⟨k, hk, hextent'⟩ := extent_of_lt hl h.wCols h4.2.2.2
  simp only [hextent, hextent', mul3_of_lt hl' h.xCols h.xRows, mul3_of_lt hn h.wCols h.xRows,
    mul3_of_lt hl' h.wCols h.xRows, mul_of_le hn he, mul_of_le hk he, mul_of_le hl' he,
    mul_of_le hl' j.xPitch.toNat_lt, mul_of_le hl' j.yzPitch.toNat_lt, liftM_ok, ok_bind]
  refine (untrapped_checkLengths _).bind fun _ _ => ?_
  refine (untrapped_checkPitches _).bind fun _ _ => ?_
  exact untrapped_ok _

end JobImage

end SystolicGemm
