import SystolicGemm.Geometry
import SystolicGemm.Job.Layout

/-!
# Job images

A job as its driver describes it, one field per register. Two registers hold
several numbers: tile counts have 16 bits each and leftovers eight, so that an
image with larger ones does not survive the way through the registers.
-/

namespace SystolicGemm

/-- Valid elements in the final tile of each axis, where zero is a full tile. -/
structure Leftovers where
  xRow : Nat
  xCol : Nat
  wRow : Nat
  wCol : Nat
  deriving DecidableEq, Repr, Inhabited

/-- Tiles along the rows and the columns of an operand. -/
structure TileCounts where
  rows : UInt32
  cols : UInt32
  deriving DecidableEq, Repr, Inhabited

/-- A job, one field per register. Lengths count beats, pitches are in bytes. -/
structure JobImage where
  xAddr : UInt32
  wAddr : UInt32
  yAddr : UInt32
  zAddr : UInt32
  xLength : UInt32
  wLength : UInt32
  yLength : UInt32
  zLength : UInt32
  wTiles : TileCounts
  xTiles : TileCounts
  leftovers : Leftovers
  xPitch : UInt32
  wPitch : UInt32
  yzPitch : UInt32
  deriving DecidableEq, Repr, Inhabited

namespace Leftovers

/-- No axis has a partial tile. -/
def none : Leftovers := ⟨0, 0, 0, 0⟩

/-- The register word, of which each leftover fills a byte. -/
def pack (l : Leftovers) : UInt32 :=
  Word.low32 <|
    l.xRow % 0x100 * 0x1000000 + l.xCol % 0x100 * 0x10000 + l.wRow % 0x100 * 0x100 +
      l.wCol % 0x100

/-- The leftovers in a register word. -/
def unpack (word : UInt32) : Leftovers :=
  let w := word.toNat
  ⟨w / 0x1000000, w / 0x10000 % 0x100, w / 0x100 % 0x100, w % 0x100⟩

/-- The record in messages. -/
def describe (l : Leftovers) : String :=
  s!"Leftovers \x7b x_row: {l.xRow}, x_col: {l.xCol}, w_row: {l.wRow}, w_col: {l.wCol} \x7d"

theorem pack_unpack (word : UInt32) : (unpack word).pack = word := by
  have hw := word.toNat_lt
  apply UInt32.toNat_inj.mp
  simp only [pack, unpack, Word.low32, Nat.toUInt32_eq, UInt32.toNat_ofNat']
  omega

/-- Leftovers survive the way through the register if a byte holds each. -/
theorem unpack_pack {l : Leftovers} (h1 : l.xRow < 0x100) (h2 : l.xCol < 0x100)
    (h3 : l.wRow < 0x100) (h4 : l.wCol < 0x100) : unpack l.pack = l := by
  obtain ⟨xRow, xCol, wRow, wCol⟩ := l
  dsimp only at h1 h2 h3 h4
  have h : (pack ⟨xRow, xCol, wRow, wCol⟩).toNat =
      xRow * 0x1000000 + xCol * 0x10000 + wRow * 0x100 + wCol := by
    simp only [pack, Word.low32, Nat.toUInt32_eq, UInt32.toNat_ofNat']
    omega
  simp only [unpack, h, mk.injEq]
  omega

end Leftovers

namespace TileCounts

/-- The register word, of which each count fills a half. -/
def pack (t : TileCounts) : UInt32 :=
  Word.low32 (t.rows.toNat % 0x10000 * 0x10000 + t.cols.toNat % 0x10000)

/-- The counts in a register word. -/
def unpack (word : UInt32) : TileCounts :=
  ⟨(word.toNat / 0x10000).toUInt32, (word.toNat % 0x10000).toUInt32⟩

/-- The record in messages. -/
def describe (t : TileCounts) : String :=
  s!"TileIters \x7b rows: {t.rows}, cols: {t.cols} \x7d"

theorem pack_unpack (word : UInt32) : (unpack word).pack = word := by
  have hw := word.toNat_lt
  apply UInt32.toNat_inj.mp
  simp only [pack, unpack, Word.low32, Nat.toUInt32_eq, UInt32.toNat_ofNat']
  omega

/-- Counts survive the way through the register if half a word holds each. -/
theorem unpack_pack {t : TileCounts} (hr : t.rows.toNat < 0x10000)
    (hc : t.cols.toNat < 0x10000) : unpack t.pack = t := by
  obtain ⟨rows, cols⟩ := t
  dsimp only at hr hc
  have h : (pack ⟨rows, cols⟩).toNat = rows.toNat * 0x10000 + cols.toNat := by
    simp only [pack, Word.low32, Nat.toUInt32_eq, UInt32.toNat_ofNat']
    omega
  have h1 : (rows.toNat * 0x10000 + cols.toNat) / 0x10000 = rows.toNat := by omega
  have h2 : (rows.toNat * 0x10000 + cols.toNat) % 0x10000 = cols.toNat := by omega
  simp only [unpack, h, h1, h2, Nat.toUInt32_eq, UInt32.ofNat_toNat]

end TileCounts

namespace JobImage

/-- The image after reset. -/
def blank : JobImage :=
  ⟨0, 0, 0, 0, 0, 0, 0, 0, ⟨0, 0⟩, ⟨0, 0⟩, .none, 0, 0, 0⟩

/-- The number of tiles of width `l` that cover `a` elements. -/
def tilesOver (a l : Nat) : Checked Nat := do
  Word.div (← Word.sub (← Word.add a l) 1) l

/-- The image with which a driver asks for a problem on the given array. -/
def ofShape (shape : Shape) (g : Geometry) (layout : Layout) : Checked JobImage := do
  let l ← g.checkedWidth
  let xRows := Word.low32 (← tilesOver shape.m l)
  let cols := Word.low32 (← tilesOver shape.n l)
  let wCols := Word.low32 (← tilesOver shape.k l)
  let leftovers : Leftovers := {
    xRow := ← Word.rem shape.m l
    xCol := ← Word.rem shape.n l
    wRow := ← Word.rem shape.n l
    wCol := ← Word.rem shape.k l }
  let beats := Word.low32 l
  let yzLength ← Word.mul32 (← Word.mul32 beats wCols) xRows
  let xLength ← Word.mul32 (← Word.mul32 beats cols) xRows
  let wLength ← Word.mul32 (← Word.mul32 (Word.low32 shape.n) wCols) xRows
  return {
    xAddr := layout.xAddr
    wAddr := layout.wAddr
    yAddr := layout.yAddr
    zAddr := layout.zAddr
    xLength, wLength
    yLength := yzLength
    zLength := yzLength
    wTiles := ⟨cols, wCols⟩
    xTiles := ⟨xRows, cols⟩
    leftovers
    xPitch := layout.xPitch
    wPitch := layout.wPitch
    yzPitch := layout.yzPitch }

/-- The record in simulation records. -/
def describe (j : JobImage) : String :=
  String.join [
    "JobConfig \x7b ",
    s!"x_addr: {j.xAddr}, w_addr: {j.wAddr}, y_addr: {j.yAddr}, z_addr: {j.zAddr}, ",
    s!"x_tot_len: {j.xLength}, w_tot_len: {j.wLength}, ",
    s!"y_tot_len: {j.yLength}, z_tot_len: {j.zLength}, ",
    s!"w_iters: {j.wTiles.describe}, x_iters: {j.xTiles.describe}, ",
    s!"leftovers: {j.leftovers.describe}, ",
    s!"x_stride: {j.xPitch}, w_stride: {j.wPitch}, yz_stride: {j.yzPitch} \x7d"]

end JobImage

end SystolicGemm
