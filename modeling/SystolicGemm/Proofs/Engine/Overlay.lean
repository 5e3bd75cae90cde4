import SystolicGemm.Proofs.Engine.Cells
import SystolicGemm.Proofs.Memory.Beat

/-!
# Results laid over a memory

While a job runs, its memory is the initial one with the beats of Z that are done
laid over it (`Overlaid`). When all of them are done, every cell of Z holds its
element of the product and every other byte is what it was (`Computes`).

What the job reads stays the initial memory as long as nothing is read after Z
has been written over it (`Undisturbed`). Z that shares no cell with the other
matrices is one way to have that. Z in the place of Y is another.
-/

namespace SystolicGemm

namespace Plan

/-- Whether a memory has all cells of a job. -/
def Inside (p : Plan) (g : Geometry) (m : Memory) : Prop :=
  ∀ o r i, r < p.rows g.width o → i < p.cols o * g.elementBytes → m.Has (p.rowAddr o r i)

/-- Whether the cells of an operand's matrix share no byte with those of Z. -/
def Apart (p : Plan) (g : Geometry) (o : Operand) : Prop :=
  ∀ r i r' i', r < p.rows g.width o → i < p.cols o * g.elementBytes → r' < p.rows g.width .z →
    i' < p.cols .z * g.elementBytes → p.rowAddr o r i ≠ p.rowAddr .z r' i'

/-- Whether no beat reads a byte that a beat of Z has written before. Of the beats
of Y only those count that come after that beat of Z. -/
def Undisturbed (p : Plan) (g : Geometry) : Prop :=
  ∀ o b i u j, o ≠ .z → b < p.beats g.width o → u < p.beats g.width .z → (o = .y → u < b) →
    i < g.beatBytes → j < g.beatBytes → p.Covers g o b i → p.Covers g .z u j →
    p.addr g o b + i ≠ p.addr g .z u + j

/-- A memory with the first beats of Z laid over it. -/
structure Overlaid (p : Plan) (g : Geometry) (m₀ m : Memory) (done : Nat) : Prop where
  base : m.base = m₀.base
  size : m.size = m₀.size
  latency : m.latency = m₀.latency
  written : ∀ b < done, ∀ i < g.beatBytes, p.Covers g .z b i →
    m.byte (p.addr g .z b + i) = (p.beatResult g m₀ b)[i]?.getD 0
  kept : ∀ a, (∀ b < done, ∀ i < g.beatBytes, p.Covers g .z b i → p.addr g .z b + i ≠ a) →
    m.byte a = m₀.byte a

theorem overlaid_zero (p : Plan) (g : Geometry) (m : Memory) : p.Overlaid g m m 0 :=
  ⟨rfl, rfl, rfl, fun _ hb => absurd hb (Nat.not_lt_zero _), fun _ _ => rfl⟩

theorem Overlaid.inside {p : Plan} {g : Geometry} {m₀ m : Memory} {done : Nat}
    (h : p.Overlaid g m₀ m done) (hin : p.Inside g m₀) : p.Inside g m := by
  intro o r i hr hi
  obtain ⟨h1, h2⟩ := hin o r i hr hi
  exact ⟨h.base ▸ h1, h.base ▸ h.size ▸ h2⟩

/-- Whether a memory holds the product in the cells of Z and is otherwise as it
was: `m₀` is what it was, and what the product is of. -/
structure Computes (p : Plan) (g : Geometry) (m₀ m : Memory) : Prop where
  base : m.base = m₀.base
  size : m.size = m₀.size
  cells : ∀ r c, r < p.m g.width → c < p.k →
    m.readBytes? (p.rowAddr .z r (c * g.elementBytes)) g.elementBytes =
      some (g.format.encode (p.gemm g m₀ r c))
  others : ∀ a, (∀ r i, r < p.m g.width → i < p.k * g.elementBytes → p.rowAddr .z r i ≠ a) →
    m.byte a = m₀.byte a

/-- All matrices but W are walked in square tiles. -/
theorem lines_of_ne {p : Plan} {l : Nat} {o : Operand} (ho : o ≠ .w) : p.lines l o = l := by
  cases o
  case w => exact absurd rfl ho
  all_goals rfl

/-- The beat that holds column `c` of row `r`: tiles row by row, and the rows of
each tile one after the other. -/
def beatAt (p : Plan) (l : Nat) (o : Operand) (r c : Nat) : Nat :=
  (r / l * p.columns o + c / l) * l + r % l

namespace Sound

variable {p : Plan} {g : Geometry} (hp : p.Sound g)

include hp

/-- Cells of a matrix share no bytes. -/
theorem rowAddr_inj {o : Operand} {r i r' i' : Nat} (hi : i < p.cols o * g.elementBytes)
    (hi' : i' < p.cols o * g.elementBytes) (h : p.rowAddr o r i = p.rowAddr o r' i') :
    r = r' ∧ i = i' := by
  -- a row is no longer than the pitch, so rows do not overlap
  have hpitch := hp.row_le o
  have hsum : r * p.pitch o + i = r' * p.pitch o + i' := by
    simp only [rowAddr, Nat.add_assoc] at h
    exact Nat.add_left_cancel h
  rcases Nat.lt_trichotomy r r' with hlt | heq | hgt
  · have hmul := Nat.mul_le_mul_right (p.pitch o) (Nat.succ_le_of_lt hlt)
    rw [Nat.succ_mul] at hmul
    omega
  · subst heq
    exact ⟨rfl, Nat.add_left_cancel hsum⟩
  · have hmul := Nat.mul_le_mul_right (p.pitch o) (Nat.succ_le_of_lt hgt)
    rw [Nat.succ_mul] at hmul
    omega

/-- Row and tile column tell the beats of a matrix apart. -/
theorem eq_of_row_column {o : Operand} (ho : o ≠ .w) {b b' : Nat}
    (hrow : p.row g.width o b = p.row g.width o b')
    (hcolumn : p.column g.width o b = p.column g.width o b') : b = b' := by
  have hl := hp.width_pos
  -- every matrix but W is walked block by block
  have hbase : ∀ c, p.row g.width o c = c / g.width / p.columns o * g.width + c % g.width := by
    intro c
    cases o
    case w => exact absurd rfl ho
    all_goals rfl
  rw [hbase, hbase] at hrow
  rw [column, column, lines_of_ne ho] at hcolumn
  obtain ⟨hblock, hline⟩ :=
    div_mod_of_lt (q := b / g.width / p.columns o) (Nat.mod_lt b hl)
  obtain ⟨hblock', hline'⟩ :=
    div_mod_of_lt (q := b' / g.width / p.columns o) (Nat.mod_lt b' hl)
  rw [hrow, hblock'] at hblock
  rw [hrow, hline'] at hline
  have htile : b / g.width = b' / g.width := by
    rw [← Nat.div_add_mod (b / g.width) (p.columns o), ← hblock, hcolumn, Nat.div_add_mod]
  rw [← Nat.div_add_mod b g.width, htile, ← hline, Nat.div_add_mod]

/-- **Beats of a matrix share no bytes.** -/
theorem covers_inj {o : Operand} (ho : o ≠ .w) {b i b' i' : Nat} (hi : i < g.beatBytes)
    (hi' : i' < g.beatBytes) (hb : p.Covers g o b i) (hb' : p.Covers g o b' i')
    (h : p.addr g o b + i = p.addr g o b' + i') : b = b' ∧ i = i' := by
  rw [addr_add, addr_add] at h
  obtain ⟨hrow, hbyte⟩ := hp.rowAddr_inj hb.2 hb'.2 h
  obtain ⟨hcolumn, hoffset⟩ := div_mod_of_lt (q := p.column g.width o b) hi
  obtain ⟨hcolumn', hoffset'⟩ := div_mod_of_lt (q := p.column g.width o b') hi'
  rw [hbyte, hcolumn'] at hcolumn
  rw [hbyte, hoffset'] at hoffset
  exact ⟨hp.eq_of_row_column ho hrow hcolumn.symm, hoffset.symm⟩

/-- Every cell is in one of the beats. -/
theorem beatAt_spec {o : Operand} (ho : o ≠ .w) {r c : Nat} (hr : r < p.rows g.width o)
    (hc : c < p.cols o) :
    p.beatAt g.width o r c < p.beats g.width o ∧ p.row g.width o (p.beatAt g.width o r c) = r ∧
      p.column g.width o (p.beatAt g.width o r c) * g.width + c % g.width = c := by
  have hl := hp.width_pos
  have hrow := hp.rows_le o
  rw [if_neg ho] at hrow
  have hcol := hp.cols_mul_le o
  rw [Geometry.beatBytes, ← Nat.mul_assoc] at hcol
  have hcol := Nat.le_of_mul_le_mul_right hcol g.elementBytes_pos
  have hlines : p.lines g.width o = g.width := lines_of_ne ho
  have hline : r % g.width < p.lines g.width o := by
    rw [hlines]
    exact Nat.mod_lt _ hl
  have hblock : r / g.width < p.xRowTiles :=
    Nat.div_lt_of_lt_mul (Nat.mul_comm g.width _ ▸ Nat.lt_of_lt_of_le hr hrow)
  have hcolumn : c / g.width < p.columns o :=
    Nat.div_lt_of_lt_mul (Nat.mul_comm g.width _ ▸ Nat.lt_of_lt_of_le hc hcol)
  obtain ⟨h1, h2⟩ := p.row_column (r := r / g.width) hline hcolumn
  have hlt := p.beat_lt hline hcolumn hblock
  rw [hlines, if_neg ho, Nat.div_add_mod'] at h1
  rw [hlines] at h2 hlt
  exact ⟨hlt, h1, by rw [beatAt, h2, Nat.div_add_mod']⟩

/-- The beat of an element of a beat is that beat. -/
theorem beatAt_row_column {o : Operand} (ho : o ≠ .w) {b j : Nat}
    (hr : p.row g.width o b < p.rows g.width o)
    (hc : p.column g.width o b * g.width + j < p.cols o) (hj : j < g.width) :
    p.beatAt g.width o (p.row g.width o b) (p.column g.width o b * g.width + j) = b := by
  obtain ⟨-, hrow, hcolumn⟩ := hp.beatAt_spec ho hr hc
  obtain ⟨hdiv, hmod⟩ := div_mod_of_lt (q := p.column g.width o b) hj
  rw [hmod] at hcolumn
  exact hp.eq_of_row_column ho hrow
    (Nat.eq_of_mul_eq_mul_right hp.width_pos (Nat.add_right_cancel hcolumn))

end Sound

variable {p : Plan} {g : Geometry}

/-! ## Matrices that are kept apart -/

/-- Bytes of beats are bytes of cells. -/
theorem Apart.addr_ne {o : Operand} (h : p.Apart g o) {b i u j : Nat} (hb : p.Covers g o b i)
    (hu : p.Covers g .z u j) : p.addr g o b + i ≠ p.addr g .z u + j := by
  rw [addr_add, addr_add]
  exact h _ _ _ _ hb.1 hb.2 hu.1 hu.2

theorem undisturbed_of_apart (h : ∀ o, o ≠ .z → p.Apart g o) : p.Undisturbed g :=
  fun o _ _ _ _ ho _ _ _ _ _ hb hu => (h o ho).addr_ne hb hu

/-- **Z in the place of Y disturbs no beat.** A beat of Y shares bytes with its
namesake of Z only, and that one comes after it. -/
theorem Sound.undisturbed_of_inPlace (hp : p.Sound g) (hbase : p.y.base = p.z.base)
    (hpitch : p.pitch .y = p.pitch .z) (hx : p.Apart g .x) (hw : p.Apart g .w) :
    p.Undisturbed g := by
  intro o b i u j ho _ _ hy hi hj hb hu
  cases o with
  | x => exact hx.addr_ne hb hu
  | w => exact hw.addr_ne hb hu
  | z => exact absurd rfl ho
  | y =>
    -- with one base and one pitch, beats of the same number start at the same byte
    have haddr : p.addr g .y b = p.addr g .z b := by
      rw [addr, addr, hpitch]
      exact congrArg (· + _ + _) hbase
    intro heq
    rw [haddr] at heq
    exact Nat.ne_of_gt (hy rfl) (hp.covers_inj (o := .z) (by decide) hi hj hb hu heq).1

/-! ## All beats of Z -/

/-- An element of a beat of Z. -/
theorem getElem?_beatResult {m : Memory} (b : Nat) {j i : Nat} (hj : j < g.width)
    (hi : i < g.elementBytes) :
    (p.beatResult g m b)[j * g.elementBytes + i]? =
      (g.format.encode (p.accumulated g (p.paddedCell g m) (p.row g.width .z b)
        (p.column g.width .z b * g.width + j)))[i]? :=
  getElem?_flatMap_range _ (fun _ => Element.length_encode ..) hj hi

/-- **A cell of which the beat is done holds its element of the product**, in a
memory that has the bytes of the beats done. -/
theorem Overlaid.cell (hp : p.Sound g) {m₀ m : Memory} {done : Nat} (h : p.Overlaid g m₀ m done)
    (hhas : ∀ b < done, ∀ i < g.beatBytes, p.Covers g .z b i → m.Has (p.addr g .z b + i))
    {r c : Nat} (hr : r < p.m g.width) (hc : c < p.k) (hdone : p.beatAt g.width .z r c < done) :
    m.readBytes? (p.rowAddr .z r (c * g.elementBytes)) g.elementBytes =
      some (g.format.encode (p.gemm g m₀ r c)) := by
  obtain ⟨-, hrow, hcol⟩ := hp.beatAt_spec (o := .z) (by decide) hr hc
  have hj : c % g.width < g.width := Nat.mod_lt _ hp.width_pos
  generalize p.beatAt g.width .z r c = b at hdone hrow hcol
  generalize c % g.width = j at hcol hj
  -- byte `i` of the cell is byte `j * elementBytes + i` of its beat
  have hplace : ∀ i < g.elementBytes, p.Covers g .z b (j * g.elementBytes + i) ∧
      p.rowAddr .z r (c * g.elementBytes) + i = p.addr g .z b + (j * g.elementBytes + i) := by
    intro i hi
    have hcolumn : p.column g.width .z b * g.beatBytes + (j * g.elementBytes + i) =
        c * g.elementBytes + i := by
      rw [← hcol, Geometry.beatBytes, Nat.add_mul, Nat.mul_assoc, Nat.add_assoc]
    refine ⟨⟨hrow ▸ hr, hcolumn ▸ rowMajor_lt hc hi⟩, ?_⟩
    rw [addr_add, hrow, hcolumn]
    exact Nat.add_assoc ..
  have hbyte : ∀ i < g.elementBytes, m.byte (p.rowAddr .z r (c * g.elementBytes) + i) =
      (g.format.encode (p.gemm g m₀ r c))[i]?.getD 0 := by
    intro i hi
    obtain ⟨hcovers, haddr⟩ := hplace i hi
    rw [haddr, h.written b hdone _ (rowMajor_lt hj hi) hcovers,
      getElem?_beatResult b hj hi, hrow, hcol, accumulated_padded hr hc]
  have hin : ∀ i < g.elementBytes, m.Has (p.rowAddr .z r (c * g.elementBytes) + i) := by
    intro i hi
    obtain ⟨hcovers, haddr⟩ := hplace i hi
    rw [haddr]
    exact hhas b hdone _ (rowMajor_lt hj hi) hcovers
  rw [Memory.readBytes?_eq g.elementBytes_pos hin, Option.some.injEq]
  have hlength : (g.format.encode (p.gemm g m₀ r c)).length = g.elementBytes :=
    Element.length_encode ..
  refine List.ext_getElem (by simp [hlength]) fun i hi hi' => ?_
  have hlt : i < g.elementBytes := by simpa using hi
  rw [List.getElem_map, List.getElem_range, hbyte i hlt, List.getElem?_eq_getElem hi']
  rfl

/-- **With all beats of Z laid over it, a memory holds the product.** -/
theorem Overlaid.computes (hp : p.Sound g) {m₀ m : Memory} (hin : p.Inside g m₀)
    (h : p.Overlaid g m₀ m (p.beats g.width .z)) : p.Computes g m₀ m where
  base := h.base
  size := h.size
  cells := by
    intro r c hr hc
    refine h.cell hp (fun b _ i _ hcovers => ?_) hr hc
      (hp.beatAt_spec (o := .z) (by decide) hr hc).1
    rw [addr_add]
    exact h.inside hin .z _ _ hcovers.1 hcovers.2
  others := by
    intro a ha
    refine h.kept a fun b _ i _ hc => ?_
    rw [addr_add]
    exact ha _ _ hc.1 hc.2

/-! ## The job with a leftover on every axis -/

/-- Where its cells lie. -/
theorem rowAddr_ragged {yAddr zAddr : Nat} {o : Operand} {r i : Nat}
    (hr : r < (ragged yAddr zAddr).rows Geometry.narrow.width o)
    (hi : i < (ragged yAddr zAddr).cols o * Geometry.narrow.elementBytes) :
    ((ragged yAddr zAddr).pattern o).base ≤ (ragged yAddr zAddr).rowAddr o r i ∧
      (ragged yAddr zAddr).rowAddr o r i < ((ragged yAddr zAddr).pattern o).base + 0x90 := by
  have hrows : (ragged yAddr zAddr).m Geometry.narrow.width = 7 := rfl
  have hbytes : Geometry.narrow.elementBytes = 2 := rfl
  cases o <;> simp only [rows, hrows, cols, hbytes, rowAddr, pattern, pitch] at hr hi ⊢ <;>
    simp only [ragged] at hr hi ⊢ <;> omega

theorem inside_ragged {yAddr zAddr : Nat} {m : Memory} (hbase : m.base = 0) (hsize : m.size = 0x400)
    (hy : yAddr ≤ 0x300) (hz : zAddr ≤ 0x300) : (ragged yAddr zAddr).Inside .narrow m := by
  intro o r i hr hi
  obtain ⟨-, hlt⟩ := rowAddr_ragged hr hi
  have hle : ((ragged yAddr zAddr).pattern o).base ≤ 0x300 := by
    cases o
    exacts [(by decide : 0 ≤ 0x300), (by decide : 0x100 ≤ 0x300), hy, hz]
  rw [Memory.Has, hbase, hsize]
  omega

theorem apart_ragged {yAddr zAddr : Nat} {o : Operand}
    (h : ((ragged yAddr zAddr).pattern o).base + 0x90 ≤ zAddr) :
    (ragged yAddr zAddr).Apart .narrow o := by
  intro r i r' i' hr hi hr' hi'
  have hlt := (rowAddr_ragged hr hi).2
  have hle : zAddr ≤ _ := (rowAddr_ragged hr' hi').1
  omega

/-- With Y in its own place, Z is apart from all others. -/
theorem apart_ragged_of_ne {o : Operand} (ho : o ≠ .z) : (ragged 0x200 0x300).Apart .narrow o := by
  refine apart_ragged ?_
  cases o
  case z => exact absurd rfl ho
  all_goals decide

end Plan

/-- The trie of the bytes that a function has at the indices of `depth` bits. -/
def ByteTrie.ofFn : (depth : Nat) → (Nat → UInt8) → ByteTrie
  | 0, f => leaf (f 0)
  | depth + 1, f => node (ofFn depth f) (ofFn depth fun i => f (i + 2 ^ depth))

/-- A memory with room for it that is full of half precision numbers: 1, 1.125, 1.25, 1.375
and 1.5 in turn. -/
def Memory.filled (latency : Nat) : Memory :=
  { Memory.zeroed 0 0x400 latency with
    block := ⟨0x400, .ofFn 11 fun i => ((0x3C00 + i / 2 % 5 * 0x80) >>> (i % 2 * 8)).toUInt8⟩ }

end SystolicGemm
