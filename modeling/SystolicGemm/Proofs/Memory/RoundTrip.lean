import SystolicGemm.Proofs.Floating.Quantize
import SystolicGemm.Proofs.Memory.Matrix

/-!
# Matrices written and read back

A matrix is written cell by cell and stops at the first cell that leaves the memory.
Where rows are as long as their elements need, cells do not overlap, whatever the pitch:
a later cell begins where an earlier one has ended. So what has been written stays
(`Written.next`), and at the end all of it is there to be read.
-/

namespace SystolicGemm

/-! ## Cells -/

namespace MatrixPlace

/-- Whether a byte belongs to the cell of an element. -/
def Owns (p : MatrixPlace) (i a : Nat) : Prop := p.start i ≤ a ∧ a < p.start i + p.format.bytes

/-- Whether a byte belongs to a cell of a matrix of so many elements. -/
def Covers (p : MatrixPlace) (count a : Nat) : Prop := ∃ i < count, p.Owns i a

/-- Whether rows have elements and are long enough for them. -/
structure HasRows (p : MatrixPlace) : Prop where
  cols_pos : 0 < p.cols
  row_le : p.cols * p.format.bytes ≤ p.pitch

variable {p : MatrixPlace} {i j a : Nat}

/-- **Cells follow one another**, in a row and from row to row. -/
theorem HasRows.start_add_le (h : p.HasRows) (hij : i < j) :
    p.start i + p.format.bytes ≤ p.start j := by
  have hcol := Nat.mul_le_mul_right p.format.bytes (Nat.succ_le_of_lt (Nat.mod_lt i h.cols_pos))
  rw [Nat.succ_mul] at hcol
  unfold start
  rcases Nat.lt_or_eq_of_le (Nat.div_le_div_right (c := p.cols) (Nat.le_of_lt hij)) with hrow | hrow
  · have hnext := Nat.mul_le_mul_right p.pitch (Nat.succ_le_of_lt hrow)
    have hrest := h.row_le
    rw [Nat.succ_mul] at hnext
    omega
  · -- in the same row it is the columns that follow one another
    have hi := Nat.div_add_mod i p.cols
    have hj := Nat.div_add_mod j p.cols
    rw [← hrow] at hj
    have hnext := Nat.mul_le_mul_right p.format.bytes
      (Nat.succ_le_of_lt (show i % p.cols < j % p.cols by omega))
    rw [Nat.succ_mul] at hnext
    rw [← hrow]
    omega

/-- No byte belongs to two cells. -/
theorem HasRows.owns_unique (h : p.HasRows) (hi : p.Owns i a) (hj : p.Owns j a) : i = j := by
  obtain ⟨hilo, hihi⟩ := hi
  obtain ⟨hjlo, hjhi⟩ := hj
  rcases Nat.lt_trichotomy i j with hij | hij | hij
  · have hle := h.start_add_le hij
    omega
  · exact hij
  · have hle := h.start_add_le hij
    omega

end MatrixPlace

/-! ## Memories -/

namespace Memory

variable {m m₀ m' : Memory} {p : MatrixPlace} {values : List Single} {rows i n : Nat} {v : Single}
  {raw : Bytes}

/-- Whether the cell of an element lies inside. -/
def HasCell (m : Memory) (p : MatrixPlace) (i : Nat) : Prop := ∀ a, p.Owns i a → m.Has a

theorem hasCell_iff : m.HasCell p i ↔
    m.base ≤ p.start i ∧ p.start i - m.base + p.format.bytes ≤ m.size := by
  have hpos := p.format.bytes_pos
  constructor
  · intro h
    obtain ⟨hlo, -⟩ := h (p.start i) ⟨Nat.le_refl _, by omega⟩
    obtain ⟨-, hhi⟩ := h (p.start i + (p.format.bytes - 1)) ⟨by omega, by omega⟩
    omega
  · rintro ⟨hlo, hhi⟩ a ⟨hlo', hhi'⟩
    exact ⟨by omega, by omega⟩

theorem Alike.hasCell_iff (h : m₀.Alike m) : m.HasCell p i ↔ m₀.HasCell p i := by
  rw [Memory.hasCell_iff, Memory.hasCell_iff, h.base, h.size]

theorem hasCell_of_readBytes? (h : m.readBytes? (p.start i) p.format.bytes = some raw) :
    m.HasCell p i := by
  obtain ⟨_, hoffset, -⟩ := Option.map_eq_some_iff.mp h
  exact hasCell_iff.mpr (offset?_eq_some_iff.mp hoffset).1

theorem hasCell_of_inside (h : p.Inside rows m) (hi : i < rows * p.cols) : m.HasCell p i := by
  obtain ⟨hlo, hhi⟩ := h.start_bounds hi
  rw [hasCell_iff]
  omega

/-- A cell that does not lie inside is not written. -/
theorem writeBytes?_of_not_hasCell (h : ¬ m.HasCell p i) (v : Single) :
    m.writeBytes? (p.start i) (p.format.encode v) = none := by
  rw [hasCell_iff] at h
  rw [writeBytes?, offset?, Element.length_encode, if_neg h, Option.map_none]

/-- What writing one cell does: the cell holds the value, and all else is as it was. -/
structure CellWritten (p : MatrixPlace) (i : Nat) (v : Single) (m m' : Memory) : Prop where
  cell : m'.readBytes? (p.start i) p.format.bytes = some (p.format.encode v)
  others : ∀ a, ¬ p.Owns i a → m'.byte a = m.byte a
  alike : m.Alike m'
  counted : m'.reads = m.reads ∧ m'.writes = m.writes

theorem exists_cellWritten (h : m.HasCell p i) (v : Single) :
    ∃ m', m.writeBytes? (p.start i) (p.format.encode v) = some m' ∧ CellWritten p i v m m' := by
  obtain ⟨hlo, hhi⟩ := hasCell_iff.mp h
  have hend : p.start i + (p.format.encode v).length ≤ m.base + m.size := by
    rw [Element.length_encode]
    omega
  have hwrite := writeBytes?_eq hlo hend
  refine ⟨_, hwrite, ?_, fun a ha => ?_, m.alike_write _ _, rfl, rfl⟩
  · have hread := readBytes?_writeBytes? hwrite
    rwa [Element.length_encode] at hread
  · show (if m.base ≤ a then
      (m.block.write (p.start i - m.base) (p.format.encode v)).byte (a - m.base) else 0) = m.byte a
    unfold MatrixPlace.Owns at ha
    rw [Block.byte_write, byte]
    by_cases hbase : m.base ≤ a
    · rw [if_pos hbase, if_pos hbase]
      split
      · next hin =>
        have hout : (p.format.encode v).length ≤ a - m.base - (p.start i - m.base) := by
          rw [Element.length_encode]
          omega
        rw [List.getElem?_eq_none hout, Option.getD_none]
      · rfl
    · rw [if_neg hbase, if_neg hbase]

/-- A cell reads the same where its bytes are the same. -/
theorem readBytes?_of_hasCell (h : m₀.HasCell p i) (hm : m₀.Alike m) (hm' : m₀.Alike m')
    (hbytes : ∀ a, p.Owns i a → m'.byte a = m.byte a) :
    m'.readBytes? (p.start i) p.format.bytes = m.readBytes? (p.start i) p.format.bytes := by
  have howns : ∀ k < p.format.bytes, p.Owns i (p.start i + k) := fun k hk =>
    ⟨Nat.le_add_right .., Nat.add_lt_add_left hk _⟩
  have hread : ∀ k < p.format.bytes, m.Has (p.start i + k) := fun k hk =>
    hm.hasCell_iff.mpr h _ (howns k hk)
  have hread' : ∀ k < p.format.bytes, m'.Has (p.start i + k) := fun k hk =>
    hm'.hasCell_iff.mpr h _ (howns k hk)
  rw [readBytes?_eq p.format.bytes_pos hread, readBytes?_eq p.format.bytes_pos hread',
    Option.some.injEq]
  exact List.map_congr_left fun k hk => hbytes _ (howns k (List.mem_range.mp hk))

/-! ## Writing -/

/-- The memory `m'` is `m` with the first `n` cells of a matrix written and nothing
else. -/
structure Written (p : MatrixPlace) (values : List Single) (n : Nat) (m m' : Memory) : Prop where
  inside : ∀ i < n, m.HasCell p i
  cells : ∀ i v, i < n → values[i]? = some v →
    m'.readBytes? (p.start i) p.format.bytes = some (p.format.encode v)
  others : ∀ a, (∀ i < n, ¬ p.Owns i a) → m'.byte a = m.byte a
  alike : m.Alike m'
  counted : m'.reads = m.reads ∧ m'.writes = m.writes

theorem written_zero (p : MatrixPlace) (values : List Single) (m : Memory) :
    Written p values 0 m m where
  inside i hi := absurd hi (Nat.not_lt_zero i)
  cells i _ hi := absurd hi (Nat.not_lt_zero i)
  others _ _ := rfl
  alike := .refl m
  counted := ⟨rfl, rfl⟩

/-- **One more cell leaves the ones before it alone.** -/
theorem Written.next (hp : p.HasRows) (h : Written p values n m₀ m) (hn : m₀.HasCell p n)
    (hv : values[n]? = some v) (hcell : CellWritten p n v m m') :
    Written p values (n + 1) m₀ m' where
  inside i hi := by
    rcases Nat.lt_succ_iff_lt_or_eq.mp hi with hlt | rfl
    · exact h.inside i hlt
    · exact hn
  cells i w hi hw := by
    rcases Nat.lt_succ_iff_lt_or_eq.mp hi with hlt | rfl
    · have hbytes : ∀ a, p.Owns i a → m'.byte a = m.byte a := fun a ha =>
        hcell.others a fun hna => absurd (hp.owns_unique ha hna) (Nat.ne_of_lt hlt)
      rw [readBytes?_of_hasCell (h.inside i hlt) h.alike (h.alike.trans hcell.alike) hbytes]
      exact h.cells i w hlt hw
    · rw [hv] at hw
      cases hw
      exact hcell.cell
  others a ha := by
    rw [hcell.others a (ha n (Nat.lt_succ_self n))]
    exact h.others a fun i hi => ha i (Nat.lt_succ_of_lt hi)
  alike := h.alike.trans hcell.alike
  counted := ⟨hcell.counted.1.trans h.counted.1, hcell.counted.2.trans h.counted.2⟩

/-- From any cell on, cells are written up to the first one that does not lie inside. -/
theorem Written.writeElements (hp : p.HasRows) (haddr : ∀ i < values.length, p.start i < Word.limit)
    {rest : List Single} (h : Written p values n m₀ m) (hrest : values.drop n = rest)
    (hn : n ≤ values.length) :
    ∃ ok m' k, Memory.writeElements p n rest m = .ok (ok, m') ∧ Written p values k m₀ m' ∧
      (ok = true ∧ k = values.length ∨ ok = false ∧ k < values.length ∧ ¬ m₀.HasCell p k) := by
  induction rest generalizing n m with
  | nil =>
    have hle : values.length ≤ n := List.drop_eq_nil_iff.mp hrest
    exact ⟨true, m, n, rfl, h, .inl ⟨rfl, Nat.le_antisymm hn hle⟩⟩
  | cons v rest ih =>
    have hlt : n < values.length := by
      refine Nat.lt_of_not_le fun hle => ?_
      rw [List.drop_of_length_le hle] at hrest
      cases hrest
    have hdrop := List.drop_eq_getElem_cons hlt
    rw [hrest] at hdrop
    obtain ⟨hhead, htail⟩ := List.cons.inj hdrop
    have hv : values[n]? = some v := by rw [List.getElem?_eq_getElem hlt, hhead]
    rw [Memory.writeElements, MatrixPlace.cell_eq_start hp.cols_pos (haddr n hlt), ok_bind]
    by_cases hcell : m₀.HasCell p n
    · obtain ⟨m₁, hwrite, hwritten⟩ := exists_cellWritten (h.alike.hasCell_iff.mpr hcell) v
      rw [hwrite]
      exact ih (h.next hp hcell hv hwritten) htail.symm hlt
    · rw [writeBytes?_of_not_hasCell (fun hc => hcell (h.alike.hasCell_iff.mp hc)) v]
      exact ⟨false, m, n, rfl, h, .inr ⟨rfl, hlt, hcell⟩⟩

/-- A matrix inside is written as a whole. -/
theorem writeMatrix_of_inside (hin : p.Inside rows m) (hcols : 0 < p.cols)
    (hcount : values.length = rows * p.cols) :
    ∃ m', m.writeMatrix p values = .ok (true, m') ∧ Written p values values.length m m' := by
  have haddr : ∀ i < values.length, p.start i < Word.limit := fun i hi =>
    hin.start_lt (hcount ▸ hi)
  obtain ⟨ok, m', n, hwrite, hwritten, ⟨rfl, rfl⟩ | ⟨-, hlt, hout⟩⟩ :=
    (written_zero p values m).writeElements ⟨hcols, hin.row_le⟩ haddr List.drop_zero (Nat.zero_le _)
  · exact ⟨m', hwrite, hwritten⟩
  · exact absurd (hasCell_of_inside hin (hcount ▸ hlt)) hout

/-! ## Reading -/

/-- Whether the cells of a matrix hold the values. -/
def Holds (m : Memory) (p : MatrixPlace) (values : List Single) : Prop :=
  ∀ i v, values[i]? = some v → m.readBytes? (p.start i) p.format.bytes = some (p.format.encode v)

theorem Written.holds (h : Written p values values.length m₀ m) : m.Holds p values :=
  fun i v hv => h.cells i v (List.getElem?_eq_some_iff.mp hv).1 hv

/-- **Where no cell is written to, all of them hold what they held.** -/
theorem Holds.keep (h : m.Holds p values) (hm : m.Alike m')
    (hbytes : ∀ a, p.Covers values.length a → m'.byte a = m.byte a) : m'.Holds p values := by
  intro i v hv
  have hlt := (List.getElem?_eq_some_iff.mp hv).1
  rw [readBytes?_of_hasCell (hasCell_of_readBytes? (h i v hv)) (.refl m) hm
    fun a ha => hbytes a ⟨i, hlt, ha⟩]
  exact h i v hv

/-- What cells hold is read, from any of them on. -/
theorem Holds.readElements (hp : p.HasRows) (haddr : ∀ i < values.length, p.start i < Word.limit)
    (h : m.Holds p values) {count : Nat} (hcount : i + count = values.length) :
    m.readElements p count i = .ok (some ((values.drop i).map p.format.quantize)) := by
  induction count generalizing i with
  | zero =>
    rw [Nat.add_zero] at hcount
    rw [List.drop_of_length_le (Nat.le_of_eq hcount.symm)]
    rfl
  | succ count ih =>
    have hlt : i < values.length := by omega
    have hread := h i values[i] (List.getElem?_eq_getElem hlt)
    rw [Memory.readElements, MatrixPlace.cell_eq_start hp.cols_pos (haddr i hlt), ok_bind, hread]
    simp only []
    rw [ih (i := i + 1) (by omega), ok_bind, List.drop_eq_getElem_cons hlt, List.map_cons,
      Element.decode_encode]
    rfl

theorem Holds.readMatrix (h : m.Holds p values) (hp : p.HasRows)
    (hcount : values.length = rows * p.cols)
    (haddr : ∀ i < values.length, p.start i < Word.limit)
    (hlength : 4 * values.length < Word.halfLimit) :
    m.readMatrix p rows = .ok (some (values.map p.format.quantize)) := by
  have hmul : Word.mul rows p.cols = .ok values.length := by
    rw [hcount]
    refine Word.mul_of_lt ?_
    have hwords : Word.halfLimit < Word.limit := by decide
    omega
  rw [Memory.readMatrix, hmul, ok_bind, Word.capacity_of_lt hlength, ok_bind,
    h.readElements hp haddr (Nat.zero_add _), List.drop_zero]

/-- **What is written to a matrix is read back.** Where rows hold their elements, no address
leaves a word and the values fit half the address space, as those of any buffer do, writing
says whether all cells lie inside, and has written those before the first one that does not,
and nothing else. If there was none, reading gives the values as the format holds them, of
which a NaN is still one. -/
theorem writeMatrix_readMatrix (hp : p.HasRows) (hcount : values.length = rows * p.cols)
    (haddr : ∀ i < values.length, p.start i < Word.limit)
    (hlength : 4 * values.length < Word.halfLimit) :
    ∃ ok m' n, m.writeMatrix p values = .ok (ok, m') ∧ Written p values n m m' ∧
      (ok = true ↔ ∀ i < values.length, m.HasCell p i) ∧
      (ok = true → n = values.length ∧
        m'.readMatrix p rows = .ok (some (values.map p.format.quantize))) ∧
      (ok = false → n < values.length ∧ ¬ m.HasCell p n) ∧
      ∀ v ∈ values, v.isNaN = true → (p.format.quantize v).isNaN = true := by
  obtain ⟨ok, m', n, hwrite, hwritten, hend⟩ :=
    (written_zero p values m).writeElements hp haddr List.drop_zero (Nat.zero_le _)
  refine ⟨ok, m', n, hwrite, hwritten, ?_, ?_, ?_, fun v _ => Element.isNaN_quantize⟩
  · rcases hend with ⟨rfl, rfl⟩ | ⟨rfl, hlt, hout⟩
    · exact ⟨fun _ => hwritten.inside, fun _ => rfl⟩
    · refine ⟨fun hno => ?_, fun hall => absurd (hall n hlt) hout⟩
      cases hno
  · intro hok
    obtain rfl : n = values.length := by
      rcases hend with ⟨-, heq⟩ | ⟨hno, -⟩
      · exact heq
      · rw [hok] at hno
        cases hno
    exact ⟨rfl, hwritten.holds.readMatrix hp hcount haddr hlength⟩
  · intro hno
    rcases hend with ⟨hok, -⟩ | ⟨-, hlt, hout⟩
    · rw [hok] at hno
      cases hno
    · exact ⟨hlt, hout⟩

/-- Two rows of three elements in half precision, with a gap of two bytes after each. -/
def gapped : MatrixPlace := ⟨0x10, 3, 8, .fp16⟩

/-- One, a number that is rounded, one that is too large, one that is subnormal, a NaN, and
minus one. -/
def samples : List Single :=
  [0x3F800000, 0x40490FDB, 0x477FF000, 0x33800000, 0x7F800001, 0xBF800000].map (.ofBits .single)

/-- The last row needs no gap behind it: the matrix fits a memory that ends there. -/
theorem writeMatrix_readMatrix_gapped :
    gapped.HasRows ∧ samples.length = 2 * gapped.cols ∧
    (∀ i < samples.length, gapped.start i < Word.limit) ∧
    4 * samples.length < Word.halfLimit ∧
    ∃ m', (zeroed 0x10 14 0).writeMatrix gapped samples = .ok (true, m') ∧
      m'.readMatrix gapped 2 = .ok (some (samples.map Element.fp16.quantize)) := by
  have hp : gapped.HasRows := ⟨by decide, by decide⟩
  have haddr : ∀ i < samples.length, gapped.start i < Word.limit := by decide
  have hcells : ∀ i < samples.length,
      0x10 ≤ gapped.start i ∧ gapped.start i - 0x10 + gapped.format.bytes ≤ 14 := by decide
  have hcount : samples.length = 2 * gapped.cols := rfl
  obtain ⟨ok, m', n, hwrite, -, hinside, hread, -⟩ :=
    writeMatrix_readMatrix (m := zeroed 0x10 14 0) hp hcount haddr (by decide)
  obtain rfl : ok = true := hinside.mpr fun i hi => hasCell_iff.mpr (hcells i hi)
  exact ⟨hp, hcount, haddr, by decide, m', hwrite, (hread rfl).2⟩

end Memory

end SystolicGemm
