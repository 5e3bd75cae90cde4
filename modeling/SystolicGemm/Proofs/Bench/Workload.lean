import SystolicGemm.Bench.Workload
import SystolicGemm.Proofs.Floating.Stored
import SystolicGemm.Proofs.Memory.RoundTrip
import SystolicGemm.Proofs.Settings.Accepted

/-!
# Workloads of accepted configurations

A configuration that is accepted has operands for its problem, and they fit its memory.
Each matrix that is written leaves the bytes alone that none of its cells has. So where the
regions of the operands are apart, all three are in memory as they were drawn
(`store_of_accepted`), and they are apart unless an address is given (`apart_of_layout`).
-/

namespace SystolicGemm

/-! ## Operands -/

namespace Operands

theorem length_draw (e : Element) (count : Nat) (s : Sampler) (drawn : List Single) :
    (draw e count s drawn).1.length = drawn.length + count := by
  induction count generalizing s drawn with
  | zero => exact List.length_reverse
  | succ count ih =>
    rw [draw, ih, List.length_cons]
    omega

/-- What is drawn has been through the format already. -/
theorem map_quantize_draw {e : Element} {count : Nat} {s : Sampler} {drawn : List Single}
    (h : drawn.map e.quantize = drawn) :
    (draw e count s drawn).1.map e.quantize = (draw e count s drawn).1 := by
  induction count generalizing s drawn with
  | zero => rw [draw, List.map_reverse, h]
  | succ count ih =>
    rw [draw]
    generalize s.step = sampled
    obtain ⟨v, s'⟩ := sampled
    apply ih
    rw [List.map_cons, Element.quantize_quantize, h]

theorem area_of_le {rows cols : Nat} (hrows : rows ≤ 0x400000) (hcols : cols ≤ 0x400000) :
    area rows cols = .ok (rows * cols) := by
  have hle : rows * cols ≤ 0x400000 * 0x400000 := Nat.mul_le_mul hrows hcols
  have hlimit : 4 * (0x400000 * 0x400000) < Word.halfLimit := by decide
  have hhalf : Word.halfLimit < Word.limit := by decide
  rw [area, Word.mul_of_lt (by omega), ok_bind, Word.capacity_of_lt (by omega)]
  rfl

/-- Whether operands are those of a problem, element for element. -/
structure Fill (ops : Operands) (s : Shape) : Prop where
  x : ops.x.size = s.m * s.n
  w : ops.w.size = s.n * s.k
  y : ops.y.size = s.m * s.k

/-- Whether the element format holds operands exactly. -/
structure Exact (ops : Operands) (e : Element) : Prop where
  x : ops.x.toList.map e.quantize = ops.x.toList
  w : ops.w.toList.map e.quantize = ops.w.toList
  y : ops.y.toList.map e.quantize = ops.y.toList

/-- **Operands are drawn for every problem that an array takes**, and the format holds them. -/
theorem exists_random {s : Shape} {g : Geometry} (h : s.Fits g) (hg : g.Valid) (e : Element)
    (seed : UInt64) : ∃ ops, random s e seed = .ok ops ∧ ops.Fill s ∧ ops.Exact e := by
  have hm := h.le hg (.inl rfl)
  have hn := h.le hg (.inr (.inl rfl))
  have hk := h.le hg (.inr (.inr rfl))
  rw [random, area_of_le hm hn, area_of_le hn hk, area_of_le hm hk]
  refine ⟨_, rfl, ⟨?_, ?_, ?_⟩, ?_, ?_, ?_⟩
  case refine_1 | refine_2 | refine_3 =>
    rw [List.size_toArray, length_draw, List.length_nil, Nat.zero_add]
  all_goals exact map_quantize_draw List.map_nil

end Operands

/-! ## Several matrices -/

namespace Workload

/-- What writing matrices one after the other does to a memory. -/
structure Stored (matrices : List (MatrixPlace × Array Single)) (m m' : Memory) : Prop where
  alike : m.Alike m'
  counted : m'.reads = m.reads ∧ m'.writes = m.writes
  others : ∀ a, (∀ c ∈ matrices, ¬ c.1.Covers c.2.size a) → m'.byte a = m.byte a
  /-- Where no two of them have a byte in common, all of them are there. -/
  held : (matrices.Pairwise fun c d => ∀ a, c.1.Covers c.2.size a → ¬ d.1.Covers d.2.size a) →
    ∀ c ∈ matrices, m'.Holds c.1 c.2.toList

theorem stored_nil (m : Memory) : Stored [] m m where
  alike := .refl m
  counted := ⟨rfl, rfl⟩
  others _ _ := rfl
  held _ _ hc := absurd hc List.not_mem_nil

/-- **The matrices that follow leave one alone** if they are apart from it. -/
theorem Stored.cons {place : MatrixPlace} {values : Array Single}
    {rest : List (MatrixPlace × Array Single)} {m m₁ m' : Memory} (h : Stored rest m₁ m')
    (hwritten : Memory.Written place values.toList values.toList.length m m₁) :
    Stored ((place, values) :: rest) m m' where
  alike := hwritten.alike.trans h.alike
  counted := ⟨h.counted.1.trans hwritten.counted.1, h.counted.2.trans hwritten.counted.2⟩
  others a ha := by
    obtain ⟨hfirst, hrest⟩ := List.forall_mem_cons.mp ha
    rw [h.others a hrest]
    refine hwritten.others a fun i hi howns => hfirst ⟨i, ?_, howns⟩
    rwa [Array.length_toList] at hi
  held happart := by
    obtain ⟨hfirst, hrest⟩ := List.pairwise_cons.mp happart
    refine List.forall_mem_cons.mpr ⟨hwritten.holds.keep h.alike fun a ha => ?_, h.held hrest⟩
    rw [Array.length_toList] at ha
    exact h.others a fun d hd => hfirst d hd a ha

/-- **Matrices that lie inside a memory are all written.** -/
theorem writeMatrices_of_inside (matrices : List (MatrixPlace × Array Single)) {m : Memory}
    (hin : ∀ c ∈ matrices, ∃ rows, c.1.Inside rows m ∧ 0 < c.1.cols ∧
      c.2.size = rows * c.1.cols) :
    ∃ m', writeMatrices matrices m = .ok (some m') ∧ Stored matrices m m' := by
  induction matrices generalizing m with
  | nil => exact ⟨m, rfl, stored_nil m⟩
  | cons c rest ih =>
    obtain ⟨place, values⟩ := c
    obtain ⟨⟨rows, hplace, hcols, hsize⟩, hrest⟩ := List.forall_mem_cons.mp hin
    have hcount : values.toList.length = rows * place.cols := by rw [Array.length_toList, hsize]
    obtain ⟨m₁, hwrite, hwritten⟩ := Memory.writeMatrix_of_inside hplace hcols hcount
    obtain ⟨m', hrestWrite, hstored⟩ := ih fun c hc => by
      obtain ⟨rows, hplace, hcols, hsize⟩ := hrest c hc
      exact ⟨rows, hwritten.alike.inside hplace, hcols, hsize⟩
    refine ⟨m', ?_, hstored.cons hwritten⟩
    rw [writeMatrices, hwrite, ok_bind]
    exact hrestWrite

end Workload

/-! ## Operands in memory -/

namespace Config

/-- The memory before anything is stored. -/
def blankMemory (c : Config) : Memory :=
  .zeroed c.memory.base.toNat c.memory.size.toNat c.memory.latency

variable {c : Config} {layout : Layout}

/-- Where a layout of the configuration has a matrix. -/
def place (c : Config) (layout : Layout) (o : Operand) : MatrixPlace :=
  ⟨(layout.addr o).toNat, c.shape.cols o, (layout.pitch o).toNat, c.rawGeometry.format⟩

/-- Whether no two operands have a byte of their regions in common. -/
def Apart (c : Config) (layout : Layout) : Prop :=
  [Operand.x, .w, .y].Pairwise fun o q =>
    ∀ a, layout.Owns c.shape o a → ¬ layout.Owns c.shape q a

theorem apart_iff : c.Apart layout ↔
    (∀ a, layout.Owns c.shape .x a → ¬ layout.Owns c.shape .w a) ∧
      (∀ a, layout.Owns c.shape .x a → ¬ layout.Owns c.shape .y a) ∧
      ∀ a, layout.Owns c.shape .w a → ¬ layout.Owns c.shape .y a := by
  simp [Apart, and_assoc]

namespace Accepted

variable (h : c.Accepted layout)

include h

theorem inside_place (o : Operand) : (c.place layout o).Inside (c.shape.rows o) c.blankMemory where
  row_le := h.holds o
  base_le := (h.inside o).1
  end_le := (h.inside o).2
  end_lt := Nat.lt_of_le_of_lt h.end_le (by decide)

theorem cols_pos (o : Operand) : 0 < (c.place layout o).cols := by
  cases o
  exacts [h.fits.n_pos, h.fits.k_pos, h.fits.k_pos, h.fits.k_pos]

/-- The cells of a matrix lie in its region. -/
theorem owns_of_covers {o : Operand} {a count : Nat}
    (hcount : count = c.shape.rows o * c.shape.cols o)
    (ha : (c.place layout o).Covers count a) : layout.Owns c.shape o a := by
  obtain ⟨i, hi, hlo, hhi⟩ := ha
  obtain ⟨hstart, hend⟩ := MatrixPlace.start_bounds (p := c.place layout o) (h.holds o)
    (hcount ▸ hi)
  exact ⟨Nat.le_trans hstart hlo, Nat.lt_of_lt_of_le hhi hend⟩

/-- What the cells of a matrix hold is read. -/
theorem readMatrix_of_holds {m : Memory} {o : Operand} {values : Array Single}
    (hcount : values.size = c.shape.rows o * c.shape.cols o)
    (hholds : m.Holds (c.place layout o) values.toList)
    (hexact : values.toList.map c.rawGeometry.format.quantize = values.toList) :
    m.readMatrix (c.place layout o) (c.shape.rows o) = .ok (some values.toList) := by
  have hin := h.inside_place o
  have hcount : values.toList.length = c.shape.rows o * (c.place layout o).cols := by
    rw [Array.length_toList, hcount]
    rfl
  have haddr : ∀ i < values.toList.length, (c.place layout o).start i < Word.limit :=
    fun i hi => hin.start_lt (hcount ▸ hi)
  have hlength : 4 * values.toList.length < Word.halfLimit := by
    have hrows : c.shape.rows o ≤ 0x400000 := by
      refine h.fits.le h.valid ?_
      cases o <;> simp [Shape.rows]
    have hcols : c.shape.cols o ≤ 0x400000 := by
      refine h.fits.le h.valid ?_
      cases o <;> simp [Shape.cols]
    have harea : values.toList.length ≤ 0x400000 * 0x400000 :=
      hcount ▸ Nat.mul_le_mul hrows hcols
    have hlimit : 4 * (0x400000 * 0x400000) < Word.halfLimit := by decide
    omega
  have hread := hholds.readMatrix ⟨h.cols_pos o, h.holds o⟩ hcount haddr hlength
  rwa [show (c.place layout o).format = c.rawGeometry.format from rfl, hexact] at hread

end Accepted

/-- **Operands whose addresses are not given are apart.** -/
theorem apart_of_layout (h : c.layout = .ok layout) (hx : c.job.xAddr = none)
    (hw : c.job.wAddr = none) (hy : c.job.yAddr = none) : c.Apart layout := by
  obtain ⟨packed?, hpacked, h⟩ := bind_eq_ok_iff.mp h
  rw [liftM_eq_ok_iff] at hpacked
  cases packed? with
  | none => cases h
  | some packed =>
    have hdisjoint : ∀ o q, o ≠ q → ∀ a, packed.Owns c.shape o a → ¬ packed.Owns c.shape q a :=
      fun _ _ hne _ =>
        Layout.disjoint_of_ordered (Layout.ordered_of_place? (Layout.place?_of_packed hpacked)) hne
    simp only [hx, hw, hy, Option.getD_none] at h
    cases h
    rw [apart_iff]
    exact ⟨hdisjoint .x .w (by decide), hdisjoint .x .y (by decide), hdisjoint .w .y (by decide)⟩

end Config

namespace Workload

/-- The operands of an accepted configuration fit its memory. -/
theorem exists_store {c : Config} {layout : Layout} (h : c.Accepted layout) {ops : Operands}
    (hops : ops.Fill c.shape) :
    ∃ m, store ⟨c.rawGeometry, c.shape, layout, ops⟩ c.blankMemory = .ok m ∧
      Stored [(c.place layout .x, ops.x), (c.place layout .w, ops.w), (c.place layout .y, ops.y)]
        c.blankMemory m := by
  obtain ⟨m, hwrite, hstored⟩ := writeMatrices_of_inside
    [(c.place layout .x, ops.x), (c.place layout .w, ops.w), (c.place layout .y, ops.y)]
    (m := c.blankMemory) (by
      simp only [List.mem_cons, List.not_mem_nil, or_false, forall_eq_or_imp, forall_eq]
      exact ⟨⟨_, h.inside_place .x, h.cols_pos .x, hops.x⟩,
        ⟨_, h.inside_place .w, h.cols_pos .w, hops.w⟩,
        ⟨_, h.inside_place .y, h.cols_pos .y, hops.y⟩⟩)
  refine ⟨m, ?_, hstored⟩
  have hmatrices : writeMatrices [(xPlace ⟨c.rawGeometry, c.shape, layout, ops⟩, ops.x),
      (wPlace ⟨c.rawGeometry, c.shape, layout, ops⟩, ops.w),
      (yPlace ⟨c.rawGeometry, c.shape, layout, ops⟩, ops.y)] c.blankMemory = .ok (some m) := hwrite
  rw [store]
  dsimp only
  rw [hmatrices, liftM_ok, ok_bind]
  rfl

/-- An accepted configuration has a workload, with operands that the format holds. -/
theorem exists_ofConfig {c : Config} {layout : Layout} (h : c.Accepted layout) :
    ∃ ops : Operands, ofConfig c = .ok ⟨c.rawGeometry, c.shape, layout, ops⟩ ∧ ops.Fill c.shape ∧
      ops.Exact c.rawGeometry.format := by
  obtain ⟨ops, hrandom, hops⟩ := Operands.exists_random h.fits h.valid c.rawGeometry.format
    c.job.seed.toUInt64
  have hgeometry : c.geometry = .ok c.rawGeometry := Config.geometry_eq_ok_iff.mpr ⟨h.valid, rfl⟩
  refine ⟨ops, ?_, hops⟩
  rw [Workload.ofConfig, hgeometry, h.placed]
  simp only [BenchError.lift, ok_bind, hrandom, liftM_ok, pure_eq_ok]

/-- **The operands of an accepted configuration are in memory as they were drawn** where their
regions are apart. All other bytes are zero. -/
theorem store_of_accepted {c : Config} {layout : Layout} (h : c.Accepted layout) :
    ∃ w m, ofConfig c = .ok w ∧ w.store c.blankMemory = .ok m ∧
      (∀ a, (∀ o ≠ .z, ¬ layout.Owns c.shape o a) → m.byte a = 0) ∧
      (c.Apart layout →
        m.readMatrix w.xPlace w.shape.m = .ok (some w.operands.x.toList) ∧
        m.readMatrix w.wPlace w.shape.n = .ok (some w.operands.w.toList) ∧
        m.readMatrix w.yPlace w.shape.m = .ok (some w.operands.y.toList)) := by
  obtain ⟨ops, hworkload, hfill, hexact⟩ := exists_ofConfig h
  obtain ⟨m, hstore, hstored⟩ := exists_store h hfill
  refine ⟨_, m, hworkload, hstore, fun a ha => ?_, fun happart => ?_⟩
  · have hblank : c.blankMemory.byte a = 0 := by
      rw [Config.blankMemory, Memory.byte, Memory.zeroed, Block.byte_zeros, ite_self]
    rw [hstored.others a ?_, hblank]
    simp only [List.mem_cons, List.not_mem_nil, or_false, forall_eq_or_imp, forall_eq]
    exact ⟨fun hc => ha .x (by decide) (h.owns_of_covers hfill.x hc),
      fun hc => ha .w (by decide) (h.owns_of_covers hfill.w hc),
      fun hc => ha .y (by decide) (h.owns_of_covers hfill.y hc)⟩
  · obtain ⟨hxw, hxy, hwy⟩ := Config.apart_iff.mp happart
    have hheld := hstored.held (by
      simp only [List.pairwise_cons, List.mem_cons, List.not_mem_nil, or_false, forall_eq_or_imp,
        forall_eq, IsEmpty.forall_iff, implies_true, List.Pairwise.nil, and_true]
      exact ⟨⟨fun a hx hw => hxw a (h.owns_of_covers hfill.x hx) (h.owns_of_covers hfill.w hw),
        fun a hx hy => hxy a (h.owns_of_covers hfill.x hx) (h.owns_of_covers hfill.y hy)⟩,
        fun a hw hy => hwy a (h.owns_of_covers hfill.w hw) (h.owns_of_covers hfill.y hy)⟩)
    simp only [List.mem_cons, List.not_mem_nil, or_false, forall_eq_or_imp, forall_eq] at hheld
    obtain ⟨hx, hw, hy⟩ := hheld
    exact ⟨h.readMatrix_of_holds hfill.x hx hexact.x, h.readMatrix_of_holds hfill.w hw hexact.w,
      h.readMatrix_of_holds hfill.y hy hexact.y⟩

end Workload

end SystolicGemm
