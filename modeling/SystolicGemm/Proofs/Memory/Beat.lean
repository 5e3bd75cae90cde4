import SystolicGemm.Memory.Flat
import SystolicGemm.Proofs.Checked

/-!
# One beat on a flat memory

A memory that has every enabled byte of a beat inside serves it. `serve` is then
described byte by byte: a write puts the enabled bytes of the data where they
belong and leaves every other byte alone, a read returns the enabled bytes among
zeros. Extent and latency of a memory never change.
-/

namespace SystolicGemm

namespace Memory

/-- Whether an address is one of a memory's own. -/
def Has (m : Memory) (a : Nat) : Prop := m.base ≤ a ∧ a < m.base + m.size

/-- Whether every enabled byte of a beat lies inside. -/
def Contains (m : Memory) (r : Request) : Prop := ∀ i ∈ enabled r, m.Has (r.addr + i)

/-- Bytes that are all inside are read one by one. -/
theorem readBytes?_eq {m : Memory} {a n : Nat} (hn : 0 < n) (h : ∀ i < n, m.Has (a + i)) :
    m.readBytes? a n = some ((List.range n).map fun i => m.byte (a + i)) := by
  have hle : m.base ≤ a := (h 0 hn).1
  obtain ⟨-, hlt⟩ := h (n - 1) (Nat.sub_lt hn Nat.one_pos)
  have hoff : m.offset? a n = some (a - m.base) :=
    offset?_eq_some_iff.mpr ⟨⟨hle, by omega⟩, rfl⟩
  rw [readBytes?, hoff, Option.map_some, Option.some.injEq, Block.read]
  refine List.map_congr_left fun i _ => ?_
  rw [byte, if_pos (Nat.le_add_right_of_le hle), Nat.sub_add_comm hle]

theorem mem_enabled {r : Request} {i : Nat} :
    i ∈ enabled r ↔ i < r.data.length ∧ r.strobe.enables i = true := by
  simp [enabled]

/-- Enabled bytes come in order. -/
theorem enabled_bounds {r : Request} {first last i : Nat} (hfirst : (enabled r).head? = some first)
    (hlast : (enabled r).getLast? = some last) (hi : i ∈ enabled r) : first ≤ i ∧ i ≤ last := by
  have hsorted : (enabled r).Pairwise (· < ·) := List.pairwise_lt_range.filter _
  obtain ⟨tail, htail⟩ := List.head?_eq_some_iff.mp hfirst
  obtain ⟨init, hinit⟩ := List.getLast?_eq_some_iff.mp hlast
  constructor
  · rw [htail] at hsorted hi
    rcases List.mem_cons.mp hi with rfl | hi
    · exact Nat.le_refl _
    · exact Nat.le_of_lt (List.rel_of_pairwise_cons hsorted hi)
  · rw [hinit] at hsorted hi
    rcases List.mem_append.mp hi with hi | hi
    · exact Nat.le_of_lt
        ((List.pairwise_append.mp hsorted).2.2 i hi last (List.mem_singleton_self _))
    · exact Nat.le_of_eq (List.mem_singleton.mp hi)

/-- **What a memory can do with a beat**: one inside is served, any other is refused
and changes nothing, and only one that reaches past the last address of all traps. -/
theorem access_cases (m : Memory) (r : Request) :
    (m.Contains r ∧ Port.access r m = .ok (m.serve r).1 (m.serve r).2) ∨
      (¬ m.Contains r ∧ Port.access r m = .ok ⟨.invalid, 0, r.data⟩ m) ∨
      ((∃ i ∈ enabled r, Word.limit ≤ r.addr + i) ∧
        Port.access r m = .error (.trap .overflow) m) := by
  show (_ ∧ access r m = _) ∨ (_ ∧ access r m = _) ∨ (_ ∧ access r m = _)
  unfold access
  split
  · next first last hfirst hlast =>
    have hmem := List.mem_of_head? hfirst
    have hmem' := List.mem_of_getLast? hlast
    split
    · split
      · next start hoff =>
        obtain ⟨⟨hle, hin⟩, -⟩ := offset?_eq_some_iff.mp hoff
        refine .inl ⟨fun i hi => ?_, rfl⟩
        obtain ⟨hlo, hhi⟩ := enabled_bounds hfirst hlast hi
        constructor <;> omega
      · next hoff =>
        refine .inr (.inl ⟨fun hin => ?_, rfl⟩)
        -- the run from the first enabled byte to the last would have had its place
        obtain ⟨hle, hlt⟩ := hin first hmem
        obtain ⟨-, hlt'⟩ := hin last hmem'
        have hsome : m.offset? (r.addr + first) (last - first + 1) =
            some (r.addr + first - m.base) := offset?_eq_some_iff.mpr ⟨⟨hle, by omega⟩, rfl⟩
        rw [hoff] at hsome
        cases hsome
    · next hlimit => exact .inr (.inr ⟨⟨first, hmem, Nat.le_of_not_lt hlimit⟩, rfl⟩)
  · next hnone =>
    refine .inl ⟨fun i hi => ?_, rfl⟩
    -- a beat with an enabled byte has a first and a last one
    have hne := List.ne_nil_of_mem hi
    exact (hnone _ _ (List.head?_eq_some_head hne) (List.getLast?_eq_some_getLast hne)).elim

/-- **A beat inside is served.** -/
theorem access_of_contains {m : Memory} {r : Request} (hin : m.Contains r)
    (haddr : ∀ i ∈ enabled r, r.addr + i < Word.limit) :
    Port.access r m = .ok (m.serve r).1 (m.serve r).2 := by
  rcases m.access_cases r with ⟨-, hserve⟩ | ⟨hout, -⟩ | ⟨⟨i, hi, hlimit⟩, -⟩
  · exact hserve
  · exact absurd hin hout
  · exact absurd (haddr i hi) (Nat.not_lt_of_le hlimit)

@[simp] theorem size_store (b : Block) (start : Int) (r : Request) :
    (store b start r).size = b.size := by
  have hfold : ∀ (l : List Nat) (b : Block), (l.foldl (fun b (i : Nat) =>
      b.set (start + i).toNat (r.data[i]?.getD 0)) b).size = b.size := by
    intro l
    induction l with
    | nil => exact fun _ => rfl
    | cons i l ih => exact fun b => (ih _).trans (Block.size_set ..)
  exact hfold _ _

/-- A fold of writes to different places leaves the value of each. -/
theorem byte_foldl_set (l : List Nat) (place : Nat → Nat) (value : Nat → UInt8) (b : Block)
    (hin : ∀ i ∈ l, place i < b.size) (hinj : ∀ i ∈ l, ∀ j ∈ l, place i = place j → i = j) :
    (∀ i ∈ l, (l.foldl (fun b i => b.set (place i) (value i)) b).byte (place i) = value i) ∧
      ∀ a, (∀ i ∈ l, place i ≠ a) →
        (l.foldl (fun b i => b.set (place i) (value i)) b).byte a = b.byte a := by
  induction l generalizing b with
  | nil => exact ⟨fun i hi => absurd hi List.not_mem_nil, fun _ _ => rfl⟩
  | cons k l ih =>
    obtain ⟨hvalue, hrest⟩ := ih (b.set (place k) (value k))
      (fun i hi => by rw [Block.size_set]; exact hin i (List.mem_cons_of_mem _ hi))
      (fun i hi j hj => hinj i (List.mem_cons_of_mem _ hi) j (List.mem_cons_of_mem _ hj))
    rw [List.foldl_cons]
    constructor
    · intro i hi
      rcases List.mem_cons.mp hi with rfl | hi
      · by_cases hmem : i ∈ l
        · exact hvalue i hmem
        · have hne : ∀ j ∈ l, place j ≠ place i := fun j hj heq =>
            hmem (hinj j (List.mem_cons_of_mem _ hj) i List.mem_cons_self heq ▸ hj)
          rw [hrest _ hne, Block.byte_set, if_pos ⟨rfl, hin i List.mem_cons_self⟩]
      · exact hvalue i hi
    · intro a ha
      rw [hrest a fun i hi => ha i (List.mem_cons_of_mem _ hi), Block.byte_set,
        if_neg fun h => ha k List.mem_cons_self h.1]

/-! ## What a served beat does -/

variable (m : Memory) (r : Request)

@[simp] theorem base_serve : (m.serve r).2.base = m.base := by
  unfold serve
  cases r.direction <;> rfl

@[simp] theorem size_serve : (m.serve r).2.size = m.size := by
  unfold serve
  cases r.direction
  · rfl
  · exact size_store ..

@[simp] theorem latency_serve : (m.serve r).2.latency = m.latency := by
  unfold serve
  cases r.direction <;> rfl

@[simp] theorem status_reply : (m.serve r).1.status = .ok := by
  unfold serve
  cases r.direction <;> rfl

@[simp] theorem latency_reply : (m.serve r).1.latency = m.latency := by
  unfold serve
  cases r.direction <;> rfl

variable {m r}

theorem data_write (hdir : r.direction = .write) : (m.serve r).1.data = r.data := by
  rw [serve, hdir]

theorem byte_read (hdir : r.direction = .read) (a : Nat) : (m.serve r).2.byte a = m.byte a := by
  rw [serve, hdir]
  rfl

/-- Byte `i` of a beat inside lies where its address says. -/
theorem toNat_start {i : Nat} (h : m.Has (r.addr + i)) :
    ((r.addr : Int) - m.base + i).toNat = r.addr + i - m.base ∧
      r.addr + i - m.base < m.block.size := by
  obtain ⟨h1, h2⟩ := h
  have hsize : m.size = m.block.size := rfl
  constructor <;> omega

/-- **A read returns the enabled bytes.** -/
theorem data_read (hdir : r.direction = .read) (hin : m.Contains r) :
    (m.serve r).1.data = (List.range r.data.length).map fun i =>
      if r.strobe.enables i then m.byte (r.addr + i) else 0 := by
  rw [serve, hdir]
  refine List.map_congr_left fun i hi => ?_
  split
  · next hen =>
    have hhas := hin i (mem_enabled.mpr ⟨List.mem_range.mp hi, hen⟩)
    rw [(toNat_start hhas).1, byte, if_pos hhas.1]
  · rfl

/-- Whatever a memory does with a beat, its answer has the size of the request. -/
theorem length_access {m' : Memory} {reply : Reply} (h : Port.access r m = .ok reply m') :
    reply.data.length = r.data.length := by
  rcases m.access_cases r with ⟨-, hacc⟩ | ⟨-, hacc⟩ | ⟨-, hacc⟩ <;> cases h.symm.trans hacc
  · cases hdir : r.direction with
    | read => simp [serve, hdir, load]
    | write => rw [data_write hdir]
  · rfl

/-- **A write stores the enabled bytes and touches no others.** -/
theorem byte_write (hdir : r.direction = .write) (hin : m.Contains r) :
    (∀ i ∈ enabled r, (m.serve r).2.byte (r.addr + i) = r.data[i]?.getD 0) ∧
      ∀ a, (∀ i ∈ enabled r, r.addr + i ≠ a) → (m.serve r).2.byte a = m.byte a := by
  obtain ⟨hvalue, hrest⟩ := byte_foldl_set (enabled r)
    (fun i => ((r.addr : Int) - m.base + i).toNat) (fun i => r.data[i]?.getD 0) m.block
    (fun i hi => (toNat_start (hin i hi)).1 ▸ (toNat_start (hin i hi)).2)
    (fun i hi j hj heq => by
      have h1 := hin i hi
      have h2 := hin j hj
      simp only [(toNat_start h1).1, (toNat_start h2).1] at heq
      have := h1.1
      have := h2.1
      omega)
  have hserve : (m.serve r).2 =
      { m with block := store m.block ((r.addr : Int) - m.base) r, writes := m.writes + 1 } := by
    rw [serve, hdir]
  rw [hserve]
  constructor
  · intro i hi
    have hv := hvalue i hi
    simp only [(toNat_start (hin i hi)).1] at hv
    show (if m.base ≤ r.addr + i then _ else _) = _
    rw [if_pos (hin i hi).1]
    exact hv
  · intro a ha
    unfold byte
    simp only []
    split
    · next hle =>
      refine hrest (a - m.base) fun i hi heq => ha i hi ?_
      have h1 := hin i hi
      simp only [(toNat_start h1).1] at heq
      have := h1.1
      omega
    · rfl

end Memory

end SystolicGemm
