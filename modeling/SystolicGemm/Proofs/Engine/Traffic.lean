import Mathlib.Algebra.BigOperators.Group.Finset.Sigma
import SystolicGemm.Memory.Flat
import SystolicGemm.Proofs.Engine.Hosted
import SystolicGemm.Proofs.Memory.Recorded

/-!
# What a job reads and writes

Over a whole job every byte of every cell of X, Y and Z is accessed once and
every byte of every cell of W once in each row of tiles, whatever the leftovers,
and no other byte is accessed at all.

The proof turns a sum over beats into a sum over rows and bytes of a row: the
carries of a walk are those of `k = (r * columns + c) * lines + i`, and what the
strobes leave out is what lies past the edges.
-/

namespace SystolicGemm

open Finset

/-! ## Sums over beats -/

theorem sum_range_mul {M : Type} [AddCommMonoid M] (f : Nat → M) (a b : Nat) :
    ∑ k ∈ range (a * b), f k = ∑ i ∈ range a, ∑ j ∈ range b, f (i * b + j) := by
  induction a with
  | zero => simp
  | succ a ih => rw [Nat.succ_mul, sum_range_add, ih, sum_range_succ]

theorem sum_range_ite_lt {M : Type} [AddCommMonoid M] (f : Nat → M) {n m : Nat} (h : n ≤ m) :
    ∑ k ∈ range m, (if k < n then f k else 0) = ∑ k ∈ range n, f k := by
  obtain ⟨d, rfl⟩ := Nat.exists_eq_add_of_le h
  have hin : ∀ k ∈ range n, (if k < n then f k else 0) = f k := fun k hk =>
    if_pos (mem_range.mp hk)
  have hout : ∀ k ∈ range d, (if n + k < n then f (n + k) else 0) = 0 := fun k _ =>
    if_neg (Nat.not_lt.mpr (Nat.le_add_right n k))
  rw [sum_range_add, sum_congr rfl hin, sum_congr rfl hout, sum_const_zero, add_zero]

theorem Strobe.count_eq (s : Strobe) (n : Nat) :
    s.count n = ∑ i ∈ range n, if s.enables i then 1 else 0 := by
  induction n with
  | zero => rfl
  | succ n ih =>
    rw [sum_range_succ, ← ih]
    cases hs : s.enables n <;> simp [count, List.range_succ, hs]

namespace Plan

/-- How often a job goes through an operand's matrix. -/
def passes (p : Plan) : Operand → Nat
  | .w => p.xRowTiles
  | .x | .y | .z => 1

/-- The addresses of the bytes of an operand's cells. -/
def cellBytes (p : Plan) (g : Geometry) (o : Operand) : Multiset Nat :=
  ∑ r ∈ range (p.rows g.width o), ∑ c ∈ range (p.cols o), ∑ i ∈ range g.elementBytes,
    {p.rowAddr o r (c * g.elementBytes + i)}

/-- The bytes of a row are those of its cells. -/
theorem cellBytes_eq (p : Plan) (g : Geometry) (o : Operand) :
    p.cellBytes g o =
      ∑ r ∈ range (p.rows g.width o), ∑ i ∈ range (p.cols o * g.elementBytes),
        {p.rowAddr o r i} := by
  refine sum_congr rfl fun r _ => ?_
  rw [sum_range_mul fun u => ({p.rowAddr o r u} : Multiset Nat)]

namespace Sound

variable {p : Plan} {g : Geometry} (h : p.Sound g)

include h

/-- What the beats of one line of tiles cover: the bytes of a row. -/
theorem sum_line {M : Type} [AddCommMonoid M] (F : Nat → M) (o : Operand) (r : Nat) :
    ∑ c ∈ range (p.columns o), ∑ i ∈ range g.beatBytes,
        (if r < p.rows g.width o ∧ c * g.beatBytes + i < p.cols o * g.elementBytes then
          F (p.rowAddr o r (c * g.beatBytes + i)) else 0) =
      if r < p.rows g.width o then
        ∑ i ∈ range (p.cols o * g.elementBytes), F (p.rowAddr o r i) else 0 := by
  rw [← sum_range_mul fun u => if r < p.rows g.width o ∧ u < p.cols o * g.elementBytes then
    F (p.rowAddr o r u) else 0]
  split
  · next hr =>
    simp only [hr, true_and]
    exact sum_range_ite_lt _ (h.cols_mul_le o)
  · next hr => simp [hr]

/-- **What the beats of a job cover.** -/
theorem sum_beats {M : Type} [AddCommMonoid M] (F : Nat → M) (o : Operand) :
    ∑ b ∈ range (p.beats g.width o), ∑ i ∈ range g.beatBytes,
        (if p.Covers g o b i then F (p.addr g o b + i) else 0) =
      p.passes o • ∑ r ∈ range (p.rows g.width o), ∑ i ∈ range (p.cols o * g.elementBytes),
        F (p.rowAddr o r i) := by
  have hbeats : p.beats g.width o = p.xRowTiles * p.columns o * p.lines g.width o := by
    rw [beats, Nat.mul_comm, Nat.mul_comm (p.lines g.width o), Nat.mul_assoc]
  have hrow : ∀ r c l, c < p.columns o → l < p.lines g.width o → ∀ i,
      (if p.Covers g o ((r * p.columns o + c) * p.lines g.width o + l) i then
        F (p.addr g o ((r * p.columns o + c) * p.lines g.width o + l) + i) else 0) =
      if (if o = .w then 0 else r * g.width) + l < p.rows g.width o ∧
          c * g.beatBytes + i < p.cols o * g.elementBytes then
        F (p.rowAddr o ((if o = .w then 0 else r * g.width) + l) (c * g.beatBytes + i))
      else 0 := by
    intro r c l hc hl i
    obtain ⟨h1, h2⟩ := p.row_column (r := r) hl hc
    simp only [Covers, addr_add, h1, h2]
  rw [hbeats, sum_range_mul, sum_range_mul]
  have hline : ∀ r ∈ range p.xRowTiles, ∑ c ∈ range (p.columns o), ∑ l ∈ range (p.lines g.width o),
      ∑ i ∈ range g.beatBytes,
        (if p.Covers g o ((r * p.columns o + c) * p.lines g.width o + l) i then
          F (p.addr g o ((r * p.columns o + c) * p.lines g.width o + l) + i) else 0) =
      ∑ l ∈ range (p.lines g.width o),
        if (if o = .w then 0 else r * g.width) + l < p.rows g.width o then
          ∑ i ∈ range (p.cols o * g.elementBytes),
            F (p.rowAddr o ((if o = .w then 0 else r * g.width) + l) i) else 0 := by
    intro r _
    -- the beats of one line lie in different columns of tiles: sum those first
    rw [sum_comm]
    refine sum_congr rfl fun l hl => ?_
    rw [← h.sum_line]
    exact sum_congr rfl fun c hc => sum_congr rfl fun i _ =>
      hrow r c l (mem_range.mp hc) (mem_range.mp hl) i
  rw [sum_congr rfl hline]
  have hrows := h.rows_le o
  cases o with
  | w =>
    -- every row of tiles goes through the same lines
    simp only [if_true, Nat.zero_add, passes, sum_const, card_range] at hrows ⊢
    rw [sum_range_ite_lt _ hrows]
  | x | y | z =>
    simp only [reduceCtorEq, if_false, passes, one_nsmul] at hrows ⊢
    rw [← sum_range_ite_lt _ hrows, sum_range_mul]
    rfl

/-- **The strobes of a job enable as many bytes as its cells have.** -/
theorem strobed_beats (hg : g.Valid) (o : Operand) :
    p.strobed g o (p.beats g.width o) =
      p.passes o * (p.rows g.width o * (p.cols o * g.elementBytes)) := by
  -- the closed form of the bytes of the first `u` beats, by induction on `u`
  have hbeats : ∀ u ≤ p.beats g.width o, p.strobed g o u =
      ∑ b ∈ range u, ∑ i ∈ range g.beatBytes, if p.Covers g o b i then 1 else 0 := by
    intro u hu
    induction u with
    | zero => rfl
    | succ u ih =>
      rw [strobed, sum_range_succ, ih (Nat.le_of_succ_le hu), Strobe.count_eq]
      refine congrArg _ (sum_congr rfl fun i hi => ?_)
      simp [h.enables_strobe hg hu (mem_range.mp hi)]
  rw [hbeats _ (Nat.le_refl _), h.sum_beats fun _ => 1]
  simp

end Sound

end Plan

namespace Engine

/-! ## Bytes of a run -/

/-- The addresses of the bytes that a beat enables. -/
def touches : Direction × Nat × Nat × Strobe → List Nat
  | (_, addr, length, strobe) => ((List.range length).filter strobe.enables).map (addr + ·)

/-- The addresses of the bytes that a stream has accessed, as often as it has. -/
def touched (log : List Beat) (o : Operand) : Multiset Nat :=
  ((requests log o).flatMap fun r => (Memory.enabled r).map (r.addr + ·) : List Nat)

theorem coe_flatMap_range {α : Type} (f : Nat → List α) (n : Nat) :
    (((List.range n).flatMap f : List α) : Multiset α) = ∑ b ∈ range n, (f b : Multiset α) := by
  induction n with
  | zero => rfl
  | succ n ih =>
    rw [List.range_succ, List.flatMap_append, ← Multiset.coe_add, ih, sum_range_succ]
    simp

theorem coe_filter_range {α : Type} (c : Nat → Bool) (f : Nat → α) (n : Nat) :
    ((((List.range n).filter c).map f : List α) : Multiset α) =
      ∑ i ∈ range n, if c i then {f i} else 0 := by
  induction n with
  | zero => rfl
  | succ n ih =>
    rw [List.range_succ, List.filter_append, List.map_append, ← Multiset.coe_add, ih,
      sum_range_succ]
    cases hc : c n <;> simp [hc]

variable {g : Geometry} {p : Plan}

/-- **The bytes of the first beats of a stream.** -/
theorem Logged.touched_eq (hg : g.Valid) (hp : p.Sound g) {s : Station} {log : List Beat}
    (h : Logged g p log s) (o : Operand) (hle : s.moved g p o ≤ p.beats g.width o) :
    touched log o = ∑ b ∈ range (s.moved g p o), ∑ i ∈ range g.beatBytes,
      if p.Covers g o b i then {p.addr g o b + i} else 0 := by
  have hmap : (requests log o).flatMap (fun r => (Memory.enabled r).map (r.addr + ·)) =
      (List.range (s.moved g p o)).flatMap fun b => touches (beatOutline g p o b) := by
    have hflat : ∀ l : List Request, l.flatMap (fun r => (Memory.enabled r).map (r.addr + ·)) =
        (l.map outline).flatMap touches := fun l => by rw [List.flatMap_map]; rfl
    rw [hflat, h.beats o, List.flatMap_map]
  rw [touched, hmap, coe_flatMap_range]
  refine sum_congr rfl fun b hb => ?_
  have hlt : b < p.beats g.width o := Nat.lt_of_lt_of_le (mem_range.mp hb) hle
  rw [beatOutline, touches, coe_filter_range]
  refine sum_congr rfl fun i hi => ?_
  rw [hp.enables_strobe hg hlt (mem_range.mp hi)]
  simp

/-- Beats of a log go their operand's way. -/
theorem Logged.direction {s : Station} {log : List Beat} (h : Logged g p log s) {b : Beat}
    (hb : b ∈ log) : b.request.direction = b.operand.direction := by
  obtain ⟨u, -, hu⟩ := h.exists_outline hb
  exact congrArg Prod.fst hu

variable {π : Type} [Port π]

/-- The journal of a port is the log of the run. -/
theorem Runs.journal {st st' : Engine × Recorded π} {log : List Beat} (h : Runs st log st') :
    st'.2.journal = st.2.journal ++ log.map fun b => (b.request, b.reply) := by
  induction h with
  | none => simp
  | idle h _ _ ih => exact ih
  | beat h _ hacc _ ih =>
    obtain ⟨port, -, rfl⟩ := Recorded.access_ok hacc
    rw [List.map_append, ← List.append_assoc, ← ih]
    rfl

/-- What a whole job has read and written, and what its report says about it. -/
structure ExactTraffic (g : Geometry) (p : Plan) (st : Engine × Recorded π) (q : Recorded π)
    (log : List Beat) (report : JobReport) : Prop where
  /-- The log says who made which access in the port's journal. -/
  runs : ∃ e, Runs st log (e, q)
  journal : q.journal = st.2.journal ++ log.map fun b => (b.request, b.reply)
  direction : ∀ b ∈ log, b.request.direction = b.operand.direction
  x : touched log .x = p.cellBytes g .x
  w : touched log .w = p.xRowTiles • p.cellBytes g .w
  y : touched log .y = p.cellBytes g .y
  z : touched log .z = p.cellBytes g .z
  xTransactions : report.x.transactions = g.width * p.colTiles * p.xRowTiles
  wTransactions : report.w.transactions = p.n * p.wColTiles * p.xRowTiles
  yTransactions : report.y.transactions = g.width * p.wColTiles * p.xRowTiles
  zTransactions : report.z.transactions = g.width * p.wColTiles * p.xRowTiles
  xBytes : report.x.bytes = p.m g.width * p.n * g.elementBytes
  wBytes : report.w.bytes = p.xRowTiles * p.n * p.k * g.elementBytes
  yBytes : report.y.bytes = p.m g.width * p.k * g.elementBytes
  zBytes : report.z.bytes = p.m g.width * p.k * g.elementBytes

theorem OnTrack.exactTraffic (hg : g.Valid) (hp : p.Sound g) {e : Engine} {n : Nat}
    (h : e.OnTrack g p n) (hfin : e.phase = .finished) {st : Engine × Recorded π} {q : Recorded π}
    {log : List Beat} (hruns : Runs st log (e, q)) (hlog : Logged g p log e.station) :
    ExactTraffic g p st q log e.retire.report := by
  have hend : ∀ o, e.station.moved g p o = p.beats g.width o := fun o => by
    rw [moved_of_finished hfin]
  have htouched : ∀ o, touched log o = p.passes o • p.cellBytes g o := fun o => by
    rw [hlog.touched_eq hg hp o (Nat.le_of_eq (hend o)), hend,
      hp.sum_beats fun a => ({a} : Multiset Nat), p.cellBytes_eq]
  have htrans : ∀ o, (e.stream o).stats.transactions = p.beats g.width o := fun o => by
    rw [(h.loaded.moved o).transactions, hend]
  have hbytes : ∀ o, (e.stream o).stats.bytes =
      p.passes o * (p.rows g.width o * (p.cols o * g.elementBytes)) := fun o => by
    rw [h.loaded.bytes, hend, hp.strobed_beats hg]
  have hone : ∀ a b c : Nat, 1 * (a * (b * c)) = a * b * c := fun a b c => by
    rw [Nat.one_mul, Nat.mul_assoc]
  exact {
    runs := ⟨e, hruns⟩
    journal := hruns.journal
    direction := fun b hb => hlog.direction hb
    x := (htouched .x).trans (one_nsmul _)
    w := htouched .w
    y := (htouched .y).trans (one_nsmul _)
    z := (htouched .z).trans (one_nsmul _)
    xTransactions := htrans .x
    wTransactions := htrans .w
    yTransactions := htrans .y
    zTransactions := htrans .z
    xBytes := (hbytes .x).trans (hone _ _ _)
    wBytes := (hbytes .w).trans (by simp only [Plan.passes, Plan.rows, Plan.cols, Nat.mul_assoc])
    yBytes := (hbytes .y).trans (hone _ _ _)
    zBytes := (hbytes .z).trans (hone _ _ _) }

/-- **Exact traffic.** A job that the port serves accesses every byte of X and Y
once and every byte of W once in each row of tiles, to read it, and every byte of
Z once, to write it, and its report says so. -/
theorem drain_exactTraffic {ρ : Type} [Port ρ] {g : Geometry} (hg : g.validate = .ok ())
    {e : Engine} (he : Reachable ρ g e) (hidle : e.busy = false) {job : JobImage} {p : Plan}
    (hv : job.validate g = .ok p) (port : π) :
    ∃ e', start job (e, Recorded.fresh port) = .ok () (e', Recorded.fresh port) ∧
      (Obliges (e', Recorded.fresh port) → ¬ Overruns g p (e', Recorded.fresh port) →
        ∀ fuel, p.subcycles g + 2 ≤ fuel → ∃ delay report e'' q log,
          drain fuel (e', Recorded.fresh port) = .ok (delay, some report) (e'', q) ∧
          ExactTraffic g p (e', Recorded.fresh port) q log report) := by
  have hvalid := Geometry.validate_eq_ok_iff.mp hg
  have hp := (JobImage.accepted_of_validate hv).sound hvalid
  obtain ⟨e', htaken, hstart⟩ := he.taken (π := Recorded π) hvalid hidle hv
  refine ⟨e', hstart _, fun hport hclock fuel hfuel => ?_⟩
  obtain ⟨delay, report, e'', q, hdrain, -⟩ :=
    (htaken.ending hvalid hp _ fuel).reports hport hclock hfuel
  obtain ⟨log, e₁, d, hruns, hpend, hfin, rfl⟩ := htaken.completed hvalid hp hdrain
  obtain ⟨ht, hlog⟩ :=
    (hruns.along hvalid hp (kept_logged hvalid hp) (htaken.along htaken.logged)).of_pending hpend
  exact ⟨delay, _, e'', q, log, hdrain, ht.exactTraffic hvalid hp hfin hruns hlog⟩

theorem backed_recorded : Backed (Recorded.port : Recorded Memory → Memory) :=
  fun h => ⟨_, Recorded.access_port h, rfl⟩

/-- A job with a leftover on every axis, on a flat memory. -/
theorem drain_exactTraffic_ragged : ∃ e e' : Engine, create .narrow = .ok e ∧
    start (.ragged 0x200 0x300) (e, Recorded.fresh (Memory.zeroed 0 0x400 3)) =
      .ok () (e', Recorded.fresh (Memory.zeroed 0 0x400 3)) ∧
    ∀ fuel, 212 ≤ fuel → ∃ delay report e'' q log,
      drain fuel (e', Recorded.fresh (Memory.zeroed 0 0x400 3)) =
        .ok (delay, some report) (e'', q) ∧
      ExactTraffic .narrow (.ragged 0x200 0x300)
        (e', Recorded.fresh (Memory.zeroed 0 0x400 3)) q log report := by
  have hvalid := Geometry.validate_eq_ok_iff.mp Geometry.validate_narrow
  obtain ⟨e, he, -, hidle⟩ := create_fits hvalid
  have hv := JobImage.validate_ragged 0x200 0x300
  have hreach := Reachable.created (π := Memory) he
  obtain ⟨e', hstart, htraffic⟩ := drain_exactTraffic Geometry.validate_narrow hreach hidle hv
    (Memory.zeroed 0 0x400 3)
  obtain ⟨e₁, htaken, hstart₁⟩ := hreach.taken (π := Recorded Memory) hvalid hidle hv
  rw [hstart₁] at hstart
  cases hstart
  obtain ⟨hport, hclock⟩ := htaken.served_ragged backed_recorded
    (.fresh (.zeroed 0 0x400 3)) rfl rfl rfl
  exact ⟨e, e', he, hstart₁ _, htraffic hport hclock⟩

end Engine

end SystolicGemm
