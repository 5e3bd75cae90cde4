import SystolicGemm.Proofs.Settings.Accepted

/-!
# Where checking a configuration stops

The checks of a configuration compute with the very numbers that they are to bound.
Tile counts of 16 bits bound the sides of a problem, and with them all lengths, rows
and ends that come later, so none of these leaves a word. Nothing bounds the two sides
of the array before they are multiplied: a product that leaves a word stops the check,
and it is the only thing that does.
-/

namespace SystolicGemm

/-- A check whose error is not a trap, at the start of what is left to do. -/
theorem untrapped_ite_fail {ε α : Type} {c : Prop} [Decidable c] {e : ε}
    {rest : Unit → Outcome ε α} (h : ¬ c → Untrapped (rest ())) :
    Untrapped (if c then fail e >>= rest else rest ()) := by
  by_cases hc : c
  · rw [if_pos hc]
    intro t htrap
    cases htrap
  · rw [if_neg hc]
    exact h hc

/-! ## Arrays -/

namespace Geometry

/-- An array with rows and registers whose beat has more bytes than a word counts. -/
structure Overflows (g : Geometry) : Prop where
  height_pos : 0 < g.height
  pipeRegs_pos : 0 < g.pipeRegs
  limit_le : Word.limit ≤ g.beatBytes

/-- The outcome of checking an array, by its true number of bytes per beat. -/
inductive Judged (g : Geometry) : Outcome GeometryFlaw Unit → Prop where
  | accepted (valid : g.Valid) : Judged g (.ok ())
  | empty (sides : g.height = 0 ∨ g.pipeRegs = 0) :
    Judged g (.error (.error (.empty g.height g.pipeRegs)))
  | wide (height_pos : 0 < g.height) (pipeRegs_pos : 0 < g.pipeRegs)
      (lt_beat : maxBeatBytes < g.beatBytes) (beat_lt : g.beatBytes < Word.limit) :
    Judged g (.error (.error (.beatTooWide g.width g.elementBytes)))
  | overflow (overflows : g.Overflows) : Judged g (.error (.trap .overflow))

variable {g : Geometry}

theorem width_le_beatBytes : g.width ≤ g.beatBytes :=
  Nat.le_mul_of_pos_right g.width g.elementBytes_pos

/-- A beat is computed if it fits a word, whichever of the two products is too large. -/
theorem checkedBeatBytes_eq : g.checkedBeatBytes =
    if g.beatBytes < Word.limit then .ok g.beatBytes else .error .overflow := by
  have hle : g.width ≤ g.beatBytes := width_le_beatBytes
  by_cases hbeat : g.beatBytes < Word.limit
  · rw [if_pos hbeat]
    exact checkedBeatBytes_eq_ok_iff.mpr ⟨Nat.lt_of_le_of_lt hle hbeat, hbeat, rfl⟩
  · rw [if_neg hbeat]
    unfold checkedBeatBytes checkedWidth Word.mul
    by_cases hwidth : g.height * g.pipeRegs < Word.limit
    · rw [Word.below_of_lt hwidth]
      exact if_neg hbeat
    · rw [Word.below, if_neg hwidth]
      rfl

theorem validate_of_pos (hheight : 0 < g.height) (hregs : 0 < g.pipeRegs) : g.validate =
    (liftM g.checkedBeatBytes >>= fun beat =>
      ensure (beat ≤ maxBeatBytes) (GeometryFlaw.beatTooWide g.width g.elementBytes)) := by
  have hsides : g.height ≠ 0 ∧ g.pipeRegs ≠ 0 := ⟨Nat.ne_of_gt hheight, Nat.ne_of_gt hregs⟩
  rw [validate, ensure, if_pos hsides]
  rfl

theorem validate_of_empty (h : g.height = 0 ∨ g.pipeRegs = 0) :
    g.validate = .error (.error (.empty g.height g.pipeRegs)) := by
  have hsides : ¬ (g.height ≠ 0 ∧ g.pipeRegs ≠ 0) := by
    rintro ⟨hheight, hregs⟩
    exact h.elim hheight hregs
  rw [validate, ensure, if_neg hsides]
  rfl

theorem judged_validate (g : Geometry) : g.Judged g.validate := by
  by_cases hempty : g.height = 0 ∨ g.pipeRegs = 0
  · rw [validate_of_empty hempty]
    exact .empty hempty
  · obtain ⟨hheight, hregs⟩ := not_or.mp hempty
    have hheight : 0 < g.height := Nat.pos_of_ne_zero hheight
    have hregs : 0 < g.pipeRegs := Nat.pos_of_ne_zero hregs
    rw [validate_of_pos hheight hregs, checkedBeatBytes_eq]
    by_cases hlt : g.beatBytes < Word.limit
    · rw [if_pos hlt, liftM_ok, ok_bind, ensure]
      by_cases hbeat : g.beatBytes ≤ maxBeatBytes
      · rw [if_pos hbeat]
        exact .accepted ⟨hheight, hregs, hbeat⟩
      · rw [if_neg hbeat]
        exact .wide hheight hregs (Nat.lt_of_not_le hbeat) hlt
    · rw [if_neg hlt]
      exact .overflow ⟨hheight, hregs, Nat.le_of_not_lt hlt⟩

theorem Overflows.validate (h : g.Overflows) : g.validate = .error (.trap .overflow) := by
  rw [validate_of_pos h.height_pos h.pipeRegs_pos, checkedBeatBytes_eq,
    if_neg (Nat.not_lt_of_le h.limit_le)]
  rfl

theorem untrapped_validate (h : ¬ g.Overflows) : Untrapped g.validate := by
  intro t htrap
  have hjudged := judged_validate g
  rw [htrap] at hjudged
  cases hjudged with
  | overflow overflows => exact h overflows

end Geometry

/-! ## Layouts -/

namespace Layout

/-- A layout is given up rather than computed past a word. -/
theorem exists_packed (base : UInt32) (s : Shape) (bytes : Nat) (guard : UInt32) :
    ∃ l?, packed base s bytes guard = .ok l? := by
  cases hplace : place? base s bytes guard with
  | none =>
    refine ⟨none, ?_⟩
    rw [packed, hplace]
  | some l => exact ⟨_, packed_of_place? hplace⟩

end Layout

/-! ## Configurations -/

namespace Config

variable {c : Config}

theorem geometry_of_overflows (h : c.rawGeometry.Overflows) :
    c.geometry = .error (.trap .overflow) := by
  rw [geometry, h.validate]

theorem untrapped_geometry (h : ¬ c.rawGeometry.Overflows) : Untrapped c.geometry := by
  have hraw := Geometry.untrapped_validate h
  intro t htrap
  unfold geometry at htrap
  split at htrap
  · cases htrap
  · next hv => exact hraw _ hv
  · cases htrap

theorem untrapped_layout (c : Config) : Untrapped c.layout := by
  obtain ⟨l?, hpacked⟩ :=
    Layout.exists_packed c.memory.base c.shape c.array.format.bytes c.job.guardBytes
  refine (untrapped_liftM hpacked).bind fun _ _ => ?_
  intro t htrap
  split at htrap <;> cases htrap

/-- The most elements that a side of the problem has after the check of the tile
counts. -/
def maxSide : Nat := 0xFFFF * Geometry.maxBeatBytes

/-- Few tiles cover few elements. -/
theorem le_maxSide {a l : Nat} (hl : 0 < l) (hle : l ≤ Geometry.maxBeatBytes)
    (htiles : tilesOver a l ≤ 0xFFFF) : a ≤ maxSide := by
  rcases Nat.eq_zero_or_pos a with rfl | ha
  · exact Nat.zero_le maxSide
  · calc a ≤ tilesOver a l * l := le_tilesOver_mul ha hl
      _ ≤ maxSide := Nat.mul_le_mul htiles hle

/-- The beats of a stream, a side times two counts of tiles, are counted in a word. -/
theorem untrapped_beats {ε α : Type} {side cols rows : Nat} {rest : Nat → Outcome ε α}
    (hside : side ≤ maxSide) (hcols : cols ≤ 0xFFFF) (hrows : rows ≤ 0xFFFF)
    (hrest : ∀ beats, Untrapped (rest beats)) :
    Untrapped (do rest (← Word.mul (← Word.mul side cols) rows)) := by
  have hfirst : side * cols ≤ maxSide * 0xFFFF := Nat.mul_le_mul hside hcols
  have hsecond : side * cols * rows ≤ maxSide * 0xFFFF * 0xFFFF := Nat.mul_le_mul hfirst hrows
  have hword : maxSide * 0xFFFF < Word.limit := by decide
  have hwords : maxSide * 0xFFFF * 0xFFFF < Word.limit := by decide
  rw [Word.mul_of_lt (Nat.lt_of_le_of_lt hfirst hword), liftM_ok, ok_bind,
    Word.mul_of_lt (Nat.lt_of_le_of_lt hsecond hwords), liftM_ok, ok_bind]
  exact hrest _

/-- A matrix of so few rows ends before a word does, wherever it is. -/
theorem untrapped_checkBuffers {base finish : Nat} :
    ∀ {buffers : List (String × UInt32 × UInt32 × Nat)}, (∀ b ∈ buffers, b.2.2.2 ≤ maxSide) →
      Untrapped (checkBuffers base finish buffers) := by
  intro buffers
  induction buffers with
  | nil =>
    intro _
    exact untrapped_ok ()
  | cons buffer rest ih =>
    intro hrows
    obtain ⟨matrix, addr, pitch, rows⟩ := buffer
    obtain ⟨hrows, hrest⟩ := List.forall_mem_cons.mp hrows
    have hlen : pitch.toNat * rows ≤ Word.limit32 * maxSide :=
      Nat.mul_le_mul (Nat.le_of_lt pitch.toNat_lt) hrows
    have haddr : addr.toNat < Word.limit32 := addr.toNat_lt
    have hwords : Word.limit32 + Word.limit32 * maxSide < Word.limit := by decide
    have hmul := Word.mul_of_lt (a := pitch.toNat) (b := rows) (by omega)
    have hadd := Word.add_of_lt (a := addr.toNat) (b := pitch.toNat * rows) (by omega)
    refine (untrapped_liftM hmul).bind fun len hlen => ?_
    obtain rfl : len = pitch.toNat * rows := by
      rw [hmul] at hlen
      cases hlen
      rfl
    refine (untrapped_liftM hadd).bind fun matrixEnd _ => ?_
    exact untrapped_ite_fail fun _ => ih hrest

/-- Once the array is known to be one, nothing traps. -/
theorem untrapped_validate (h : ¬ c.rawGeometry.Overflows) : Untrapped c.validate := by
  unfold validate
  refine (untrapped_geometry h).bind fun g hg => ?_
  obtain ⟨hvalid, rfl⟩ := geometry_eq_ok_iff.mp hg
  -- the tile counts bound the sides, and the sides everything else
  refine untrapped_ite_fail fun _ => untrapped_ite_fail fun htiles => ?_
  simp only [List.any_cons, List.any_nil, Bool.or_false, Bool.or_eq_true, decide_eq_true_eq, not_or,
    Nat.not_lt] at htiles
  obtain ⟨hrows, hcols, houts⟩ := htiles
  have hwidth : c.rawGeometry.width ≤ maxSide :=
    Nat.le_trans hvalid.width_le (by decide)
  have hm : c.shape.m ≤ maxSide := le_maxSide hvalid.width_pos hvalid.width_le hrows
  have hn : c.shape.n ≤ maxSide := le_maxSide hvalid.width_pos hvalid.width_le hcols
  refine untrapped_beats hwidth hcols hrows fun xBeats => ?_
  refine untrapped_beats hn houts hrows fun wBeats => ?_
  refine untrapped_beats hwidth houts hrows fun yzBeats => ?_
  refine untrapped_ite_fail fun _ => untrapped_ite_fail fun _ => ?_
  refine (untrapped_layout c).bind fun layout _ => untrapped_checkBuffers fun b hb => ?_
  simp only [List.mem_cons, List.not_mem_nil, or_false] at hb
  rcases hb with rfl | rfl | rfl | rfl
  exacts [hm, hn, hm, hm]

/-- **Checking a configuration traps for one reason only.** An array is accepted exactly
if it is not empty and its beats have at most 64 bytes. Otherwise it is refused with the
reason, unless the bytes of a beat are more than a word counts: then the check traps. The
check of a configuration traps with that of its array, and for nothing else. -/
theorem validate_traps_only (g : Geometry) (c : Config) :
    (g.validate = .ok () ↔ g.Valid) ∧ g.Judged g.validate ∧
      (c.rawGeometry.Overflows → c.validate = .error (.trap .overflow)) ∧
      (¬ c.rawGeometry.Overflows →
        c.validate = .ok () ∨ ∃ flaw, c.validate = .error (.error flaw)) := by
  refine ⟨Geometry.validate_eq_ok_iff, g.judged_validate, ?_, ?_⟩
  · intro h
    unfold validate
    rw [geometry_of_overflows h]
    rfl
  · intro h
    have huntrapped := untrapped_validate h
    cases hv : c.validate with
    | ok u => exact .inl rfl
    | error stop =>
      cases stop with
      | trap t => exact absurd hv (huntrapped t)
      | error flaw => exact .inr ⟨flaw, rfl⟩

/-- The built-in configuration with an array of 2^63 rows of two registers. -/
def tallest : Config :=
  { builtIn with array := ⟨Word.halfLimit, 2, .fp8⟩ }

/-- So tall an array is neither accepted nor refused. -/
theorem validate_tallest :
    tallest.rawGeometry.height < Word.limit ∧ tallest.rawGeometry.pipeRegs < Word.limit ∧
    Geometry.maxBeatBytes < tallest.rawGeometry.beatBytes ∧
    tallest.rawGeometry.validate = .error (.trap .overflow) ∧
    tallest.validate = .error (.trap .overflow) := by
  decide

end Config

end SystolicGemm
