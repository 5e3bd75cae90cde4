import SystolicGemm.Proofs.Engine.Cells

/-!
# Which beats are there when

Closed forms of a schedule compared with each other: a tile is computed when all
of its beats have come in and none of them is driven out yet, Z is only stored
from the tile computed last, and no beat of Y is loaded before its namesake of Z
is stored.
-/

namespace SystolicGemm

namespace Station

variable {g : Geometry} {p : Plan}

/-- Beats that have been moved. -/
def beats (g : Geometry) (p : Plan) (s : Station) : Nat :=
  s.moved g p .x + s.moved g p .w + s.moved g p .y + s.moved g p .z

/-- Z trails the tiles that are computed, by less than a tile. -/
theorem z_window (s : Station) : (s.tally g p).z ≤ (s.tally g p).computed * g.width ∧
    (s.tally g p).computed * g.width ≤ (s.tally g p).z + g.width := by
  obtain ⟨phase, t⟩ := s
  cases phase with
  | idle | starting => simp [tally, Tally.none]
  | computing | finished => simp [tally]
  | storing =>
    simp only [tally, Nat.succ_mul]
    omega

/-- Y is ahead of Z. -/
theorem z_le_y (s : Station) : (s.tally g p).z ≤ (s.tally g p).y := by
  obtain ⟨phase, t⟩ := s
  cases phase with
  | idle | starting | finished => simp [tally, Tally.none]
  | computing | storing =>
    simp only [tally, Nat.succ_mul]
    omega

/-- Where the next row of W belongs, if a subcycle takes one: row `k` of tile `q`. -/
theorem Valid.w_window {s : Station} (h : s.Valid g p)
    (hw : ((s.tick g).tally g p).w = (s.tally g p).w + 1) :
    ∃ q k, k < p.colTiles * g.width ∧ (s.tally g p).w = q * (p.colTiles * g.width) + k ∧
      s.movedW g p = q * p.n + min p.n k ∧ (s.tick g).movedW g p = q * p.n + min p.n (k + 1) := by
  cases h with
  | starting => simp [tick, tally, Tally.none] at hw
  | storing => simp [tick, tally] at hw
  | finished => simp [tick] at hw
  | @computing h c s t hh hc hs hrow hcol =>
    have hlt := rowMajor_lt hh hc
    simp only [tick, tally, Nat.add_assoc, Nat.add_left_cancel_iff] at hw
    -- W moves in the first subcycle of a cycle only
    have hsub : s = 0 := by
      unfold Engine.nextSub cyclesBegun at hw
      split at hw <;> simp only [] at hw <;> omega
    subst hsub
    have hbegun : cyclesBegun c 0 = c := by simp [cyclesBegun]
    refine ⟨p.index t, h * g.width + c, hlt, ?_, ?_, ?_⟩
    · simp only [tally, hbegun, Plan.xRowBeats]
    · simp only [movedW, hbegun]
    · simp only [movedW, tick, hw, hbegun, Nat.add_assoc]

/-- A subcycle that takes a slot of W moves a beat unless the row lies past the contraction. -/
theorem Valid.w_beat_iff {s : Station} (h : s.Valid g p) {pay : Payload} (hm : s.Moves g p pay)
    (hw : pay.take (s.tally g p) = (s.tally g p).take .w) :
    pay.beat? = some .w ↔ (s.tally g p).w % (p.colTiles * g.width) < p.n := by
  have htick := congrArg Tally.w (hm.tally.trans hw)
  obtain ⟨q, k, hk, hcount, hrow, hrow'⟩ := h.w_window htick
  have hmoved := hm.movedW
  rw [hrow, hrow'] at hmoved
  rw [hcount, (div_mod_of_lt hk).2]
  constructor
  · intro hbeat
    rw [if_pos hbeat] at hmoved
    omega
  · intro hlt
    by_contra hbeat
    rw [if_neg hbeat] at hmoved
    omega

/-- A beat of W is for a row within the contraction. -/
theorem Valid.w_lt {s : Station} (h : s.Valid g p) {t : Transfer}
    (hm : s.Moves g p (.transfer t)) (hw : t.operand = .w) :
    (s.tally g p).w % (p.colTiles * g.width) < p.n :=
  (h.w_beat_iff hm (by rw [Payload.take, hw])).mp (by rw [Payload.beat?, hw])

/-- Padding of W is for a row past it. -/
theorem Valid.not_w_lt {s : Station} (h : s.Valid g p) (hm : s.Moves g p .paddingW) :
    ¬ (s.tally g p).w % (p.colTiles * g.width) < p.n := by
  rw [← h.w_beat_iff hm rfl]
  exact nofun

/-- **Streams and store count the same beats.** Only the store counts the padding of W. -/
theorem Valid.moved_eq_beats (hp : p.Sound g) {s : Station} (h : s.Valid g p) (o : Operand) :
    s.moved g p o = (s.tally g p).beats g p.n p.colTiles o := by
  cases o with
  | x | y | z => rfl
  | w =>
    have hwhole : ∀ q, TileStore.wBeats g p.n p.colTiles (q * (p.colTiles * g.width)) = q * p.n :=
      fun q => by simpa using TileStore.wBeats_add hp.n_le (q := q) (Nat.zero_le _)
    show s.movedW g p = TileStore.wBeats g p.n p.colTiles (s.tally g p).w
    cases h with
    | starting =>
      simp only [tally, Tally.none, movedW]
      simpa using (hwhole 0).symm
    | storing => exact (hwhole _).symm
    | finished => exact (hwhole _).symm
    | @computing h c s t hh hc =>
      have hlt := rowMajor_lt hh hc
      have hbegun : cyclesBegun c s ≤ c + 1 := by
        unfold cyclesBegun
        omega
      exact (TileStore.wBeats_add hp.n_le (by omega)).symm

/-- **A tile is computed when its beats are all there.** -/
theorem Valid.ready {s : Station} (h : s.Valid g p) (hcloses : s.closes g p = true) :
    TileStore.Ready ((s.tick g).tally g p) g p s.tile := by
  cases h with
  | starting | storing | finished => cases hcloses
  | @computing h c s t hh hc hs hrow hcol =>
    simp only [closes, Bool.and_eq_true, beq_iff_eq] at hcloses
    obtain ⟨hend, hclose⟩ := hcloses
    have hsub := nextSub_eq_of_le hc (Nat.le_of_eq hend.symm)
    -- the closing hypercycle is the one of the last chunk
    have hbeats : p.xRowBeats g.width = h * g.width + g.width := by
      rw [Plan.xRowBeats, ← hclose, Nat.succ_mul]
    constructor
    · simp only [tick, hsub, tally]
      rw [← Plan.xRowBeats, hbeats]
      simp only [Nat.add_mul]
      split <;> omega
    · simp only [tick, hsub, tally, cyclesBegun]
      rw [← Plan.xRowBeats, hbeats, Nat.succ_mul]
      omega
    · simp only [tick, tally]
    · simp only [tick, tally]
    · simp only [tick, tally]

theorem Valid.col_lt {s : Station} (h : s.Valid g p) (hcloses : s.closes g p = true) :
    s.tile.col < p.wColTiles := by
  cases h with
  | starting | storing | finished => cases hcloses
  | computing _ _ _ _ hcol => exact hcol

/-- Only rows of the tile computed last are stored. -/
theorem Moves.z_lt {s : Station} {t : Transfer} (h : s.Moves g p (.transfer t))
    (hz : t.operand = .z) : (s.tally g p).z < (s.tally g p).computed * g.width ∧
      (s.tally g p).computed * g.width ≤ (s.tally g p).z + g.width := by
  have hnext := (s.tick g).z_window (g := g) (p := p)
  rw [h.tally, Payload.take, hz] at hnext
  exact ⟨hnext.1, (s.z_window).2⟩

variable {m : Memory}

/-- **The slot of a beat is the one that is to hold it.** -/
theorem Valid.held_due (hp : p.Sound g) {s : Station} (h : s.Valid g p) {t : Transfer}
    (hm : s.Moves g p (.transfer t)) :
    p.held g m t.operand ((s.tally g p).count t.operand) =
      some (p.carried g m t.operand (s.moved g p t.operand)) := by
  by_cases hw : t.operand = .w
  · have hlt := h.w_lt hm hw
    rw [hw, h.moved_eq_beats hp, Tally.count, Tally.beats, TileStore.wBeats,
      Nat.min_eq_right (Nat.le_of_lt hlt), Plan.held, if_pos hlt]
    rfl
  · cases ho : t.operand
    case w => exact absurd ho hw
    all_goals rfl

/-- The slot of a padding row of W is to hold nothing. -/
theorem Valid.held_padding {s : Station} (h : s.Valid g p) (hm : s.Moves g p .paddingW) :
    p.held g m .w (s.tally g p).w = none := by
  rw [Plan.held, if_neg (h.not_w_lt hm)]

end Station

end SystolicGemm
