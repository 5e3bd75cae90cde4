import SystolicGemm.Proofs.Engine.Tiles

/-!
# The schedule of a job

The control machine knows nothing of streams and slots: it counts subcycles,
and each of the four streams and every cursor of the store counts for itself.
This module says once where all of them are. `Station.tally` and `Station.moved`
are closed forms of what has been moved when the machine is about to run a
subcycle, and `Station.steps` is how many subcycles it has run.

A subcycle ticks the innermost counters and then carries. The closed forms are
written so that they also hold between the two, where a counter has reached its
end: a tick adds what the subcycle moves, and a carry changes nothing, except
that the last one of a tile computes it.
-/

namespace SystolicGemm

/-! ## Stations -/

/-- Where a job is. -/
structure Station where
  phase : Phase
  tile : Tile
  deriving DecidableEq, Repr

/-- The slots for beats that a phase has passed. The first subcycle of a cycle
is none of them. -/
def slotsBefore (g : Geometry) (cycle sub : Nat) : Nat := cycle * g.pipeRegs + (sub - 1)

/-- The cycles of a phase whose first subcycle has passed. -/
def cyclesBegun (cycle sub : Nat) : Nat := cycle + min sub 1

namespace Station

/-- The stations of a job. -/
inductive Valid (g : Geometry) (p : Plan) : Station → Prop
  | starting {s : Nat} (hs : s < 3 * g.width) : Valid g p ⟨.starting s, ⟨0, 0⟩⟩
  | computing {h c s : Nat} {t : Tile} (hh : h < p.colTiles) (hc : c < g.width)
      (hs : s < g.depth) (hrow : t.row < p.xRowTiles) (hcol : t.col < p.wColTiles) :
      Valid g p ⟨.computing h c s, t⟩
  | storing {c s : Nat} {t : Tile} (hc : c < p.storeRounds t * g.height) (hs : s < g.depth)
      (hrow : t.row < p.xRowTiles) (hcol : t.col < p.wColTiles) :
      Valid g p ⟨.storing c s (Engine.storeQueue g.width p t), t⟩
  | finished : Valid g p ⟨.finished, ⟨p.xRowTiles, 0⟩⟩

/-- What has gone through the store. -/
def tally (g : Geometry) (p : Plan) : Station → Tally
  | ⟨.idle, _⟩ => .none
  | ⟨.starting s, _⟩ => {
      Tally.none with
      x := min (s - g.width) (min p.colTiles 2 * g.width)
      y := min s g.width }
  | ⟨.computing h c s, t⟩ => {
      x := t.row * p.xRowBeats g.width +
        if t.col = 0 then
          min (p.xRowBeats g.width) ((h + 2) * g.width + min (slotsBefore g c s) g.width)
        else p.xRowBeats g.width
      w := p.index t * p.xRowBeats g.width + (h * g.width + cyclesBegun c s)
      y := (p.index t + 1) * g.width
      z := p.index t * g.width
      retired := t.row
      computed := p.index t }
  | ⟨.storing c s _, t⟩ => {
      x := (t.row + 1) * p.xRowBeats g.width + (slotsBefore g c s - 2 * g.width)
      w := (p.index t + 1) * p.xRowBeats g.width
      y := (p.index t + 1) * g.width + (min (slotsBefore g c s) (2 * g.width) - g.width)
      z := p.index t * g.width + min (slotsBefore g c s) g.width
      retired := t.row + if t.col + 1 = p.wColTiles then 1 else 0
      computed := p.index t + 1 }
  | ⟨.finished, _⟩ => {
      x := p.xRowTiles * p.xRowBeats g.width
      w := p.tiles * p.xRowBeats g.width
      y := p.tiles * g.width
      z := p.tiles * g.width
      retired := p.xRowTiles
      computed := p.tiles }

/-- Beats of W that have been moved: of each tile no more than the contraction
is long. -/
def movedW (g : Geometry) (p : Plan) : Station → Nat
  | ⟨.idle, _⟩ | ⟨.starting _, _⟩ => 0
  | ⟨.computing h c s, t⟩ => p.index t * p.n + min p.n (h * g.width + cyclesBegun c s)
  | ⟨.storing .., t⟩ => (p.index t + 1) * p.n
  | ⟨.finished, _⟩ => p.tiles * p.n

/-- Beats of an operand that have been moved. -/
def moved (g : Geometry) (p : Plan) (s : Station) : Operand → Nat
  | .x => (s.tally g p).x
  | .w => s.movedW g p
  | .y => (s.tally g p).y
  | .z => (s.tally g p).z

/-- Subcycles that have been run. -/
def steps (g : Geometry) (p : Plan) : Station → Nat
  | ⟨.idle, _⟩ => 0
  | ⟨.starting s, _⟩ => s
  | ⟨.computing h c s, t⟩ =>
    3 * g.width + p.index t * (p.colTiles * g.width * g.depth) +
      g.height * g.depth * (2 * p.index t + t.row * min p.colTiles 2) +
      ((h * g.width + c) * g.depth + s)
  | ⟨.storing c s _, t⟩ =>
    3 * g.width + (p.index t + 1) * (p.colTiles * g.width * g.depth) +
      g.height * g.depth * (2 * p.index t + t.row * min p.colTiles 2) +
      (c * g.depth + s)
  | ⟨.finished, _⟩ => p.subcycles g

/-- Hypercycles that have been counted. -/
def hypercycles (p : Plan) : Station → Nat
  | ⟨.idle, _⟩ | ⟨.starting _, _⟩ => 0
  | ⟨.computing h _ _, t⟩ => p.index t * p.colTiles + h
  | ⟨.storing .., t⟩ => (p.index t + 1) * p.colTiles
  | ⟨.finished, _⟩ => p.tiles * p.colTiles

/-- Tiles that have been stored. -/
def stored (p : Plan) : Station → Nat
  | ⟨.idle, _⟩ | ⟨.starting _, _⟩ => 0
  | ⟨.computing .., t⟩ | ⟨.storing .., t⟩ => p.index t
  | ⟨.finished, _⟩ => p.tiles

/-- The innermost counters one subcycle on, which may bring them to their end. -/
def tick (g : Geometry) : Station → Station
  | ⟨.starting s, t⟩ => ⟨.starting (s + 1), t⟩
  | ⟨.computing h c s, t⟩ =>
    ⟨.computing h (Engine.nextSub g c s).1 (Engine.nextSub g c s).2, t⟩
  | ⟨.storing c s q, t⟩ => ⟨.storing (Engine.nextSub g c s).1 (Engine.nextSub g c s).2 q, t⟩
  | s => s

/-- Counters that have come to their end carried into the next ones. -/
def carry (g : Geometry) (p : Plan) : Station → Station
  | ⟨.starting s, t⟩ => if s = 3 * g.width then ⟨.computing 0 0 0, t⟩ else ⟨.starting s, t⟩
  | ⟨.computing h c s, t⟩ =>
    if c ≠ g.width then ⟨.computing h c s, t⟩
    else if h + 1 ≠ p.colTiles then ⟨.computing (h + 1) 0 s, t⟩
    else ⟨.storing 0 0 (Engine.storeQueue g.width p t), t⟩
  | ⟨.storing c s q, t⟩ =>
    if c < (q.length + g.pipeRegs - 1) / g.pipeRegs then ⟨.storing c s q, t⟩
    else
      let t := Engine.nextTile p t
      ⟨if t.row = p.xRowTiles then .finished else .computing 0 0 0, t⟩
  | s => s

/-- The station after a subcycle. -/
def next (g : Geometry) (p : Plan) (s : Station) : Station := (s.tick g).carry g p

/-- Whether a subcycle is the last one before its tile is computed. -/
def closes (g : Geometry) (p : Plan) : Station → Bool
  | ⟨.computing h c s, _⟩ => (Engine.nextSub g c s).1 == g.width && h + 1 == p.colTiles
  | _ => false

end Station

/-- The tally after a subcycle with this payload. -/
def Payload.take : Payload → Tally → Tally
  | .transfer t, c => c.take t.operand
  | .paddingW, c => c.take .w
  | .bubble _, c => c

/-- The operand of which a payload is a beat. -/
def Payload.beat? : Payload → Option Operand
  | .transfer t => some t.operand
  | .paddingW | .bubble _ => none

/-! ## Ticks -/

section

variable {g : Geometry} {p : Plan}

/-- The first subcycle of a cycle begins it, and every other one is a slot. -/
theorem counters_nextSub (hg : g.Valid) (c s : Nat) :
    slotsBefore g (Engine.nextSub g c s).1 (Engine.nextSub g c s).2 =
        slotsBefore g c s + (if s = 0 then 0 else 1) ∧
      cyclesBegun (Engine.nextSub g c s).1 (Engine.nextSub g c s).2 =
        cyclesBegun c s + (if s = 0 then 1 else 0) ∧
      (Engine.nextSub g c s).1 * g.depth + (Engine.nextSub g c s).2 = c * g.depth + s + 1 := by
  have hp := hg.pipeRegs_pos
  unfold slotsBefore cyclesBegun Engine.nextSub
  have hd : g.depth = g.pipeRegs + 1 := rfl
  by_cases he : s + 1 = g.depth
  · simp only [if_pos he, Nat.succ_mul]
    split <;> omega
  · simp only [if_neg he]
    split <;> omega

/-- The subcycles of `k` rounds of the store phase. -/
theorem add_rounds (b k : Nat) :
    g.height * g.depth * b + k * g.height * g.depth = g.height * g.depth * (b + k) := by
  rw [Nat.mul_add, Nat.mul_assoc k, Nat.mul_comm k]

theorem nextSub_lt {c s : Nat} (hs : s < g.depth) : (Engine.nextSub g c s).2 < g.depth := by
  unfold Engine.nextSub
  split
  · exact Nat.succ_pos _
  · exact Nat.lt_of_le_of_ne hs ‹_›

/-- A counter that comes to its end does so with the last subcycle of a cycle. -/
theorem nextSub_eq_of_le {c s last : Nat} (hc : c < last)
    (h : last ≤ (Engine.nextSub g c s).1) : Engine.nextSub g c s = (last, 0) := by
  unfold Engine.nextSub at h ⊢
  split at h
  · next he =>
    have hlast : c + 1 = last := Nat.le_antisymm hc h
    rw [if_pos he, hlast]
  · exact absurd hc (Nat.not_lt.mpr h)

theorem nextSub_le (c s : Nat) : (Engine.nextSub g c s).1 ≤ c + 1 := by
  unfold Engine.nextSub
  split <;> simp

namespace Station

/-- The next beat of its operand. -/
def Due (g : Geometry) (p : Plan) (s : Station) (t : Transfer) : Prop :=
  t = p.transfer g.width t.operand (s.moved g p t.operand) ∧
    s.moved g p t.operand < p.beats g.width t.operand

theorem due_of {s : Station} {o : Operand} {i r c : Nat} (hi : i < p.lines g.width o)
    (hc : c < p.columns o) (hr : r < p.xRowTiles)
    (h : s.moved g p o = (r * p.columns o + c) * p.lines g.width o + i) :
    s.Due g p (.of o i r c) := by
  unfold Due
  rw [Transfer.operand_of, h]
  exact ⟨(p.transfer_of hi hc).symm, p.beat_lt hi hc hr⟩

/-- What a subcycle moves is what the closed forms count. -/
structure Moves (g : Geometry) (p : Plan) (s : Station) (pay : Payload) : Prop where
  due : ∀ t, pay = .transfer t → s.Due g p t
  tally : (s.tick g).tally g p = pay.take (s.tally g p)
  movedW : (s.tick g).movedW g p = s.movedW g p + if pay.beat? = some .w then 1 else 0

theorem Moves.moved {s : Station} {pay : Payload} (h : s.Moves g p pay) (o : Operand) :
    (s.tick g).moved g p o = s.moved g p o + if pay.beat? = some o then 1 else 0 := by
  cases o with
  | w => exact h.movedW
  | _ =>
    simp only [Station.moved, h.tally]
    cases pay with
    | transfer t => cases t <;> simp [Payload.take, Payload.beat?, Transfer.operand, Tally.take]
    | _ => rfl

theorem moves_starting (hp : p.Sound g) {s : Nat} (hs : s < 3 * g.width) {pay : Payload}
    (h : Engine.payload? g p ⟨0, 0⟩ (.starting s) = some pay) :
    Moves g p ⟨.starting s, ⟨0, 0⟩⟩ pay := by
  have hl := hp.width_pos
  unfold Engine.payload? at h
  simp only [] at h
  split at h
  · next hlt =>
    -- the first `width` beats are the rows of Y for the first tile
    cases h
    refine ⟨?_, ?_, rfl⟩
    · rintro t ⟨⟩
      refine due_of (o := .y) (i := s) (r := 0) (c := 0) hlt hp.wColTiles_pos hp.xRowTiles_pos ?_
      simp [moved, tally, Plan.lines]
      omega
    · simp [tick, tally, Payload.take, Transfer.operand, Tally.take]
      omega
  next hge =>
  split at h
  · next hchunk =>
    -- then up to two chunks of X
    cases h
    have hmul := Nat.mul_le_mul_right g.width (Nat.succ_le_of_lt hchunk)
    have hdiv := Nat.div_add_mod' (s - g.width) g.width
    have hmod := Nat.mod_lt (s - g.width) hl
    rw [Nat.succ_mul] at hmul
    have hmin : s - g.width < min p.colTiles 2 * g.width := by
      rcases Nat.le_total p.colTiles 2 with h2 | h2
      · rw [Nat.min_eq_left h2]
        omega
      · rw [Nat.min_eq_right h2]
        omega
    refine ⟨?_, ?_, rfl⟩
    · rintro t ⟨⟩
      refine due_of (o := .x) (i := (s - g.width) % g.width) (r := 0)
        (c := (s - g.width) / g.width) hmod hchunk hp.xRowTiles_pos ?_
      simp [moved, tally, Plan.lines]
      omega
    · simp [tick, tally, Payload.take, Transfer.operand, Tally.take]
      omega
  · next hchunk =>
    -- a contraction of one chunk leaves the last `width` subcycles idle
    cases h
    have hmul := Nat.mul_le_mul_right g.width (Nat.le_of_not_lt hchunk)
    have hdiv := Nat.div_mul_le_self (s - g.width) g.width
    have hmin := Nat.mul_le_mul_right g.width (Nat.min_le_left p.colTiles 2)
    refine ⟨?_, ?_, rfl⟩
    · rintro t ⟨⟩
    · simp [tick, tally, Payload.take]
      omega

theorem moves_computing (hg : g.Valid) (hp : p.Sound g) {h c s : Nat} {t : Tile}
    (hrow : t.row < p.xRowTiles) (hcol : t.col < p.wColTiles) {pay : Payload}
    (hpay : Engine.payload? g p t (.computing h c s) = some pay) :
    Moves g p ⟨.computing h c s, t⟩ pay := by
  have hl := hp.width_pos
  obtain ⟨hslots, hbegun, -⟩ := counters_nextSub hg c s
  cases s with
  | zero =>
    -- the first subcycle of a cycle takes a row of W, or padding past the contraction
    simp only [Engine.payload?] at hpay
    have hbegun0 : cyclesBegun c 0 = c := rfl
    split at hpay
    · next hk =>
      cases hpay
      refine ⟨?_, ?_, ?_⟩
      · rintro u ⟨⟩
        refine due_of (o := .w) (i := h * g.width + c) hk hcol hrow ?_
        simp only [moved, movedW, hbegun0, Plan.lines, Plan.columns, Plan.index]
        omega
      · simp [tick, tally, Payload.take, Transfer.operand, Tally.take, hslots, hbegun]
        omega
      · simp [tick, movedW, Payload.beat?, Transfer.operand, hbegun, hbegun0]
        omega
    · next hk =>
      cases hpay
      refine ⟨?_, ?_, ?_⟩
      · rintro u ⟨⟩
      · simp [tick, tally, Payload.take, Tally.take, hslots, hbegun]
        omega
      · simp [tick, movedW, Payload.beat?, hbegun, hbegun0]
        omega
  | succ s =>
    -- the others load X two hypercycles ahead, while the row of tiles is new
    simp only [Engine.payload?] at hpay
    have hslots0 : slotsBefore g c (s + 1) = c * g.pipeRegs + s := rfl
    split at hpay
    · next hload =>
      cases hpay
      obtain ⟨hcol0, hi, hchunk⟩ := hload
      have hmul := Nat.mul_le_mul_right g.width (Nat.succ_le_of_lt hchunk)
      rw [Nat.succ_mul] at hmul
      refine ⟨?_, ?_, ?_⟩
      · rintro u ⟨⟩
        refine due_of (o := .x) (r := t.row) hi hchunk hrow ?_
        simp only [moved, tally, hslots0, Plan.lines, Plan.columns, Plan.xRowBeats, if_pos hcol0,
          Nat.add_mul _ _ g.width, Nat.mul_assoc] at *
        omega
      · simp [tick, tally, Payload.take, Transfer.operand, Tally.take, hslots, hslots0, hbegun,
          hcol0, Plan.xRowBeats]
        omega
      · simp [tick, movedW, Payload.beat?, Transfer.operand, hbegun]
    · next hload =>
      cases hpay
      refine ⟨?_, ?_, ?_⟩
      · rintro u ⟨⟩
      · have hmul : h + 2 < p.colTiles ∨ p.colTiles * g.width ≤ (h + 2) * g.width :=
          (Nat.lt_or_ge (h + 2) p.colTiles).imp_right (Nat.mul_le_mul_right _)
        simp [tick, tally, Payload.take, hslots, hslots0, hbegun, Plan.xRowBeats]
        split <;> omega
      · simp [tick, movedW, Payload.beat?, hbegun]

theorem moves_storing (hg : g.Valid) (hp : p.Sound g) {c s : Nat} {t : Tile}
    (hc : c < p.storeRounds t * g.height) (hs : s < g.depth) (hrow : t.row < p.xRowTiles)
    (hcol : t.col < p.wColTiles) {pay : Payload}
    (hpay : Engine.payload? g p t (.storing c s (Engine.storeQueue g.width p t)) = some pay) :
    Moves g p ⟨.storing c s (Engine.storeQueue g.width p t), t⟩ pay := by
  have hl := hp.width_pos
  obtain ⟨hslots, hbegun, -⟩ := counters_nextSub hg c s
  cases s with
  | zero =>
    cases hpay
    refine ⟨?_, ?_, rfl⟩
    · rintro u ⟨⟩
    · simp [tick, tally, Payload.take, hslots]
  | succ s =>
    have hslots0 : slotsBefore g c (s + 1) = c * g.pipeRegs + s := rfl
    have hi : c * g.pipeRegs + s < p.storeRounds t * g.width := by
      have h1 := Nat.mul_le_mul_right g.pipeRegs (Nat.succ_le_of_lt hc)
      rw [Nat.succ_mul, Nat.mul_assoc] at h1
      have hd : g.depth = g.pipeRegs + 1 := rfl
      have hw : g.width = g.height * g.pipeRegs := rfl
      rw [hw]
      omega
    simp only [Engine.payload?, Engine.getElem?_storeQueue hcol, if_pos hi] at hpay
    simp only [if_neg (Nat.succ_ne_zero s), hslots0] at hslots
    generalize c * g.pipeRegs + s = i at *
    have hround : i / g.width < p.storeRounds t := Nat.div_lt_of_lt_mul (Nat.mul_comm .. ▸ hi)
    have hline := Nat.mod_lt i hl
    have hdiv := Nat.div_add_mod' i g.width
    generalize i / g.width = round at *
    generalize i % g.width = line at *
    -- a round is a matrix, and the line in it is a row of the tile
    match round with
    | 0 =>
      cases hpay
      refine ⟨?_, ?_, rfl⟩
      · rintro u ⟨⟩
        refine due_of (o := .z) hline hcol hrow ?_
        simp only [moved, tally, hslots0, Plan.lines, Plan.columns, Plan.index]
        omega
      · simp [tick, tally, Payload.take, Transfer.operand, Tally.take, hslots, hslots0,
          Engine.storeSlot, Transfer.of]
        omega
    | 1 =>
      cases hpay
      refine ⟨?_, ?_, rfl⟩
      · rintro u ⟨⟩
        refine due_of (o := .y) hline (Engine.col_nextTile_lt hcol)
          (Plan.row_nextTile_lt hrow hcol hround) ?_
        have hindex := Engine.index_nextTile (p := p) (t := t)
        unfold Plan.index at hindex
        simp only [moved, tally, hslots0, Plan.lines, Plan.columns, hindex, Plan.index]
        omega
      · simp [tick, tally, Payload.take, Transfer.operand, Tally.take, hslots, hslots0,
          Engine.storeSlot, Transfer.of]
        omega
    | chunk + 2 =>
      cases hpay
      -- a third round comes only before a tile in the next row
      obtain ⟨hnext, hrounds⟩ : Engine.nextTile p t = ⟨t.row + 1, 0⟩ ∧
          p.storeRounds t = 2 + min p.colTiles 2 := by
        rcases Plan.nextTile_cases hrow hcol with ⟨_, h2, _⟩ | ⟨_, _, h2, hn⟩ | ⟨_, _, h1, _⟩
        · omega
        · exact ⟨hn, h2⟩
        · omega
      rw [Nat.add_mul] at hdiv
      refine ⟨?_, ?_, rfl⟩
      · rintro u ⟨⟩
        have hchunk : chunk < p.columns .x := by
          simp only [Plan.columns]
          omega
        refine due_of (o := .x) hline hchunk (Plan.row_nextTile_lt hrow hcol (by omega)) ?_
        simp only [moved, tally, hslots0, Plan.lines, Plan.columns, hnext, Plan.xRowBeats,
          Nat.add_mul _ _ g.width, Nat.mul_assoc]
        omega
      · simp [tick, tally, Payload.take, Transfer.operand, Tally.take, hslots, hslots0,
          Engine.storeSlot, Transfer.of]
        omega

/-- **The closed forms count what is moved.** -/
theorem Valid.moves (hg : g.Valid) (hp : p.Sound g) {s : Station} (h : s.Valid g p)
    {pay : Payload} (hpay : Engine.payload? g p s.tile s.phase = some pay) : s.Moves g p pay := by
  cases h with
  | starting hs => exact moves_starting hp hs hpay
  | computing _ _ _ hrow hcol => exact moves_computing hg hp hrow hcol hpay
  | storing hc hs hrow hcol => exact moves_storing hg hp hc hs hrow hcol hpay
  | finished => cases hpay

/-! ## Carries -/

/-- What a carry leaves as it was. -/
structure Carries (g : Geometry) (p : Plan) (s : Station) : Prop where
  valid : (s.next g p).Valid g p
  tally : (s.next g p).tally g p =
    if s.closes g p then
      TileStore.tallyComputed ((s.tick g).tally g p) (s.tile.col + 1 == p.wColTiles)
    else (s.tick g).tally g p
  movedW : (s.next g p).movedW g p = (s.tick g).movedW g p
  steps : (s.next g p).steps g p = s.steps g p + 1

theorem Carries.moved {s : Station} (h : s.Carries g p) (o : Operand) :
    (s.next g p).moved g p o = (s.tick g).moved g p o := by
  cases o with
  | w => exact h.movedW
  | _ =>
    simp only [Station.moved, h.tally]
    split <;> rfl

/-- Whether two stations have the same closed forms. -/
structure Same (g : Geometry) (p : Plan) (s s' : Station) : Prop where
  tally : s'.tally g p = s.tally g p
  movedW : s'.movedW g p = s.movedW g p
  steps : s'.steps g p = s.steps g p

theorem Carries.of_same {s : Station} (hvalid : (s.next g p).Valid g p)
    (hcloses : s.closes g p = false) (hsteps : (s.tick g).steps g p = s.steps g p + 1)
    (h : (s.tick g).Same g p (s.next g p)) : s.Carries g p where
  valid := hvalid
  tally := by
    rw [hcloses]
    exact h.tally
  movedW := h.movedW
  steps := h.steps.trans hsteps

/-- A subcycle counts for one. -/
theorem Valid.steps_tick (hg : g.Valid) {s : Station} (h : s.Valid g p)
    (hne : s.phase ≠ .finished) : (s.tick g).steps g p = s.steps g p + 1 := by
  cases h with
  | starting => rfl
  | @computing h c s t =>
    obtain ⟨-, -, hticks⟩ := counters_nextSub hg c s
    simp only [steps, tick, Nat.add_mul]
    omega
  | @storing c s t =>
    obtain ⟨-, -, hticks⟩ := counters_nextSub hg c s
    simp only [steps, tick]
    omega
  | finished => exact absurd rfl hne

/-! The ends of the counters, one after the other. -/

/-- The preload is over. -/
theorem same_starting : Same g p ⟨.starting (3 * g.width), ⟨0, 0⟩⟩ ⟨.computing 0 0 0, ⟨0, 0⟩⟩ := by
  have hmin := Nat.mul_le_mul_right g.width (Nat.min_le_right p.colTiles 2)
  refine ⟨?_, ?_, ?_⟩
  · simp [tally, slotsBefore, cyclesBegun, Plan.index, Plan.xRowBeats, Tally.none,
      Nat.mul_min_mul_right]
    omega
  · simp [movedW, Plan.index, cyclesBegun]
  · simp [steps, Plan.index]

theorem width_le_slotsBefore (hg : g.Valid) : g.width ≤ slotsBefore g g.width 0 :=
  Nat.le_mul_of_pos_right _ hg.pipeRegs_pos

theorem slotsBefore_zero : slotsBefore g 0 0 = 0 := by simp [slotsBefore]

/-- A hypercycle is over. -/
theorem same_computing (hg : g.Valid) (h : Nat) (t : Tile) :
    Same g p ⟨.computing h g.width 0, t⟩ ⟨.computing (h + 1) 0 0, t⟩ := by
  have hslots := width_le_slotsBefore hg
  refine ⟨?_, ?_, ?_⟩
  · simp [tally, cyclesBegun, slotsBefore_zero, Nat.add_mul]
    split <;> omega
  · simp [movedW, cyclesBegun, Nat.succ_mul]
  · simp only [steps, Nat.succ_mul, Nat.add_zero]

/-- The last hypercycle of a tile is over. Only the tile has been computed. -/
theorem closing (hg : g.Valid) (hp : p.Sound g) {h : Nat} (hclose : h + 1 = p.colTiles) (t : Tile)
    (q : List Transfer) :
    tally g p ⟨.storing 0 0 q, t⟩ = TileStore.tallyComputed
        (tally g p ⟨.computing h g.width 0, t⟩) (t.col + 1 == p.wColTiles) ∧
      movedW g p ⟨.storing 0 0 q, t⟩ = movedW g p ⟨.computing h g.width 0, t⟩ ∧
      steps g p ⟨.storing 0 0 q, t⟩ = steps g p ⟨.computing h g.width 0, t⟩ := by
  have hslots := width_le_slotsBefore hg
  have hbeats : p.xRowBeats g.width = (h + 1) * g.width := hclose ▸ rfl
  -- the rows of W past the contraction were padding and have not been moved
  have hn : p.n ≤ h * g.width + g.width := by
    have hn := hp.n_le
    rwa [← hclose, Nat.succ_mul] at hn
  refine ⟨?_, ?_, ?_⟩
  · simp [tally, cyclesBegun, TileStore.tallyComputed, slotsBefore_zero, hbeats, Nat.add_mul]
    omega
  · simp [movedW, cyclesBegun, Nat.succ_mul, Nat.min_eq_left hn]
  · simp only [steps, ← hclose, Nat.succ_mul]
    omega

/-- The store phase of a tile is over. -/
theorem same_storing {t : Tile} (hrow : t.row < p.xRowTiles)
    (hcol : t.col < p.wColTiles) (q : List Transfer) :
    Same g p ⟨.storing (p.storeRounds t * g.height) 0 q, t⟩
      ⟨if (Engine.nextTile p t).row = p.xRowTiles then .finished else .computing 0 0 0,
        Engine.nextTile p t⟩ := by
  have hslots : slotsBefore g (p.storeRounds t * g.height) 0 = p.storeRounds t * g.width := by
    simp [slotsBefore, Geometry.width, Nat.mul_assoc]
  have hindex := Engine.index_nextTile (p := p) (t := t)
  have hrounds := add_rounds (g := g) (k := p.storeRounds t)
  have hmin := Nat.mul_le_mul_right g.width (Nat.min_le_right p.colTiles 2)
  have hphase : ∀ {r : Nat}, r < p.xRowTiles →
      (if r = p.xRowTiles then Phase.finished else .computing 0 0 0) = .computing 0 0 0 :=
    fun h => if_neg (Nat.ne_of_lt h)
  -- what is left is arithmetic in the number of rounds
  generalize p.storeRounds t * g.height = last at *
  rcases Plan.nextTile_cases hrow hcol with
    ⟨hc, hk, hn⟩ | ⟨hc, hr, hk, hn⟩ | ⟨hc, hr, hk, hn⟩ <;> rw [hk] at hslots hrounds <;>
    rw [hn] at hindex ⊢
  · -- the next tile is in the same row, with the same tiles of X
    rw [hphase hrow]
    refine ⟨?_, ?_, ?_⟩
    · simp [tally, hindex, hslots, cyclesBegun, Nat.succ_mul]
      omega
    · simp [movedW, cyclesBegun, hindex]
    · have hb : 2 * (p.index t + 1) + t.row * min p.colTiles 2 =
          2 * p.index t + t.row * min p.colTiles 2 + 2 := by omega
      simp only [steps, hindex, hb, ← hrounds]
      omega
  · -- the next tile begins a row, and up to two chunks of X are there for it
    rw [hphase hr]
    rw [Nat.add_mul, ← Nat.mul_min_mul_right] at hslots
    refine ⟨?_, ?_, ?_⟩
    · simp [tally, hindex, hslots, slotsBefore_zero, Plan.xRowBeats, cyclesBegun, Nat.succ_mul]
      omega
    · simp [movedW, cyclesBegun, hindex]
    · have hb : 2 * (p.index t + 1) + (t.row + 1) * min p.colTiles 2 =
          2 * p.index t + t.row * min p.colTiles 2 + (2 + min p.colTiles 2) := by
        rw [Nat.succ_mul t.row]
        omega
      simp only [steps, hindex, hb, ← hrounds]
      omega
  · -- there is no next tile
    have htiles : p.tiles = p.index t + 1 := by
      rw [← hindex, Plan.index]
      rfl
    rw [if_pos rfl]
    refine ⟨?_, ?_, ?_⟩
    · simp [tally, htiles, hslots, ← hr, hc, Nat.succ_mul]
    · simp [movedW, htiles]
    · have hb : 2 * (p.index t + 1) - 1 + (p.xRowTiles - 1) * min p.colTiles 2 =
          2 * p.index t + t.row * min p.colTiles 2 + 1 := by
        rw [← hr, Nat.add_sub_cancel]
        omega
      simp only [steps, Plan.subcycles, htiles, hb, ← hrounds]
      omega

theorem carries_starting (hg : g.Valid) (hp : p.Sound g) {s : Nat} (hs : s < 3 * g.width) :
    Carries g p ⟨.starting s, ⟨0, 0⟩⟩ := by
  have hsteps := (Valid.starting (p := p) hs).steps_tick hg (by simp)
  by_cases he : s + 1 = 3 * g.width
  · have hnext : next g p ⟨.starting s, ⟨0, 0⟩⟩ = ⟨.computing 0 0 0, ⟨0, 0⟩⟩ := if_pos he
    refine .of_same ?_ rfl hsteps ?_
    · rw [hnext]
      exact .computing hp.colTiles_pos hp.width_pos (Nat.succ_pos _) hp.xRowTiles_pos
        hp.wColTiles_pos
    · rw [hnext, tick, he]
      exact same_starting
  · have hnext : next g p ⟨.starting s, ⟨0, 0⟩⟩ = ⟨.starting (s + 1), ⟨0, 0⟩⟩ := if_neg he
    refine .of_same ?_ rfl hsteps ?_
    · rw [hnext]
      exact .starting (by omega)
    · rw [hnext]
      exact ⟨rfl, rfl, rfl⟩

theorem carries_computing (hg : g.Valid) (hp : p.Sound g) {h c s : Nat} {t : Tile}
    (hh : h < p.colTiles) (hc : c < g.width) (hs : s < g.depth) (hrow : t.row < p.xRowTiles)
    (hcol : t.col < p.wColTiles) : Carries g p ⟨.computing h c s, t⟩ := by
  have hsteps := (Valid.computing hh hc hs hrow hcol).steps_tick hg (by simp)
  by_cases hend : (Engine.nextSub g c s).1 = g.width
  · have hsub := nextSub_eq_of_le hc (Nat.le_of_eq hend.symm)
    have htick : tick g ⟨.computing h c s, t⟩ = ⟨.computing h g.width 0, t⟩ := by rw [tick, hsub]
    by_cases hclose : h + 1 = p.colTiles
    · have hnext : next g p ⟨.computing h c s, t⟩ =
          ⟨.storing 0 0 (Engine.storeQueue g.width p t), t⟩ := by
        simp [next, htick, carry, hclose]
      have hcloses : closes g p ⟨.computing h c s, t⟩ = true := by simp [closes, hsub, hclose]
      obtain ⟨htally, hmoved, hstep⟩ := closing hg hp hclose t (Engine.storeQueue g.width p t)
      rw [htick] at hsteps
      refine ⟨?_, ?_, ?_, ?_⟩
      · rw [hnext]
        exact .storing (Nat.mul_pos Plan.storeRounds_pos hg.height_pos) (Nat.succ_pos _) hrow hcol
      · rw [hnext, hcloses, htick]
        exact htally
      · rw [hnext, htick]
        exact hmoved
      · rw [hnext]
        exact hstep.trans hsteps
    · have hnext : next g p ⟨.computing h c s, t⟩ = ⟨.computing (h + 1) 0 0, t⟩ := by
        simp [next, htick, carry, hclose]
      refine .of_same ?_ (by simp [closes, hclose]) hsteps ?_
      · rw [hnext]
        exact .computing (by omega) hp.width_pos (Nat.succ_pos _) hrow hcol
      · rw [hnext, htick]
        exact same_computing hg h t
  · have hnext : next g p ⟨.computing h c s, t⟩ = tick g ⟨.computing h c s, t⟩ := if_pos hend
    refine .of_same ?_ (by simp [closes, hend]) hsteps ?_
    · rw [hnext]
      have hle := nextSub_le (g := g) c s
      exact .computing hh (by omega) (nextSub_lt hs) hrow hcol
    · rw [hnext]
      exact ⟨rfl, rfl, rfl⟩

theorem carries_storing (hg : g.Valid) (hp : p.Sound g) {c s : Nat} {t : Tile}
    (hc : c < p.storeRounds t * g.height) (hs : s < g.depth) (hrow : t.row < p.xRowTiles)
    (hcol : t.col < p.wColTiles) :
    Carries g p ⟨.storing c s (Engine.storeQueue g.width p t), t⟩ := by
  have hsteps := (Valid.storing hc hs hrow hcol).steps_tick hg (by simp)
  have hcycles := Engine.storeCycles_eq hg hcol
  by_cases hend : (Engine.nextSub g c s).1 < p.storeRounds t * g.height
  · have hnext : next g p ⟨.storing c s (Engine.storeQueue g.width p t), t⟩ =
        tick g ⟨.storing c s (Engine.storeQueue g.width p t), t⟩ := if_pos (hcycles ▸ hend)
    refine .of_same ?_ rfl hsteps ?_
    · rw [hnext]
      exact .storing hend (nextSub_lt hs) hrow hcol
    · rw [hnext]
      exact ⟨rfl, rfl, rfl⟩
  · have hsub := nextSub_eq_of_le hc (Nat.le_of_not_lt hend)
    have htick : tick g ⟨.storing c s (Engine.storeQueue g.width p t), t⟩ =
        ⟨.storing (p.storeRounds t * g.height) 0 (Engine.storeQueue g.width p t), t⟩ := by
      rw [tick, hsub]
    have hnext : next g p ⟨.storing c s (Engine.storeQueue g.width p t), t⟩ =
        ⟨if (Engine.nextTile p t).row = p.xRowTiles then .finished else .computing 0 0 0,
          Engine.nextTile p t⟩ := by
      rw [next, htick, carry, hcycles, if_neg (Nat.lt_irrefl _)]
    refine .of_same ?_ rfl hsteps ?_
    · rw [hnext]
      split
      · next hlast =>
        have hn := Plan.eq_of_row_nextTile hrow hcol hlast
        rw [hn]
        exact .finished
      · next hlast =>
        exact .computing hp.colTiles_pos hp.width_pos (Nat.succ_pos _)
          (Nat.lt_of_le_of_ne (Plan.row_nextTile_le hrow hcol) hlast) (Engine.col_nextTile_lt hcol)
    · rw [hnext, htick]
      exact same_storing hrow hcol _

theorem Valid.carries (hg : g.Valid) (hp : p.Sound g) {s : Station} (h : s.Valid g p)
    (hne : s.phase ≠ .finished) : s.Carries g p := by
  cases h with
  | starting hs => exact carries_starting hg hp hs
  | computing hh hc hs hrow hcol => exact carries_computing hg hp hh hc hs hrow hcol
  | storing hc hs hrow hcol => exact carries_storing hg hp hc hs hrow hcol
  | finished => exact absurd rfl hne

/-! ## From the beginning to the end -/

theorem Valid.phase_ne_idle {s : Station} (h : s.Valid g p) : s.phase ≠ .idle := by
  cases h <;> simp

theorem Valid.exists_payload {s : Station} (h : s.Valid g p)
    (hne : s.phase ≠ .finished) : ∃ pay, Engine.payload? g p s.tile s.phase = some pay := by
  cases h with
  | starting hs =>
    simp only [Engine.payload?]
    split
    · exact ⟨_, rfl⟩
    split <;> exact ⟨_, rfl⟩
  | @computing h c s t hh hc hs hrow hcol =>
    cases s
    all_goals
      simp only [Engine.payload?]
      split <;> exact ⟨_, rfl⟩
  | @storing c s t hc hs hrow hcol =>
    cases s
    · exact ⟨_, rfl⟩
    · simp only [Engine.payload?]
      split <;> exact ⟨_, rfl⟩
  | finished => exact absurd rfl hne

theorem valid_start (hp : p.Sound g) : Valid g p ⟨.starting 0, ⟨0, 0⟩⟩ :=
  .starting (Nat.mul_pos (by decide) hp.width_pos)

theorem tally_start : tally g p ⟨.starting 0, ⟨0, 0⟩⟩ = .none := by simp [tally, Tally.none]

theorem moved_start (o : Operand) : moved g p ⟨.starting 0, ⟨0, 0⟩⟩ o = 0 := by
  cases o <;> simp [moved, movedW, tally_start, Tally.none]

/-- **A finished job has moved every beat.** -/
theorem moved_finished (t : Tile) (o : Operand) :
    moved g p ⟨.finished, t⟩ o = p.beats g.width o := by
  cases o <;>
    simp only [moved, movedW, tally, Plan.beats, Plan.lines, Plan.columns, Plan.tiles,
      Plan.xRowBeats] <;>
    ac_rfl

/-- A job that has not finished has subcycles left. -/
theorem Valid.steps_lt (hp : p.Sound g) {s : Station} (h : s.Valid g p)
    (hne : s.phase ≠ .finished) : s.steps g p < p.subcycles g := by
  have hl := hp.width_pos
  have hrows : ∀ {t : Tile}, t.row < p.xRowTiles →
      t.row * min p.colTiles 2 ≤ (p.xRowTiles - 1) * min p.colTiles 2 := fun h =>
    Nat.mul_le_mul_right _ (Nat.le_sub_one_of_lt h)
  unfold Plan.subcycles
  cases h with
  | starting hs =>
    simp only [steps]
    omega
  | @computing h c s t hh hc hs hrow hcol =>
    have hindex := p.index_lt hrow hcol
    have hr := hrows hrow
    -- the subcycle lies within its tile, and the tile within the tiles of the job
    have h1 : (h * g.width + c) * g.depth + s < p.colTiles * g.width * g.depth :=
      rowMajor_lt (rowMajor_lt hh hc) hs
    have h2 := Nat.mul_le_mul_right (p.colTiles * g.width * g.depth) (Nat.succ_le_of_lt hindex)
    have h3 : g.height * g.depth * (2 * p.index t + t.row * min p.colTiles 2) ≤
        g.height * g.depth * (2 * p.tiles - 1 + (p.xRowTiles - 1) * min p.colTiles 2) :=
      Nat.mul_le_mul_left _ (by omega)
    rw [Nat.succ_mul] at h2
    simp only [steps]
    omega
  | @storing c s t hc hs hrow hcol =>
    have hindex := p.index_lt hrow hcol
    have hr := hrows hrow
    have h1 : c * g.depth + s < p.storeRounds t * g.height * g.depth := rowMajor_lt hc hs
    have h2 := Nat.mul_le_mul_right (p.colTiles * g.width * g.depth) (Nat.succ_le_of_lt hindex)
    -- the rounds up to this tile are among those of the whole job
    have hb : 2 * p.index t + t.row * min p.colTiles 2 + p.storeRounds t ≤
        2 * p.tiles - 1 + (p.xRowTiles - 1) * min p.colTiles 2 := by
      have hnext := Engine.index_nextTile (p := p) (t := t)
      rcases Plan.nextTile_cases hrow hcol with
        ⟨hc, hk, hn⟩ | ⟨hc, hr', hk, hn⟩ | ⟨hc, hr', hk, hn⟩
      · have := p.index_lt (t := ⟨t.row, t.col + 1⟩) hrow hc
        rw [hn] at hnext
        omega
      · have := p.index_lt (t := ⟨t.row + 1, 0⟩) hr' hp.wColTiles_pos
        have := hrows (t := ⟨t.row + 1, 0⟩) hr'
        rw [hn] at hnext
        rw [Nat.succ_mul] at this
        omega
      · omega
    have h3 := Nat.mul_le_mul_left (g.height * g.depth) hb
    rw [← add_rounds] at h3
    simp only [steps, Nat.succ_mul] at *
    omega
  | finished => exact absurd rfl hne

theorem Valid.steps_le (hp : p.Sound g) {s : Station} (h : s.Valid g p) :
    s.steps g p ≤ p.subcycles g := by
  by_cases hne : s.phase = .finished
  · cases h with
    | finished => exact Nat.le_refl _
    | _ => cases hne
  · exact Nat.le_of_lt (h.steps_lt hp hne)

end Station

end

end SystolicGemm
