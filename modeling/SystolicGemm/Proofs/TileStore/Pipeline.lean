import Mathlib.Data.List.Basic
import SystolicGemm.Proofs.TileStore.Reading

/-!
# The store as a pipeline

A tile store has no idea of a job. Whoever uses it puts beats of X, W and Y into the slots
that it hands out, passes over the padding of W, asks for tiles to be computed and takes the
rows of Z. X may run ahead of the tiles by two chunks, past the end of a row of tiles and
however many rows have been used up, Y by one tile, and W not at all.

`Lawful` is a schedule of calls that keeps to this. Along every such schedule no call traps,
and the rows of Z that come out are those of `Y + X * W` for the beats that went in.
-/

namespace SystolicGemm

namespace TileStore

/-! ## Calls -/

/-- A call to a store. A beat comes with the slot that is for it. -/
inductive Call where
  | put (o : Operand) (raw : Bytes)
  | padW
  | takeZ
  | compute (retireX : Bool)
  deriving DecidableEq, Repr

/-- A slot that was handed out, and what it held when the call was over. -/
abbrev Handed := Slot × Bytes

/-- The next slot of an operand, and the store past it. -/
def take (s : TileStore) : Operand → Checked (Slot × TileStore)
  | .x => s.takeX
  | .w => s.takeW
  | .y => s.takeY
  | .z => s.takeZ

/-- Makes a call. -/
def Call.run : Call → TileStore → Checked (Option Handed × TileStore)
  | put o raw, s => do
    let (slot, s) ← s.take o
    let s := s.fill slot raw
    return (some (slot, s.read slot), s)
  | padW, s => return (none, ← s.skipW)
  | takeZ, s => do
    let (slot, s) ← s.take .z
    return (some (slot, s.read slot), s)
  | compute retireX, s => return (none, ← s.computeZ retireX)

/-- Makes calls one after the other. -/
def runCalls : List Call → TileStore → Checked (List Handed × TileStore)
  | [], s => return ([], s)
  | c :: rest, s => do
    let (handed, s) ← c.run s
    let (more, s) ← runCalls rest s
    return (handed.toList ++ more, s)

/-- The beat that a call puts in for an operand. -/
def Call.beat? (o : Operand) : Call → Option Bytes
  | put q raw => if q = o then some raw else none
  | padW | takeZ | compute _ => none

/-- The beats that calls put in for an operand. -/
def beatsIn (calls : List Call) (o : Operand) : List Bytes := calls.filterMap (Call.beat? o)

/-- The rows of Z among slots that were handed out. -/
def rowsOut (handed : List Handed) : List Bytes :=
  handed.filterMap fun x => if x.1.operand = .z then some x.2 else none

/-! ## Schedules -/

/-- The tally after a call. -/
def Call.after (t : Tally) : Call → Tally
  | put o _ => t.take o
  | padW => t.take .w
  | takeZ => t.take .z
  | compute retireX => tallyComputed t retireX

/-- Whether the next tile may be computed, where rows of tiles have `cols` each: X holds its
row of tiles and no more than two chunks beyond it, W its rows and nothing beyond them, Y its
rows and no more than those of another tile, and all rows of Z have been taken. X is retired
with the last tile of a row. -/
@[mk_iff ripe_iff]
structure Ripe (g : Geometry) (n chunks cols : Nat) (t : Tally) (retireX : Bool) : Prop where
  x : (t.computed / cols + 1) * (chunks * g.width) ≤ t.x
  xAhead : t.x ≤ (t.computed / cols + 1) * (chunks * g.width) + 2 * g.width
  w : t.computed * (chunks * g.width) + n ≤ t.w
  wAhead : t.w ≤ (t.computed + 1) * (chunks * g.width)
  y : (t.computed + 1) * g.width ≤ t.y
  yAhead : t.y ≤ (t.computed + 1) * g.width + g.width
  z : t.z = t.computed * g.width
  retire : retireX = decide (cols ∣ t.computed + 1)

/-- Whether a call may be made. Beats fill their slots, each tile of W is `n` rows and then
its padding, and only rows of Z that have been computed are taken. -/
def Call.Allowed (g : Geometry) (n chunks cols : Nat) (t : Tally) : Call → Prop
  | put o raw => o ≠ .z ∧ raw.length = g.beatBytes ∧ (o = .w → t.w % (chunks * g.width) < n)
  | padW => n ≤ t.w % (chunks * g.width)
  | takeZ => t.z < t.computed * g.width
  | compute retireX => Ripe g n chunks cols t retireX

/-- Calls of which each is allowed after those before it. -/
def Lawful (g : Geometry) (n chunks cols : Nat) : Tally → List Call → Prop
  | _, [] => True
  | t, c :: rest => c.Allowed g n chunks cols t ∧ Lawful g n chunks cols (c.after t) rest

instance (g : Geometry) (n chunks cols : Nat) (t : Tally) (retireX : Bool) :
    Decidable (Ripe g n chunks cols t retireX) :=
  decidable_of_iff (_ ∧ _ ∧ _ ∧ _ ∧ _ ∧ _ ∧ _ ∧ _) (ripe_iff g n chunks cols t retireX).symm

instance (g : Geometry) (n chunks cols : Nat) (t : Tally) :
    (c : Call) → Decidable (c.Allowed g n chunks cols t)
  | .put o raw => inferInstanceAs (Decidable (o ≠ .z ∧ raw.length = g.beatBytes ∧
      (o = .w → t.w % (chunks * g.width) < n)))
  | .padW => inferInstanceAs (Decidable (n ≤ t.w % (chunks * g.width)))
  | .takeZ => inferInstanceAs (Decidable (t.z < t.computed * g.width))
  | .compute retireX => inferInstanceAs (Decidable (Ripe g n chunks cols t retireX))

instance (g : Geometry) (n chunks cols : Nat) :
    (t : Tally) → (calls : List Call) → Decidable (Lawful g n chunks cols t calls)
  | _, [] => inferInstanceAs (Decidable True)
  | t, c :: rest =>
    have := instDecidableLawful g n chunks cols (c.after t) rest
    inferInstanceAs (Decidable (c.Allowed g n chunks cols t ∧
      Lawful g n chunks cols (c.after t) rest))

/-! ## What is to come out -/

section

variable (g : Geometry) (n chunks cols : Nat) (beats : Operand → List Bytes)

/-- Element `j` of beat `b` of an operand. -/
def elementIn (o : Operand) (b j : Nat) : Single := g.elementOf ((beats o)[b]?.getD []) j

/-- Row `i` and column `j` of `Y + X * W` for tile `q`, of which the row of tiles is
`q / cols`. -/
def tileCell (q i j : Nat) : Single :=
  (List.range n).foldl
    (fun acc k => g.format.fma acc
      (elementIn g beats .x ((q / cols * chunks + k / g.width) * g.width + i) (k % g.width))
      (elementIn g beats .w (q * n + k) j))
    (elementIn g beats .y (q * g.width + i) j)

/-- Row `b` of Z. -/
def rowOut (b : Nat) : Bytes :=
  (List.range g.width).flatMap fun j =>
    g.format.encode (tileCell g n chunks cols beats (b / g.width) (b % g.width) j)

end

/-- Whether a slot lies in one row of an X buffer that has so many columns. -/
def InOneRow (g : Geometry) (columns : Nat) (slot : Slot) : Prop :=
  ∃ i < g.width, i * (columns * g.elementBytes) ≤ slot.start ∧
    slot.start + slot.size ≤ (i + 1) * (columns * g.elementBytes)

variable {s : TileStore} {g : Geometry} {n chunks cols : Nat} {t : Tally}
  {beats : Operand → List Bytes}

/-! ## Slots -/

theorem At.take (h : s.At g n chunks t) (hr : Roomy g chunks) (o : Operand) :
    s.take o = .ok (slotOf g chunks t o, s.passed g chunks t o) := by
  cases o
  case x => exact h.takeX hr
  case w => exact h.takeW hr
  case y => exact h.takeY hr
  case z => exact h.takeZ hr

/-- **A beat of X does not straddle two rows of its buffer.** -/
theorem inOneRow_slotOf (hl : 0 < g.width) : InOneRow g ((chunks + 2) * g.width)
    (slotOf g chunks t .x) := by
  have hcolumn : t.x / g.width % (chunks + 2) * g.width + g.width ≤ (chunks + 2) * g.width := by
    rw [← Nat.succ_mul]
    exact Nat.mul_le_mul_right _ (Nat.mod_lt _ (Nat.succ_pos _))
  refine ⟨t.x % g.width, Nat.mod_lt _ hl, ?_, ?_⟩
  · show _ ≤ xStart g chunks t.x
    rw [xStart, ← Nat.mul_assoc]
    exact Nat.mul_le_mul_right _ (Nat.le_add_right _ _)
  · show xStart g chunks t.x + g.width * g.elementBytes ≤ _
    rw [xStart, ← Nat.add_mul, ← Nat.mul_assoc (t.x % g.width + 1), Nat.succ_mul (t.x % g.width),
      Nat.add_assoc]
    exact Nat.mul_le_mul_right _ (Nat.add_le_add_left hcolumn _)

/-! ## The invariant -/

/-- What a schedule has made of a store, with these calls to come: the buffers hold the beats
that came in, and they and the coming ones are all. -/
structure Going (g : Geometry) (n chunks cols : Nat) (beats : Operand → List Bytes)
    (s : TileStore) (t : Tally) (rest : List Call) : Prop where
  shape : s.At g n chunks t
  resident : s.Resident g chunks t
    (heldOf g n chunks beats fun b => some (rowOut g n chunks cols beats b))
  retired : t.retired = t.computed / cols
  zTaken : t.z ≤ t.computed * g.width
  zLeft : t.computed * g.width ≤ t.z + g.width
  came : ∀ o, o ≠ .z → ∃ before, before.length = t.beats g n chunks o ∧
    beats o = before ++ beatsIn rest o

/-- The sizes of a contraction that its chunks cover. -/
structure Covers (g : Geometry) (n chunks : Nat) : Prop where
  roomy : Roomy g chunks
  le : n ≤ chunks * g.width

theorem Covers.pos (h : Covers g n chunks) : 0 < chunks * g.width :=
  Nat.mul_pos h.roomy.chunks_pos h.roomy.width_pos

section

variable {rest : List Call} (h : Going g n chunks cols beats s t rest)
  (hc : Covers g n chunks)

include h

/-- A beat that went in is one of the beats. -/
theorem Going.exists_beat {o : Operand} (ho : o ≠ .z) {b : Nat} (hb : b < t.beats g n chunks o) :
    ∃ raw, (beats o)[b]? = some raw ∧ ∀ j, elementIn g beats o b j = g.elementOf raw j := by
  obtain ⟨before, hlength, hbeats⟩ := h.came o ho
  have hlt : b < before.length := by omega
  have hraw : (beats o)[b]? = some before[b] := by
    rw [hbeats, List.getElem?_append_left hlt, List.getElem?_eq_getElem hlt]
  refine ⟨_, hraw, fun j => ?_⟩
  rw [elementIn, hraw, Option.getD_some]

/-- Row `i` of Y, where the next tile may be computed. -/
theorem Going.elementAt_y {retireX : Bool} (hripe : Ripe g n chunks cols t retireX) {i j : Nat}
    (hi : i < g.width) (hj : j < g.width) :
    s.elementAt .y ((i + s.yOffset) * g.width + j) =
      elementIn g beats .y (t.computed * g.width + i) j := by
  have hy := hripe.y
  have hyAhead := hripe.yAhead
  rw [Nat.succ_mul] at hy hyAhead
  obtain ⟨raw, hraw, helement⟩ := h.exists_beat (o := .y) (by decide)
    (show t.computed * g.width + i < t.y by omega)
  rw [h.resident.elementAt_y h.shape hj hi (by omega) (by omega) hraw, helement]

include hc

/-- Element `k` of row `i` of X, which lies in chunk `k / g.width` of the row of tiles. -/
theorem Going.elementAt_x {retireX : Bool} (hripe : Ripe g n chunks cols t retireX) {i k : Nat}
    (hi : i < g.width) (hk : k < n) :
    s.elementAt .x (i * s.xCols + (s.xOffset + k) % s.xCols) =
      elementIn g beats .x ((t.computed / cols * chunks + k / g.width) * g.width + i)
        (k % g.width) := by
  have hl := hc.roomy.width_pos
  have hx := hripe.x
  have hxAhead := hripe.xAhead
  rw [Nat.succ_mul, ← Nat.mul_assoc] at hx hxAhead
  have hchunk : k / g.width < chunks :=
    Nat.div_lt_of_lt_mul (Nat.mul_comm g.width _ ▸ Nat.lt_of_lt_of_le hk hc.le)
  have hle := Nat.mul_le_mul_right g.width (Nat.succ_le_of_lt hchunk)
  rw [Nat.succ_mul] at hle
  have hb : (t.computed / cols * chunks + k / g.width) * g.width + i < t.x := by
    rw [Nat.add_mul]
    omega
  have hwin : t.x ≤ (t.computed / cols * chunks + k / g.width) * g.width + i +
      (chunks + 2) * g.width := by
    rw [Nat.add_mul, Nat.add_mul chunks]
    omega
  obtain ⟨raw, hraw, helement⟩ := h.exists_beat (o := .x) (by decide) hb
  rw [← h.retired] at hb hwin hraw
  have hread := h.resident.elementAt_x h.shape (Nat.mod_lt k hl) hi hb hwin hraw
  rw [Nat.div_add_mod'] at hread
  rw [hread, helement]

/-- Row `k` of W. -/
theorem Going.elementAt_w {retireX : Bool} (hripe : Ripe g n chunks cols t retireX) {k j : Nat}
    (hk : k < n) (hj : j < g.width) :
    s.elementAt .w (k * g.width + j) = elementIn g beats .w (t.computed * n + k) j := by
  have hw := hripe.w
  have hwAhead := hripe.wAhead
  rw [Nat.succ_mul] at hwAhead
  have hrow : k < chunks * g.width := Nat.lt_of_lt_of_le hk hc.le
  -- all rows of the tile are in place
  obtain ⟨skip, hskip⟩ := Nat.exists_eq_add_of_le (Nat.le_trans (Nat.le_add_right _ n) hw)
  have hcount : t.beats g n chunks .w = t.computed * n + n := by
    rw [Tally.beats, hskip, wBeats_add hc.le (by omega), Nat.min_eq_left (by omega)]
  obtain ⟨raw, hraw, helement⟩ := h.exists_beat (o := .w) (by decide)
    (show t.computed * n + k < t.beats g n chunks .w by omega)
  obtain ⟨hdiv, hmod⟩ := div_mod_of_lt (q := t.computed) hrow
  have hheld : heldOf g n chunks beats (fun b => some (rowOut g n chunks cols beats b)) .w
      (t.computed * (chunks * g.width) + k) = some raw := by
    rw [heldOf, hmod, hdiv, if_pos hk, hraw]
  rw [h.resident.elementAt_w h.shape hj hrow (by omega) (by omega) hheld, helement]

/-- **A ripe tile is computed from its own beats.** -/
theorem Going.rowBytes_eq {retireX : Bool} (hripe : Ripe g n chunks cols t retireX) {i : Nat}
    (hi : i < g.width) :
    s.rowBytes i = rowOut g n chunks cols beats (t.computed * g.width + i) := by
  have hwidth := h.shape.geometry
  obtain ⟨hdiv, hmod⟩ := div_mod_of_lt (q := t.computed) hi
  rw [rowBytes, rowOut, hdiv, hmod, hwidth, List.flatMap_def, List.flatMap_def]
  refine congrArg _ (List.map_congr_left fun j hj => ?_)
  have hj := List.mem_range.mp hj
  rw [cellValue, xRowAt, wColAt, hwidth, h.shape.length, accumulate_map, tileCell,
    h.elementAt_y hripe hi hj]
  refine congrArg _ (List.foldl_ext _ _ _ fun acc k hk => ?_)
  have hk := List.mem_range.mp hk
  rw [h.elementAt_x hc hripe hi hk, h.elementAt_w hc hripe hk hj]

end

/-! ## One call -/

/-- The beats of a call that puts one in come before those of the calls after it. -/
theorem beatsIn_put (o q : Operand) (raw : Bytes) (rest : List Call) :
    beatsIn (.put o raw :: rest) q = (if o = q then [raw] else []) ++ beatsIn rest q := by
  rw [beatsIn, List.filterMap_cons, Call.beat?]
  by_cases hoq : o = q
  · rw [if_pos hoq, if_pos hoq]
    rfl
  · rw [if_neg hoq, if_neg hoq]
    rfl

/-- The row of Z that a call takes. -/
def Call.rows (t : Tally) (row : Nat → Bytes) : Call → List Bytes
  | takeZ => [row t.z]
  | put _ _ | padW | compute _ => []

/-- The rows of Z of a call come before those of the calls after it. -/
theorem Call.rows_append {c : Call} (hallowed : c.Allowed g n chunks cols t) (rest : List Call)
    (row : Nat → Bytes) :
    c.rows t row ++ (List.range' (c.after t).z (rest.count .takeZ)).map row =
      (List.range' t.z ((c :: rest).count .takeZ)).map row := by
  cases c with
  | takeZ =>
    rw [List.count_cons_self, List.range'_succ]
    rfl
  | put o raw =>
    -- only rows of Z are counted, and a beat of Z is not put in
    have hz : (t.take o).z = t.z := by
      cases o <;> first | rfl | exact absurd rfl hallowed.1
    rw [List.count_cons_of_ne (show Call.put o raw ≠ .takeZ from nofun)]
    show [] ++ List.map _ (List.range' (t.take o).z _) = _
    rw [hz]
    rfl
  | padW =>
    rw [List.count_cons_of_ne (show Call.padW ≠ .takeZ from nofun)]
    rfl
  | compute retireX =>
    rw [List.count_cons_of_ne (show Call.compute retireX ≠ .takeZ from nofun)]
    rfl

/-- What an allowed call does to a store. -/
structure Made (g : Geometry) (n chunks cols : Nat) (beats : Operand → List Bytes) (t : Tally)
    (c : Call) (rest : List Call) (handed : Option Handed) (s' : TileStore) : Prop where
  going : Going g n chunks cols beats s' (c.after t) rest
  rows : rowsOut handed.toList = c.rows t (rowOut g n chunks cols beats)
  inRow : ∀ x ∈ handed, x.1.operand = .x → InOneRow g ((chunks + 2) * g.width) x.1

section

variable {rest : List Call} (hc : Covers g n chunks)

include hc

/-- A beat goes in behind those that came before it. -/
theorem Going.came_put {o : Operand} {raw : Bytes}
    (h : Going g n chunks cols beats s t (.put o raw :: rest))
    (hw : o = .w → t.w % (chunks * g.width) < n) {q : Operand} (hq : q ≠ .z) :
    ∃ before, before.length = (t.take o).beats g n chunks q ∧
      beats q = before ++ beatsIn rest q := by
  obtain ⟨before, hcount, hbeats⟩ := h.came q hq
  refine ⟨before ++ if o = q then [raw] else [], ?_, ?_⟩
  · rw [beats_take hc.le hc.pos hw, List.length_append, hcount]
    split <;> rfl
  · rw [hbeats, beatsIn_put, List.append_assoc]

/-- **A beat goes in.** -/
theorem Going.put {o : Operand} {raw : Bytes}
    (h : Going g n chunks cols beats s t (.put o raw :: rest))
    (hallowed : (Call.put o raw).Allowed g n chunks cols t) : ∃ handed s',
      (Call.put o raw).run s = .ok (handed, s') ∧
      Made g n chunks cols beats t (.put o raw) rest handed s' := by
  obtain ⟨ho, hlength, hw⟩ := hallowed
  let slot := slotOf g chunks t o
  let s' := (s.passed g chunks t o).fill slot raw
  have hrun : (Call.put o raw).run s = .ok (some (slot, s'.read slot), s') := by
    rw [Call.run, h.shape.take hc.roomy, ok_bind]
    rfl
  -- the beat is the next one of its operand
  have hheld : heldOf g n chunks beats (fun b => some (rowOut g n chunks cols beats b)) o
      (t.count o) = some raw := by
    obtain ⟨before, hcount, hbeats⟩ := h.came o ho
    rw [heldOf_count ho hw, hbeats, beatsIn_put, if_pos rfl, ← hcount,
      List.getElem?_append_right (Nat.le_refl _), Nat.sub_self]
    rfl
  refine ⟨_, _, hrun, ⟨(h.shape.passed o).fill _ _, ?_, ?_, ?_, ?_, ?_⟩, ?_, ?_⟩
  · refine h.resident.fill h.shape hc.roomy hlength (fun raw' hraw' => ?_) fun hz => absurd hz ho
    rw [hheld] at hraw'
    exact (Option.some.inj hraw').symm
  · cases o <;> exact h.retired
  · cases o <;> first | exact h.zTaken | exact absurd rfl ho
  · cases o <;> first | exact h.zLeft | exact absurd rfl ho
  · exact fun q hq => h.came_put hc hw hq
  · have hne : slot.operand ≠ .z := by rwa [operand_slotOf]
    rw [rowsOut, Option.toList_some, List.filterMap_cons, if_neg hne]
    rfl
  · rintro x hx hoperand
    cases hx
    obtain rfl : o = .x := by rwa [operand_slotOf] at hoperand
    exact inOneRow_slotOf hc.roomy.width_pos

/-- **A row of padding is passed over.** -/
theorem Going.padW (h : Going g n chunks cols beats s t (.padW :: rest))
    (hallowed : Call.padW.Allowed g n chunks cols t) : ∃ handed s',
      Call.padW.run s = .ok (handed, s') ∧
      Made g n chunks cols beats t .padW rest handed s' := by
  have hrun : Call.padW.run s = .ok (none, s.passed g chunks t .w) := by
    rw [Call.run, h.shape.skipW hc.roomy, ok_bind]
    rfl
  have hpad : ¬ t.w % (chunks * g.width) < n := Nat.not_lt.mpr hallowed
  refine ⟨_, _, hrun, ⟨h.shape.passed .w, ?_, h.retired, h.zTaken, h.zLeft, ?_⟩, rfl, ?_⟩
  · exact h.resident.pad (if_neg hpad)
  · intro q hq
    obtain ⟨before, hcount, hbeats⟩ := h.came q hq
    exact ⟨before, hcount.trans (beats_pad hc.le hc.pos hallowed q).symm, hbeats⟩
  · intro x hx
    cases hx

/-- **A row of Z comes out.** -/
theorem Going.takeZ (h : Going g n chunks cols beats s t (.takeZ :: rest))
    (hallowed : Call.takeZ.Allowed g n chunks cols t) : ∃ handed s',
      Call.takeZ.run s = .ok (handed, s') ∧
      Made g n chunks cols beats t .takeZ rest handed s' := by
  let s' := s.passed g chunks t .z
  let slot := slotOf g chunks t .z
  have hrun : Call.takeZ.run s = .ok (some (slot, s'.read slot), s') := by
    rw [Call.run, h.shape.take hc.roomy, ok_bind]
    rfl
  have hread : s'.read slot = rowOut g n chunks cols beats t.z := by
    have hrow := h.resident .z t.z _ hallowed h.zLeft rfl
    rwa [← size_slotOf g chunks t .z] at hrow
  have hlt : t.z < t.computed * g.width := hallowed
  refine ⟨_, _, hrun, ⟨h.shape.passed .z, ?_, h.retired, hlt, ?_, ?_⟩, ?_, ?_⟩
  · -- the window of Z depends on the tiles computed only
    intro o b raw hb hwin hraw
    rw [buffer_passed]
    cases o <;> exact h.resident _ b raw hb hwin hraw
  · have hleft := h.zLeft
    show t.computed * g.width ≤ t.z + 1 + g.width
    omega
  · intro q hq
    obtain ⟨before, hcount, hbeats⟩ := h.came q hq
    refine ⟨before, ?_, hbeats⟩
    cases q <;> first | exact hcount | exact absurd rfl hq
  · rw [rowsOut, Option.toList_some, List.filterMap_cons, if_pos (operand_slotOf ..), hread]
    rfl
  · rintro x hx hoperand
    cases hx
    cases hoperand

/-- **A tile is computed.** -/
theorem Going.compute {retireX : Bool}
    (h : Going g n chunks cols beats s t (.compute retireX :: rest))
    (hallowed : (Call.compute retireX).Allowed g n chunks cols t) : ∃ handed s',
      (Call.compute retireX).run s = .ok (handed, s') ∧
      Made g n chunks cols beats t (.compute retireX) rest handed s' := by
  have hripe : Ripe g n chunks cols t retireX := hallowed
  have hrun : (Call.compute retireX).run s = .ok (none, s.computed retireX) := by
    rw [Call.run, h.shape.computeZ hc.roomy, ok_bind]
    rfl
  have hz := hripe.z
  refine ⟨_, _, hrun, ⟨h.shape.computed retireX, ?_, ?_, ?_, ?_, h.came⟩, rfl, ?_⟩
  · refine h.resident.computed h.shape retireX fun i hi raw hraw => ?_
    rw [h.rowBytes_eq hc hripe hi]
    exact (Option.some.inj hraw).symm
  · show t.retired + (if retireX then 1 else 0) = (t.computed + 1) / cols
    rw [h.retired, Nat.succ_div, hripe.retire]
    by_cases hlast : cols ∣ t.computed + 1 <;> simp [hlast]
  · show t.z ≤ (t.computed + 1) * g.width
    rw [Nat.succ_mul]
    omega
  · show (t.computed + 1) * g.width ≤ t.z + g.width
    rw [Nat.succ_mul]
    omega
  · intro x hx
    cases hx

/-- **An allowed call never traps.** -/
theorem Going.call {c : Call} (h : Going g n chunks cols beats s t (c :: rest))
    (hallowed : c.Allowed g n chunks cols t) : ∃ handed s',
      c.run s = .ok (handed, s') ∧ Made g n chunks cols beats t c rest handed s' := by
  cases c with
  | put o raw => exact h.put hc hallowed
  | padW => exact h.padW hc hallowed
  | takeZ => exact h.takeZ hc hallowed
  | compute retireX => exact h.compute hc hallowed

/-! ## Whole schedules -/

/-- **What allowed calls preserve, a schedule preserves.** -/
theorem Going.calls {calls : List Call} (h : Going g n chunks cols beats s t calls)
    (hcalls : Lawful g n chunks cols t calls) : ∃ handed s',
      runCalls calls s = .ok (handed, s') ∧
      rowsOut handed = (List.range' t.z (calls.count .takeZ)).map (rowOut g n chunks cols beats) ∧
      ∀ x ∈ handed, x.1.operand = .x → InOneRow g ((chunks + 2) * g.width) x.1 := by
  -- induction on the calls to come, for every store that a schedule has made so far
  induction calls generalizing s t with
  | nil => exact ⟨[], s, rfl, rfl, fun x hx => absurd hx List.not_mem_nil⟩
  | cons c rest ih =>
    obtain ⟨hallowed, hrest⟩ := hcalls
    obtain ⟨handed, s₁, hrun, hmade⟩ := h.call hc hallowed
    obtain ⟨more, s₂, hmore, hrows, hinRow⟩ := ih hmade.going hrest
    refine ⟨handed.toList ++ more, s₂, ?_, ?_, ?_⟩
    · rw [runCalls, hrun, ok_bind]
      simp only []
      rw [hmore, ok_bind]
      rfl
    · have hsplit : rowsOut (handed.toList ++ more) = rowsOut handed.toList ++ rowsOut more :=
        List.filterMap_append
      rw [hsplit, hmade.rows, hrows, Call.rows_append hallowed]
    · intro x hx
      rcases List.mem_append.mp hx with hx | hx
      · exact hmade.inRow x (Option.mem_toList.mp hx)
      · exact hinRow x hx

end

/-- Chunks of a contraction of length `n`, of which the last may be filled in part. -/
def chunksOf (g : Geometry) (n : Nat) : Nat := (n + g.width - 1) / g.width

theorem pad_chunksOf (hl : 0 < g.width) (n : Nat) :
    n + (g.width - n % g.width) % g.width = chunksOf g n * g.width := by
  have hlt := Nat.mod_lt n hl
  have hsplit := Nat.div_add_mod' n g.width
  rcases Nat.eq_zero_or_pos (n % g.width) with h0 | hpos
  · have hdiv := (div_mod_of_lt (q := n / g.width) (Nat.sub_lt hl Nat.one_pos)).1
    have hsum : n / g.width * g.width + (g.width - 1) = n + g.width - 1 := by omega
    rw [chunksOf, ← hsum, hdiv, h0, Nat.sub_zero, Nat.mod_self]
    omega
  · have hdiv := (div_mod_of_lt (q := n / g.width + 1)
      (show n % g.width - 1 < g.width by omega)).1
    have hsum : (n / g.width + 1) * g.width + (n % g.width - 1) = n + g.width - 1 := by
      rw [Nat.succ_mul]
      omega
    rw [chunksOf, ← hsum, hdiv, Nat.mod_eq_of_lt (by omega), Nat.succ_mul]
    omega

theorem chunksOf_pos (hl : 0 < g.width) (hn : 0 < n) : 0 < chunksOf g n := by
  rw [chunksOf, Nat.div_pos_iff]
  omega

theorem Going.start (hs : s.At g n chunks .none) (calls : List Call) :
    Going g n chunks cols (beatsIn calls) s .none calls where
  shape := hs
  resident := resident_none _ _ _ _
  retired := (Nat.zero_div cols).symm
  zTaken := Nat.zero_le _
  zLeft := by simp [Tally.none]
  came := by
    intro o ho
    refine ⟨[], ?_, rfl⟩
    cases o with
    | x | y => rfl
    | w => simp [Tally.beats, Tally.none, wBeats]
    | z => exact absurd rfl ho

/-- **The store as a pipeline.** Once its buffers are allocated for a contraction of any
length, a store takes every lawful schedule: no call traps, and the rows of Z taken are, tile
after tile, those of `Y + X * W` for exactly the beats that were put in for the tile, however
many rows of tiles have been used up and however far the beats have run ahead. No slot of X
straddles a row of its buffer. -/
theorem runCalls_computes {g : Geometry} (hg : g.validate = .ok ()) {n : Nat} (hn : 0 < n)
    {leftovers : Leftovers} (hcol : leftovers.xCol = n % g.width)
    (hrow : leftovers.wRow = n % g.width) {s₀ s : TileStore} (hs₀ : s₀.Fits g)
    (hs : s₀.alloc n leftovers = .ok s) (cols : Nat) {calls : List Call}
    (hcalls : Lawful g n (chunksOf g n) cols .none calls) :
    ∃ handed s', runCalls calls s = .ok (handed, s') ∧
      rowsOut handed = (List.range (calls.count .takeZ)).map
        (rowOut g n (chunksOf g n) cols (beatsIn calls)) ∧
      ∀ x ∈ handed, x.1.operand = .x → InOneRow g s.xCols x.1 := by
  have hl := (Geometry.validate_eq_ok_iff.mp hg).width_pos
  have hpad : n + (g.width - leftovers.xCol) % g.width = chunksOf g n * g.width := by
    rw [hcol, pad_chunksOf hl]
  obtain ⟨hat, hcols⟩ := at_of_alloc hs₀ hl (hrow.trans hcol.symm) hpad hs
  have hc : Covers g n (chunksOf g n) := ⟨⟨hl, chunksOf_pos hl hn, hcols⟩, by omega⟩
  obtain ⟨handed, s', hrun, hrows, hinRow⟩ := (Going.start hat calls).calls hc hcalls
  rw [hat.xCols, List.range_eq_range']
  exact ⟨handed, s', hrun, hrows, hinRow⟩

/-- Two tiles of a column of them, on an array of width four. The contraction has three rows
and one chunk, so that the beats of X that run ahead are those of two more tiles. -/
def ahead : List Call :=
  let beats (o : Operand) (n : Nat) : List Call :=
    (List.range n).map fun i => .put o (List.replicate 8 (i + n).toUInt8)
  let tile : List Call := [.compute true] ++ List.replicate 4 .takeZ
  beats .x 12 ++ beats .y 8 ++ beats .w 3 ++ [.padW] ++ tile ++ beats .w 3 ++ [.padW] ++ tile

theorem runCalls_ahead : ∃ s₀ s handed s', create .narrow = .ok s₀ ∧
    s₀.alloc 3 ⟨0, 3, 3, 0⟩ = .ok s ∧ Lawful .narrow 3 1 1 .none ahead ∧
    runCalls ahead s = .ok (handed, s') ∧
    rowsOut handed = (List.range 8).map (rowOut .narrow 3 1 1 (beatsIn ahead)) ∧
    ∀ x ∈ handed, x.1.operand = .x → InOneRow .narrow s.xCols x.1 := by
  have hcalls : Lawful .narrow 3 (chunksOf .narrow 3) 1 .none ahead := by decide
  obtain ⟨s₀, s, hs₀, hfits, hs⟩ : ∃ s₀ s, create .narrow = .ok s₀ ∧ s₀.Fits .narrow ∧
      s₀.alloc 3 ⟨0, 3, 3, 0⟩ = .ok s := ⟨_, _, rfl, ⟨rfl, rfl, rfl, rfl, rfl⟩, rfl⟩
  obtain ⟨handed, s', hrun, hrows, hinRow⟩ :=
    runCalls_computes Geometry.validate_narrow (by decide) rfl rfl hfits hs 1 hcalls
  exact ⟨s₀, s, handed, s', hs₀, hs, hcalls, hrun, hrows, hinRow⟩

end TileStore

end SystolicGemm
