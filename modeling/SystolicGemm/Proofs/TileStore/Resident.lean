import SystolicGemm.Proofs.TileStore.Product

/-!
# What the buffers hold

Every buffer is a ring: the slot of beat `b` depends on `b` modulo the slots
that there are, so the beats of one revolution have slots of their own and each
of them is there until a beat one revolution later comes in. `Resident` says so
for all four operands at once. For Z the revolution is the tile that was
computed last, and rows of W that are only padding hold nothing in particular.
-/

namespace SystolicGemm

/-! ## Blocks -/

namespace Block

/-- Bytes next to what a write covers. -/
theorem read_write_of_apart {b : Block} {start at_ len : Nat} {raw : Bytes}
    (h : start + raw.length ≤ at_ ∨ at_ + len ≤ start) :
    (b.write start raw).read at_ len = b.read at_ len := by
  refine List.map_congr_left fun i hi => ?_
  have hi := List.mem_range.mp hi
  rw [byte_write]
  split
  · rw [List.getElem?_eq_none (by omega)]
    rfl
  · rfl

/-- A part of a run of bytes. -/
theorem read_add {b : Block} {start len skip n : Nat} (h : skip + n ≤ len) :
    b.read (start + skip) n = ((b.read start len).drop skip).take n := by
  apply List.ext_getElem
  · simp
    omega
  · intro i _ _
    simp [read, Nat.add_assoc]

/-- A part of a run of bytes that has just been written. -/
theorem read_write_inside {b : Block} {start skip n : Nat} {raw : Bytes}
    (hin : start + raw.length ≤ b.size) (h : skip + n ≤ raw.length) :
    (b.write start raw).read (start + skip) n = (raw.drop skip).take n := by
  rw [read_add h, read_write hin]

end Block

theorem length_flatMap_range {α : Type} (f : Nat → List α) {l : Nat}
    (hlen : ∀ j, (f j).length = l) (k : Nat) : ((List.range k).flatMap f).length = k * l := by
  simp [List.length_flatMap, hlen, List.map_const']

/-- One of several runs of the same length. -/
theorem take_drop_flatMap_range {α : Type} (f : Nat → List α) {k l i : Nat}
    (hlen : ∀ j, (f j).length = l) (hi : i < k) :
    (((List.range k).flatMap f).drop (i * l)).take l = f i := by
  have hfront := length_flatMap_range f hlen i
  obtain ⟨d, rfl⟩ := Nat.exists_eq_add_of_lt hi
  rw [Nat.add_assoc, List.range_add, List.flatMap_append, List.drop_append_of_le_length
    (Nat.le_of_eq hfront.symm), ← hfront, List.drop_length, List.nil_append,
    List.range_succ_eq_map, List.map_cons, List.flatMap_cons, Nat.add_zero,
    List.take_append_of_le_length (Nat.le_of_eq (hlen i).symm),
    List.take_of_length_le (Nat.le_of_eq (hlen i))]

/-- An element of one of several runs of the same length. -/
theorem getElem?_flatMap_range {α : Type} (f : Nat → List α) {k l c i : Nat}
    (hlen : ∀ j, (f j).length = l) (hc : c < k) (hi : i < l) :
    ((List.range k).flatMap f)[c * l + i]? = (f c)[i]? := by
  rw [← take_drop_flatMap_range f hlen hc, List.getElem?_take_of_lt hi, List.getElem?_drop]

/-- Two numbers less than a revolution apart. -/
theorem mod_ne_of_lt {a b k : Nat} (hab : a < b) (hbk : b < a + k) : a % k ≠ b % k := by
  intro h
  have hdvd : (b - a) % k = 0 := Nat.sub_mod_eq_zero_of_mod_eq h.symm
  rw [Nat.mod_eq_of_lt (by omega)] at hdvd
  omega

namespace Tally

/-- Slots of an operand that have been handed out. -/
def count (t : Tally) : Operand → Nat
  | .x => t.x
  | .w => t.w
  | .y => t.y
  | .z => t.z

/-- Where the window of an operand's resident beats ends. -/
def top (t : Tally) (l : Nat) : Operand → Nat
  | .x => t.x
  | .w => t.w
  | .y => t.y
  | .z => t.computed * l

end Tally

namespace TileStore

/-- The slots of an operand. -/
def span (g : Geometry) (chunks : Nat) : Operand → Nat
  | .x => (chunks + 2) * g.width
  | .w => chunks * g.width
  | .y => 2 * g.width
  | .z => g.width

/-- Where beat `b` of an operand starts in its buffer. -/
def startOf (g : Geometry) (chunks : Nat) : Operand → Nat → Nat
  | .x => xStart g chunks
  | .w => wStart g chunks
  | .y => yStart g
  | .z => zStart g

/-- The buffers hold what they are to hold: slot `b` of an operand the bytes
`held o b`, if that says any. -/
def Resident (s : TileStore) (g : Geometry) (chunks : Nat) (t : Tally)
    (held : Operand → Nat → Option Bytes) : Prop :=
  ∀ o b raw, b < t.top g.width o → t.top g.width o ≤ b + span g chunks o →
    held o b = some raw → (s.buffer o).read (startOf g chunks o b) g.beatBytes = raw

theorem start_slotOf (g : Geometry) (chunks : Nat) (t : Tally) (o : Operand) :
    (slotOf g chunks t o).start = startOf g chunks o (t.count o) := by cases o <;> rfl

/-- Slots one after the other. -/
theorem mul_apart {a b : Nat} (h : a ≠ b) (l : Nat) : a * l + l ≤ b * l ∨ b * l + l ≤ a * l := by
  simp only [← Nat.succ_mul]
  rcases Nat.lt_or_gt_of_ne h with h | h
  · exact .inl (Nat.mul_le_mul_right l h)
  · exact .inr (Nat.mul_le_mul_right l h)

/-- **Beats of one revolution have slots of their own.** -/
theorem startOf_apart {g : Geometry} {chunks : Nat} (o : Operand) {a b : Nat}
    (h : a % span g chunks o ≠ b % span g chunks o) :
    startOf g chunks o a + g.beatBytes ≤ startOf g chunks o b ∨
      startOf g chunks o b + g.beatBytes ≤ startOf g chunks o a := by
  cases o with
  | w | y | z => exact mul_apart h g.beatBytes
  | x =>
    -- another row of the buffer, or another column of tiles in the same row
    have hcols : ∀ c, c / g.width % (chunks + 2) * g.width + g.width ≤ (chunks + 2) * g.width :=
      fun c => by
        rw [← Nat.succ_mul]
        exact Nat.mul_le_mul_right _ (Nat.mod_lt _ (Nat.succ_pos _))
    have ha := hcols a
    have hb := hcols b
    have helem : a % g.width * ((chunks + 2) * g.width) + a / g.width % (chunks + 2) * g.width +
          g.width ≤
        b % g.width * ((chunks + 2) * g.width) + b / g.width % (chunks + 2) * g.width ∨
        b % g.width * ((chunks + 2) * g.width) + b / g.width % (chunks + 2) * g.width + g.width ≤
        a % g.width * ((chunks + 2) * g.width) + a / g.width % (chunks + 2) * g.width := by
      by_cases hrow : a % g.width = b % g.width
      · have hcol : a / g.width % (chunks + 2) ≠ b / g.width % (chunks + 2) := fun hcol => h <| by
          rw [span, Nat.mul_comm, Nat.mod_mul, Nat.mod_mul, hrow, hcol]
        have := mul_apart hcol g.width
        rw [hrow]
        omega
      · have := mul_apart hrow ((chunks + 2) * g.width)
        omega
    simp only [startOf, xStart, Geometry.beatBytes, ← Nat.add_mul]
    rcases helem with h | h
    · exact .inl (Nat.mul_le_mul_right _ h)
    · exact .inr (Nat.mul_le_mul_right _ h)

section

variable {s : TileStore} {g : Geometry} {n chunks : Nat} {t : Tally}
  {held : Operand → Nat → Option Bytes}

theorem buffer_fill_of_ne {slot : Slot} {o : Operand} (h : slot.operand ≠ o) (raw : Bytes) :
    (s.fill slot raw).buffer o = s.buffer o := by
  obtain ⟨q, start, size⟩ := slot
  cases q <;> cases o <;> first | rfl | exact absurd rfl h

theorem buffer_fill_self (slot : Slot) (raw : Bytes) :
    (s.fill slot raw).buffer slot.operand =
      (s.buffer slot.operand).write slot.start (raw.take slot.size) := by
  obtain ⟨q, start, size⟩ := slot
  cases q <;> rfl

theorem top_take_of_ne {o q : Operand} (h : o ≠ q) (l : Nat) : (t.take o).top l q = t.top l q := by
  cases o <;> cases q <;> first | rfl | exact absurd rfl h

theorem top_take_self {o : Operand} (h : o ≠ .z) (l : Nat) :
    (t.take o).top l o = t.count o + 1 ∧ t.top l o = t.count o := by
  cases o <;> first | exact ⟨rfl, rfl⟩ | exact absurd rfl h

/-- **A beat comes in.** It is kept, and what it drives out is a revolution old. -/
theorem Resident.fill (h : s.Resident g chunks t held) (hs : s.At g n chunks t)
    (hr : Roomy g chunks) {o : Operand} {data : Bytes} (hlen : data.length = g.beatBytes)
    (hheld : ∀ raw, held o (t.count o) = some raw → raw = data)
    (hz : o = .z → t.z < t.computed * g.width ∧ t.computed * g.width ≤ t.z + g.width) :
    ((s.passed g chunks t o).fill (slotOf g chunks t o) data).Resident g chunks (t.take o)
      held := by
  intro q b raw hb hwin hraw
  by_cases hq : o = q
  · subst hq
    have hbuf := buffer_fill_self (s := s.passed g chunks t o) (slotOf g chunks t o) data
    rw [operand_slotOf, buffer_passed, start_slotOf, size_slotOf,
      List.take_of_length_le (Nat.le_of_eq hlen)] at hbuf
    rw [hbuf]
    by_cases hbc : b = t.count o
    · subst hbc
      have hle := hs.slotOf_le hr o
      rw [start_slotOf, ← hlen] at hle
      rw [← hlen, Block.read_write hle, hheld raw hraw]
    · -- `b` was resident before, less than a revolution away from the new beat
      have hwindow : b < t.top g.width o ∧ t.top g.width o ≤ b + span g chunks o ∧
          (b < t.count o ∧ t.count o < b + span g chunks o ∨
            t.count o < b ∧ b < t.count o + span g chunks o) := by
        -- the window of Z ends at the tiles computed, not at the beats taken
        by_cases ho : o = .z
        · obtain ⟨hz1, hz2⟩ := hz ho
          subst ho
          simp only [Tally.take, Tally.top, Tally.count, span] at *
          omega
        · obtain ⟨h1, h2⟩ := top_take_self (t := t) ho g.width
          rw [h1] at hb hwin
          omega
      obtain ⟨h1, h2, hside⟩ := hwindow
      have hne : t.count o % span g chunks o ≠ b % span g chunks o := by
        rcases hside with ⟨hlt, hlt'⟩ | ⟨hlt, hlt'⟩
        · exact (mod_ne_of_lt hlt hlt').symm
        · exact mod_ne_of_lt hlt hlt'
      rw [Block.read_write_of_apart (by rw [hlen]; exact startOf_apart o hne)]
      exact h o b raw h1 h2 hraw
  · rw [buffer_fill_of_ne (by rw [operand_slotOf]; exact hq), buffer_passed]
    rw [top_take_of_ne hq] at hb hwin
    exact h q b raw hb hwin hraw

/-- Padding of W drives out a row that is a revolution old. -/
theorem Resident.pad (h : s.Resident g chunks t held) (hheld : held .w t.w = none) :
    (s.passed g chunks t .w).Resident g chunks (t.take .w) held := by
  intro q b raw hb hwin hraw
  rw [buffer_passed]
  by_cases hq : q = .w
  · subst hq
    -- the slot passed over is to hold nothing
    have hbw : b ≠ t.w := fun hbw => by
      rw [hbw, hheld] at hraw
      cases hraw
    simp only [Tally.take, Tally.top] at hb hwin
    exact h .w b raw (show b < t.w by omega) (show t.w ≤ _ by omega) hraw
  · rw [top_take_of_ne (Ne.symm hq)] at hb hwin
    exact h q b raw hb hwin hraw

/-- **A tile is computed.** Its rows are what the Z buffer holds from then on. -/
theorem Resident.computed (h : s.Resident g chunks t held) (hs : s.At g n chunks t)
    (retireX : Bool) (hheld : ∀ i < g.width, ∀ raw,
      held .z (t.computed * g.width + i) = some raw → raw = s.rowBytes i) :
    (s.computed retireX).Resident g chunks (tallyComputed t retireX) held := by
  have hrow : ∀ i, (s.rowBytes i).length = g.beatBytes := fun i => by
    rw [rowBytes, hs.geometry]
    exact length_flatMap_range _ (fun j => Element.length_encode ..) _
  intro o b raw hb hwin hraw
  cases o with
  | x => exact h .x b raw hb hwin hraw
  | w => exact h .w b raw hb hwin hraw
  | y => exact h .y b raw hb hwin hraw
  | z =>
    simp only [tallyComputed, Tally.top, span, Nat.succ_mul] at hb hwin
    obtain ⟨i, rfl⟩ := Nat.exists_eq_add_of_le (show t.computed * g.width ≤ b by omega)
    have hi : i < g.width := by omega
    have hstart : startOf g chunks .z (t.computed * g.width + i) = 0 + i * g.beatBytes := by
      rw [startOf, zStart, (div_mod_of_lt hi).2, Nat.zero_add]
    have hsize := length_flatMap_range s.rowBytes hrow g.width
    have hin := Nat.mul_le_mul_right g.beatBytes (Nat.succ_le_of_lt hi)
    rw [Nat.succ_mul] at hin
    have hfits : 0 + ((List.range g.width).flatMap s.rowBytes).length ≤ s.z.size :=
      Nat.le_of_eq (by rw [hsize, hs.zSize, Nat.zero_add])
    show (s.z.write 0 ((List.range s.geometry.width).flatMap s.rowBytes)).read _ _ = raw
    rw [hstart, hs.geometry, Block.read_write_inside hfits (hsize ▸ hin),
      take_drop_flatMap_range _ hrow hi, hheld i hi raw hraw]

theorem resident_none (s : TileStore) (g : Geometry) (chunks : Nat)
    (held : Operand → Nat → Option Bytes) : s.Resident g chunks .none held := by
  intro o b raw hb
  cases o <;> simp [Tally.none, Tally.top] at hb

end

end TileStore

end SystolicGemm
