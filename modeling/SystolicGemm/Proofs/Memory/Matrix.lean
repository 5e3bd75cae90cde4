import SystolicGemm.Memory.Matrix
import SystolicGemm.Proofs.Memory.Beat

/-!
# Places of matrices

Every cell of a matrix that lies inside a memory has an address, and its bytes lie inside.
What a memory is beside its bytes stays what it was when they are written.
-/

namespace SystolicGemm

/-! ## Places -/

namespace MatrixPlace

/-- Where the cell of an element begins, by its row-major index. -/
def start (p : MatrixPlace) (i : Nat) : Nat :=
  p.addr + (i / p.cols * p.pitch + i % p.cols * p.format.bytes)

/-- Whether a matrix of so many rows lies inside a memory that addresses reach. -/
structure Inside (p : MatrixPlace) (rows : Nat) (m : Memory) : Prop where
  row_le : p.cols * p.format.bytes ≤ p.pitch
  base_le : m.base ≤ p.addr
  end_le : p.addr + p.pitch * rows ≤ m.base + m.size
  end_lt : m.base + m.size < Word.limit

variable {p : MatrixPlace} {rows i : Nat} {m : Memory}

/-- The address of a cell is computed if it fits a word. -/
theorem cell_eq_start (hcols : 0 < p.cols) (h : p.start i < Word.limit) :
    p.cell i = .ok (p.start i) := by
  unfold start at h
  have hdiv : Word.div i p.cols = .ok (i / p.cols) :=
    Word.div_eq_ok_iff.mpr ⟨Nat.ne_of_gt hcols, rfl⟩
  rw [cell, hdiv, ok_bind, Word.rem_of_pos hcols, ok_bind, Word.mul_of_lt (by omega), ok_bind,
    Word.mul_of_lt (by omega), ok_bind, Word.add_of_lt (by omega), ok_bind,
    Word.add_of_lt (by omega), start]

/-- **A cell lies in its row**, which lies between the rows before it and the end of the matrix. -/
theorem start_bounds (hle : p.cols * p.format.bytes ≤ p.pitch) (hi : i < rows * p.cols) :
    p.addr ≤ p.start i ∧ p.start i + p.format.bytes ≤ p.addr + p.pitch * rows := by
  have hcols : 0 < p.cols := Nat.pos_of_ne_zero fun h0 => by
    rw [h0, Nat.mul_zero] at hi
    exact absurd hi (Nat.not_lt_zero i)
  have hrow : i / p.cols < rows := Nat.div_lt_of_lt_mul (Nat.mul_comm rows _ ▸ hi)
  have hcol : i % p.cols < p.cols := Nat.mod_lt _ hcols
  have hleft := Nat.mul_le_mul_right p.format.bytes (Nat.succ_le_of_lt hcol)
  have habove := Nat.mul_le_mul_right p.pitch (Nat.succ_le_of_lt hrow)
  rw [Nat.succ_mul] at hleft habove
  rw [start, Nat.mul_comm p.pitch]
  constructor <;> omega

/-- So the cells of a matrix inside a memory lie inside it. -/
theorem Inside.start_bounds (h : p.Inside rows m) (hi : i < rows * p.cols) :
    m.base ≤ p.start i ∧ p.start i + p.format.bytes ≤ m.base + m.size := by
  obtain ⟨hlo, hhi⟩ := MatrixPlace.start_bounds h.row_le hi
  exact ⟨Nat.le_trans h.base_le hlo, Nat.le_trans hhi h.end_le⟩

theorem Inside.start_lt (h : p.Inside rows m) (hi : i < rows * p.cols) :
    p.start i < Word.limit := by
  obtain ⟨-, hhi⟩ := h.start_bounds hi
  have hend := h.end_lt
  omega

end MatrixPlace

/-! ## Memories -/

namespace Memory

/-- A memory of the same extent that takes the same time, whatever it holds. -/
structure Alike (m₀ m : Memory) : Prop where
  base : m.base = m₀.base
  size : m.size = m₀.size
  latency : m.latency = m₀.latency

variable {m₀ m m' : Memory} {p : MatrixPlace} {rows : Nat}

theorem Alike.refl (m : Memory) : m.Alike m := ⟨rfl, rfl, rfl⟩

theorem Alike.trans (h : m₀.Alike m) (h' : m.Alike m') : m₀.Alike m' :=
  ⟨h'.base.trans h.base, h'.size.trans h.size, h'.latency.trans h.latency⟩

theorem Alike.inside (h : m₀.Alike m) (hin : p.Inside rows m₀) : p.Inside rows m where
  row_le := hin.row_le
  base_le := h.base ▸ hin.base_le
  end_le := by
    rw [h.base, h.size]
    exact hin.end_le
  end_lt := by
    rw [h.base, h.size]
    exact hin.end_lt

/-- Bytes inside are written. -/
theorem writeBytes?_eq {a : Nat} {raw : Bytes} (hbase : m.base ≤ a)
    (hend : a + raw.length ≤ m.base + m.size) :
    m.writeBytes? a raw = some { m with block := m.block.write (a - m.base) raw } := by
  have hoff : m.offset? a raw.length = some (a - m.base) :=
    offset?_eq_some_iff.mpr ⟨⟨hbase, by omega⟩, rfl⟩
  rw [writeBytes?, hoff, Option.map_some]

theorem alike_write (m : Memory) (start : Nat) (raw : Bytes) :
    m.Alike { m with block := m.block.write start raw } := ⟨rfl, Block.size_write .., rfl⟩

end Memory

end SystolicGemm
