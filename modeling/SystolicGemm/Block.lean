import SystolicGemm.Element

/-!
# Blocks of bytes

A block is a run of bytes, all zero to begin with, of which only the written
ones are kept: a binary trie over the index holds them, one level per index bit
and the highest bit first. A block of any size therefore costs nothing until it
is written.

Laws are stated through `Block.byte`, the view as a function from index to
byte.
-/

namespace SystolicGemm

/-- A trie of bytes. What it lacks is zero. -/
inductive ByteTrie where
  | zero
  | leaf (b : UInt8)
  | node (low high : ByteTrie)
  deriving Repr

namespace ByteTrie

/-- The byte at an index of `depth` bits. -/
def get : (depth : Nat) → ByteTrie → Nat → UInt8
  | 0, leaf b, _ => b
  | d + 1, node low high, i => if i.testBit d then high.get d i else low.get d i
  | _, _, _ => 0

/-- The two halves of a trie. -/
def halves : ByteTrie → ByteTrie × ByteTrie
  | node low high => (low, high)
  | _ => (zero, zero)

/-- The trie with another byte at an index of `depth` bits. -/
def set : (depth : Nat) → ByteTrie → Nat → UInt8 → ByteTrie
  | 0, _, _, b => leaf b
  | d + 1, t, i, b =>
    let (low, high) := t.halves
    if i.testBit d then node low (high.set d i b) else node (low.set d i b) high

theorem get_zero (d i : Nat) : get d zero i = 0 := by
  cases d <;> rfl

/-- A trie is read like the node over its halves. -/
theorem get_succ (d : Nat) (t : ByteTrie) (i : Nat) :
    t.get (d + 1) i = if i.testBit d then t.halves.2.get d i else t.halves.1.get d i := by
  cases t with
  | node low high => rfl
  | _ =>
    show (0 : UInt8) = if i.testBit d then get d zero i else get d zero i
    rw [get_zero, ite_self]

theorem get_set_self (d : Nat) (t : ByteTrie) (i : Nat) (b : UInt8) :
    (t.set d i b).get d i = b := by
  induction d generalizing t with
  | zero => rfl
  | succ d ih => by_cases h : i.testBit d <;> simp [set, get, h, ih]

/-- Indices count as different if one of their lowest `d` bits does. -/
theorem get_set_of_ne {d i j : Nat} (t : ByteTrie) (b : UInt8)
    (h : ∃ k < d, i.testBit k ≠ j.testBit k) : (t.set d i b).get d j = t.get d j := by
  induction d generalizing t with
  | zero =>
    obtain ⟨k, hk, _⟩ := h
    exact absurd hk (Nat.not_lt_zero k)
  | succ d ih =>
    rw [get_succ, get_succ]
    by_cases hij : i.testBit d = j.testBit d
    · have hd : ∃ k < d, i.testBit k ≠ j.testBit k := by
        obtain ⟨k, hk, hne⟩ := h
        rcases Nat.lt_succ_iff_lt_or_eq.mp hk with hlt | rfl
        · exact ⟨k, hlt, hne⟩
        · exact absurd hij hne
      cases hj : j.testBit d <;> simp [set, halves, hij, hj, ih _ hd]
    · cases hi : i.testBit d <;> cases hj : j.testBit d <;> simp_all [set, halves]

end ByteTrie

/-- A run of `size` bytes. -/
structure Block where
  size : Nat
  cells : ByteTrie
  deriving Repr

instance : Inhabited Block := ⟨0, .zero⟩

namespace Block

/-- A block of zero bytes. -/
def zeros (size : Nat) : Block := ⟨size, .zero⟩

/-- Index bits of the block. -/
def depth (b : Block) : Nat := Nat.log2 b.size + 1

/-- The byte at an index, zero outside the block. -/
def byte (b : Block) (i : Nat) : UInt8 := if i < b.size then b.cells.get b.depth i else 0

/-- The block with another byte at an index of its own. -/
def set (b : Block) (i : Nat) (v : UInt8) : Block :=
  if i < b.size then { b with cells := b.cells.set b.depth i v } else b

/-- `len` bytes from `start` on. -/
def read (b : Block) (start len : Nat) : Bytes :=
  (List.range len).map fun i => b.byte (start + i)

/-- The block with the bytes written from `start` on. -/
def write (b : Block) (start : Nat) : Bytes → Block
  | [] => b
  | v :: vs => (b.set start v).write (start + 1) vs

/-- The block with all bytes zero again. -/
def clear (b : Block) : Block := zeros b.size

/-! ## The view -/

@[simp] theorem byte_zeros (size i : Nat) : (zeros size).byte i = 0 := by
  unfold byte zeros
  rw [ByteTrie.get_zero, ite_self]

@[simp] theorem size_set (b : Block) (i : Nat) (v : UInt8) : (b.set i v).size = b.size := by
  unfold set
  split <;> rfl

/-- The index bits tell the bytes of a block apart. -/
theorem testBit_ne_of_ne {b : Block} {i j : Nat} (hi : i < b.size) (hj : j < b.size)
    (hij : i ≠ j) : ∃ k < b.depth, i.testBit k ≠ j.testBit k := by
  have hs : b.size < 2 ^ b.depth := Nat.lt_log2_self
  obtain ⟨k, hk⟩ := Nat.exists_testBit_ne_of_ne hij
  refine ⟨k, Nat.lt_of_not_le fun hle => hk ?_, hk⟩
  have hp : 2 ^ b.depth ≤ 2 ^ k := Nat.pow_le_pow_right Nat.two_pos hle
  rw [Nat.testBit_lt_two_pow (Nat.lt_of_lt_of_le (Nat.lt_trans hi hs) hp),
    Nat.testBit_lt_two_pow (Nat.lt_of_lt_of_le (Nat.lt_trans hj hs) hp)]

theorem byte_set (b : Block) (i j : Nat) (v : UInt8) :
    (b.set i v).byte j = if i = j ∧ i < b.size then v else b.byte j := by
  by_cases hi : i < b.size
  · by_cases hj : j < b.size
    · by_cases hij : i = j
      · subst hij
        simp [set, byte, hi, depth, ByteTrie.get_set_self]
      · have hne := testBit_ne_of_ne hi hj hij
        simpa [set, byte, hi, hj, hij, depth] using ByteTrie.get_set_of_ne b.cells v hne
    · have hij : i ≠ j := by omega
      simp [set, byte, hi, hj, hij]
  · simp [set, hi]

@[simp] theorem size_write (b : Block) (start : Nat) (raw : Bytes) :
    (b.write start raw).size = b.size := by
  induction raw generalizing b start with
  | nil => rfl
  | cons v vs ih => rw [write, ih, size_set]

/-- A write changes the bytes that it covers and no others. -/
theorem byte_write (b : Block) (start : Nat) (raw : Bytes) (j : Nat) :
    (b.write start raw).byte j =
      if start ≤ j ∧ j < b.size then (raw[j - start]?).getD (b.byte j) else b.byte j := by
  induction raw generalizing b start with
  | nil => simp [write]
  | cons v vs ih =>
    rw [write, ih, size_set, byte_set]
    rcases Nat.lt_trichotomy start j with h | h | h
    · have hd : j - start = (j - (start + 1)) + 1 := by omega
      have hne : start ≠ j := by omega
      simp [hd, hne, Nat.le_of_lt h, Nat.succ_le_of_lt h]
    · subst h
      have hlt : ¬ start + 1 ≤ start := by omega
      simp [hlt]
    · have hle : ¬ start ≤ j := by omega
      have hlt : ¬ start + 1 ≤ j := by omega
      have hne : start ≠ j := by omega
      simp [hle, hlt, hne]

@[simp] theorem length_read (b : Block) (start len : Nat) : (b.read start len).length = len := by
  rw [read, List.length_map, List.length_range]

/-- What lies inside is read back as it was written. -/
theorem read_write {b : Block} {start : Nat} {raw : Bytes} (h : start + raw.length ≤ b.size) :
    (b.write start raw).read start raw.length = raw := by
  apply List.ext_getElem (length_read ..)
  intro i _ hi
  have hlt : start + i < b.size := by omega
  simp [read, byte_write, hlt, hi]

end Block

end SystolicGemm
