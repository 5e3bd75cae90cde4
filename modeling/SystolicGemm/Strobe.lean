import SystolicGemm.Element

/-!
# Byte strobes

A strobe says which bytes of a beat take part in a transfer, bit `i` for byte
`i`. Bytes from the 64th on never do.
-/

namespace SystolicGemm

/-- The enabled bytes of a beat. -/
structure Strobe where
  bits : UInt64
  deriving DecidableEq, Repr

namespace Strobe

/-- Every byte enabled. -/
def full : Strobe := ⟨0xFFFFFFFFFFFFFFFF⟩

/-- No byte enabled: the beat takes its time and moves nothing. -/
def empty : Strobe := ⟨0⟩

/-- Whether byte `i` is enabled. -/
def enables (s : Strobe) (i : Nat) : Bool :=
  i < 64 && (s.bits >>> i.toUInt64) &&& 1 == 1

/-- Exactly the first `n` bytes enabled. -/
def firstBytes (n : Nat) : Strobe :=
  if n < 64 then ⟨(1 <<< n.toUInt64) - 1⟩ else full

/-- Exactly the first `n` elements enabled. -/
def firstElements (e : Element) (n : Nat) : Strobe := firstBytes (n * e.bytes)

/-- The strobe of a tile along one axis: the final tile may hold only `leftover`
valid elements, where zero says that it is full. -/
def edge (e : Element) (isFinalTile : Bool) (leftover : Nat) : Strobe :=
  if isFinalTile && leftover != 0 then firstElements e leftover else full

/-- How many of the first `n` bytes are enabled. -/
def count (s : Strobe) (n : Nat) : Nat := (List.range n).countP s.enables

/-- Byte `i` goes with bit `i`. -/
theorem enables_eq_testBit (s : Strobe) (i : Nat) : s.enables i = s.bits.toNat.testBit i := by
  unfold enables
  by_cases h : i < 64
  · have hi : i.toUInt64.toNat = i := by
      rw [Nat.toUInt64_eq, UInt64.toNat_ofNat_of_lt' (by unfold UInt64.size; omega)]
    rw [decide_eq_true h, Bool.true_and, Bool.eq_iff_iff, beq_iff_eq, ← UInt64.toNat_inj,
      UInt64.toNat_and, UInt64.toNat_shiftRight, hi, Nat.mod_eq_of_lt h, Nat.testBit]
    simp [Nat.and_comm 1]
  · have hs : s.bits.toNat < 2 ^ i :=
      Nat.lt_of_lt_of_le s.bits.toNat_lt (Nat.pow_le_pow_right (by omega) (by omega))
    rw [Nat.testBit_lt_two_pow hs, decide_eq_false h, Bool.false_and]

theorem enables_full (i : Nat) : full.enables i = decide (i < 64) := by
  rw [enables_eq_testBit, show full.bits.toNat = 2 ^ 64 - 1 from rfl, Nat.testBit_two_pow_sub_one]

@[simp] theorem enables_empty (i : Nat) : empty.enables i = false := by
  rw [enables_eq_testBit]
  exact Nat.zero_testBit i

theorem enables_firstBytes (n i : Nat) :
    (firstBytes n).enables i = decide (i < min n 64) := by
  unfold firstBytes
  split
  · next h =>
    have hn : n.toUInt64.toNat = n := by
      rw [Nat.toUInt64_eq, UInt64.toNat_ofNat_of_lt' (by unfold UInt64.size; omega)]
    have hp : 2 ^ n < 2 ^ 64 := Nat.pow_lt_pow_right (by omega) h
    have hs : (1 <<< n.toUInt64 : UInt64).toNat = 2 ^ n := by
      rw [UInt64.toNat_shiftLeft, hn, Nat.mod_eq_of_lt h, UInt64.toNat_one, Nat.one_shiftLeft,
        Nat.mod_eq_of_lt hp]
    have hle : (1 : UInt64) ≤ 1 <<< n.toUInt64 := by
      rw [UInt64.le_iff_toNat_le, hs]
      exact Nat.one_le_two_pow
    rw [enables_eq_testBit, UInt64.toNat_sub_of_le _ _ hle, hs, UInt64.toNat_one,
      Nat.testBit_two_pow_sub_one, Nat.min_eq_left (Nat.le_of_lt h)]
  · next h => rw [enables_full, Nat.min_eq_right (Nat.le_of_not_lt h)]

end Strobe

end SystolicGemm
