import SystolicGemm.Proofs.Floating.Clock

/-!
# Sums of whole numbers of cycles

Below `2 ^ 53` every natural number has a pattern of its own in double precision,
with its significand shifted to the left until the field is full. The sum of two of
them is the pattern of their sum as long as that stays below `2 ^ 53` too, so a
clock that has counted whole cycles has rounded nothing.
-/

namespace SystolicGemm.Binary

/-- How many places the significand of a number is shifted to the left. Zero is
shifted as far as there are places. -/
def spare (n : Nat) : Nat := if n = 0 then 1074 else 52 - Nat.log2 n

/-- The more a number has, the less there is to spare. -/
theorem spare_add_le (a b : Nat) : spare (a + b) ≤ Max.max (spare a) (spare b) := by
  by_cases ha : a = 0
  · rw [ha, Nat.zero_add]
    exact Nat.le_max_right ..
  · have hne : a + b ≠ 0 := by omega
    have hlog : Nat.log2 a ≤ Nat.log2 (a + b) :=
      (Nat.le_log2 hne).mpr (Nat.le_trans (Nat.log2_self_le ha) (Nat.le_add_right ..))
    have hspare : spare (a + b) ≤ spare a := by
      rw [spare, if_neg hne, spare, if_neg ha]
      omega
    exact Nat.le_trans hspare (Nat.le_max_left ..)

/-- **A whole number of cycles is represented exactly.** -/
theorem datum_ofNat {n : Nat} (hlt : n < 2 ^ 53) :
    (ofNat .double n).datum = .finite false (n <<< spare n) (-(spare n : Int)) := by
  by_cases hne : n = 0
  · subst hne
    have hspare : spare 0 = 1074 := rfl
    rw [hspare, Nat.zero_shiftLeft]
    exact datum_zero
  · have hlog : Nat.log2 n < 53 := (Nat.log2_lt hne).mpr hlt
    have hspare : spare n = 52 - Nat.log2 n := by rw [spare, if_neg hne]
    have hk : Max.max BinaryFormat.double.leastScale
        (0 + (Nat.log2 n : Int) - BinaryFormat.double.fractionBits) = 0 - (spare n : Int) := by
      show Max.max (-1074 : Int) (0 + (Nat.log2 n : Int) - 52) = _
      omega
    have htop : 0 - (spare n : Int) + 2 ≤
        BinaryFormat.double.leastScale + BinaryFormat.double.topExponent := by
      show 0 - (spare n : Int) + 2 ≤ (-1074 : Int) + 2047
      omega
    have h := datum_roundFinite hne hk htop
    rwa [Int.zero_sub] at h

/-- **Whole numbers of cycles add up exactly** below `2 ^ 53`. -/
theorem ofNat_add {a b : Nat} (hlt : a + b < 2 ^ 53) :
    ofNat .double a + ofNat .double b = ofNat .double (a + b) := by
  have ha := datum_ofNat (n := a) (by omega)
  have hb := datum_ofNat (n := b) (by omega)
  have hsum := datum_ofNat hlt
  -- both significands are brought to the smaller scale of the two
  obtain ⟨k, hk⟩ : ∃ k, k = Max.max (spare a) (spare b) := ⟨_, rfl⟩
  have hka : spare a ≤ k := hk ▸ Nat.le_max_left ..
  have hkb : spare b ≤ k := hk ▸ Nat.le_max_right ..
  have hle : spare (a + b) ≤ k := hk ▸ spare_add_le a b
  have hscale : Min.min (-(spare a : Int)) (-(spare b : Int)) = -(k : Int) := by omega
  have hshift : ∀ {n : Nat}, spare n ≤ k →
      (n <<< spare n) <<< (-(spare n : Int) - -(k : Int)).toNat = n <<< k := by
    intro n hn
    rw [← Nat.shiftLeft_add]
    congr 1
    omega
  have htotal : ((a <<< k : Nat) : Int) + (b <<< k : Nat) = ((a + b) <<< k : Nat) := by
    simp only [Nat.shiftLeft_eq, Nat.add_mul]
    exact (Int.natCast_add ..).symm
  have hround := (regular_ofNat (f := .double) (a + b)).roundFinite_shiftLeft
    (k := k - spare (a + b)) hsum
  have hback : -(spare (a + b) : Int) - ((k - spare (a + b) : Nat) : Int) = -(k : Int) := by omega
  rw [← Nat.shiftLeft_add, Nat.add_sub_cancel' hle, hback] at hround
  show round .double ((ofNat .double a).datum.add (ofNat .double b).datum) = _
  rw [ha, hb]
  simp only [Datum.add, Datum.addFinite, Datum.signedInt, Bool.false_eq_true, if_false, hscale,
    hshift hka, hshift hkb, htotal]
  split
  · next hzero =>
    rw [Int.natCast_eq_zero.mp hzero] at hround
    exact hround
  · rw [Int.natAbs_natCast, decide_eq_false (Int.not_lt.mpr (Int.natCast_nonneg _))]
    exact hround

end SystolicGemm.Binary
