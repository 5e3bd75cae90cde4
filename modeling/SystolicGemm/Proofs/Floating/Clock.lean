import Mathlib.Algebra.Group.Nat.Defs
import SystolicGemm.Floating.Arith

/-!
# Clocks in floating point

Simulated time is a floating-point number that only sums of delays are made of. On
such numbers, which are not negative (`Regular`), the arithmetic of a clock is
exact where it has to be: adding or taking away zero changes nothing, and a time
taken away from itself is zero. Sums may round.
-/

namespace SystolicGemm

namespace BinaryFormat

theorem infinityBits_lt (f : BinaryFormat) :
    f.infinityBits < 2 ^ (f.exponentBits + f.fractionBits) := by
  rw [infinityBits, topExponent, Nat.one_shiftLeft, Nat.shiftLeft_eq, Nat.pow_add]
  exact Nat.mul_lt_mul_of_pos_right (Nat.sub_lt (Nat.two_pow_pos _) Nat.one_pos)
    (Nat.two_pow_pos _)

end BinaryFormat

namespace Binary

variable {f : BinaryFormat} {x y : Binary f}

/-- A number that is not negative, or infinity. The patterns of these come first. -/
def Regular (x : Binary f) : Prop := x.toBits ≤ f.infinityBits

instance (x : Binary f) : Decidable x.Regular :=
  inferInstanceAs (Decidable (x.toBits ≤ f.infinityBits))

theorem toBits_signed {m : Nat} (hm : m ≤ f.infinityBits) : (signed f false m).toBits = m := by
  have hwidth : 2 ^ (f.exponentBits + f.fractionBits) ≤ 2 ^ f.width :=
    Nat.pow_le_pow_right (by decide) (by unfold BinaryFormat.width; omega)
  rw [signed, if_neg (by decide), toBits_ofBits, Nat.one_shiftLeft]
  exact Nat.mod_eq_of_lt (Nat.lt_of_le_of_lt hm (Nat.lt_of_lt_of_le f.infinityBits_lt hwidth))

theorem signed_toBits (x : Binary f) : signed f false x.toBits = x := ofBits_toBits x

theorem regular_signed {m : Nat} (hm : m ≤ f.infinityBits) : Regular (signed f false m) :=
  Nat.le_trans (Nat.le_of_eq (toBits_signed hm)) hm

theorem regular_roundFinite (f : BinaryFormat) (m : Nat) (q : Int) :
    Regular (roundFinite f false m q) := by
  unfold roundFinite
  split
  · exact regular_signed (Nat.zero_le _)
  · exact regular_signed (Nat.min_le_right _ _)

/-! ## What regular patterns denote -/

namespace Regular

variable (hx : x.Regular)

include hx

theorem toBits_div : x.toBits / 2 ^ f.fractionBits ≤ f.topExponent := by
  have hle : x.toBits ≤ f.topExponent * 2 ^ f.fractionBits := Nat.shiftLeft_eq .. ▸ hx
  exact Nat.div_le_of_le_mul (Nat.mul_comm .. ▸ hle)

theorem exponentField : x.exponentField = x.toBits / 2 ^ f.fractionBits := by
  have htop : f.topExponent < 2 ^ f.exponentBits := by
    rw [BinaryFormat.topExponent, Nat.one_shiftLeft]
    exact Nat.sub_lt (Nat.two_pow_pos _) Nat.one_pos
  rw [Binary.exponentField, Nat.shiftRight_eq_div_pow, Nat.one_shiftLeft]
  exact Nat.mod_eq_of_lt (Nat.lt_of_le_of_lt hx.toBits_div htop)

theorem negative : x.negative = false :=
  Nat.testBit_lt_two_pow (Nat.lt_of_le_of_lt hx f.infinityBits_lt)

/-- The datum of infinity. -/
theorem datum_infinity (h : x.toBits = f.infinityBits) : x.datum = .infinite false := by
  have hbits : x.toBits = f.topExponent * 2 ^ f.fractionBits := h.trans (Nat.shiftLeft_eq ..)
  have he : x.exponentField = f.topExponent := by
    rw [hx.exponentField, hbits, Nat.mul_div_cancel _ (Nat.two_pow_pos _)]
  have hm : x.fractionField = 0 := by
    rw [fractionField, hbits, Nat.one_shiftLeft, Nat.mul_mod_left]
  simp only [datum, he, hm, if_true, hx.negative]

/-- The datum of a finite number: at the least scale if the number is small, and
with its leading bit in front otherwise. -/
theorem datum_finite (h : x.toBits < f.infinityBits) :
    x.datum =
      if x.toBits < 2 ^ f.fractionBits then .finite false x.toBits f.leastScale
      else .finite false (2 ^ f.fractionBits + x.toBits % 2 ^ f.fractionBits)
        (f.leastScale + (x.toBits / 2 ^ f.fractionBits - 1 : Nat)) := by
  have hpos := Nat.two_pow_pos f.fractionBits
  have htop : x.toBits / 2 ^ f.fractionBits < f.topExponent := by
    rw [Nat.div_lt_iff_lt_mul hpos, ← Nat.shiftLeft_eq]
    exact h
  have hfraction : x.fractionField = x.toBits % 2 ^ f.fractionBits := by
    rw [fractionField, Nat.one_shiftLeft]
  simp only [datum, hx.exponentField, hfraction, hx.negative, Nat.ne_of_lt htop, if_false,
    Nat.one_shiftLeft, Nat.div_eq_zero_iff, Nat.ne_of_gt hpos, false_or]
  split
  · next hlt => rw [Nat.mod_eq_of_lt hlt]
  · rfl

theorem cases_datum :
    (x.toBits = f.infinityBits ∧ x.datum = .infinite false) ∨
      x.toBits < f.infinityBits ∧ ∃ m q, x.datum = .finite false m q := by
  rcases Nat.lt_or_eq_of_le hx with h | h
  · refine .inr ⟨h, ?_⟩
    rw [hx.datum_finite h]
    split <;> exact ⟨_, _, rfl⟩
  · exact .inl ⟨h, hx.datum_infinity h⟩

end Regular

/-! ## Rounding what needs no rounding -/

theorem roundShift_shiftLeft (m k : Nat) : roundShift (m <<< k) k = m := by
  have hlow : (m <<< k) >>> k = m := Nat.shiftLeft_shiftRight ..
  have hunit : 0 < 1 <<< k := by
    rw [Nat.one_shiftLeft]
    exact Nat.two_pow_pos k
  simp [roundShift, hlow, Nat.ne_of_lt hunit]

/-- **A number rounds to itself**, however far its significand is shifted. -/
theorem Regular.roundFinite_shiftLeft (hx : x.Regular) {m k : Nat} {q : Int}
    (hd : x.datum = .finite false m q) : roundFinite f false (m <<< k) (q - k) = x := by
  have hpos := Nat.two_pow_pos f.fractionBits
  have hlt : x.toBits < f.infinityBits := by
    rcases hx.cases_datum with ⟨-, hinf⟩ | ⟨hlt, -⟩
    · rw [hinf] at hd
      cases hd
    · exact hlt
  rw [hx.datum_finite hlt] at hd
  split at hd
  · next hsmall =>
    -- at the least scale what was shifted in is shifted out again
    injection hd with _ hm hq
    subst hm hq
    by_cases hzero : x.toBits = 0
    · rw [hzero, Nat.zero_shiftLeft, roundFinite, if_pos rfl, ← hzero, signed_toBits]
    · have hne : x.toBits <<< k ≠ 0 := by
        rw [Nat.shiftLeft_eq]
        exact Nat.ne_of_gt (Nat.mul_pos (Nat.pos_of_ne_zero hzero) (Nat.two_pow_pos k))
      have hlog : Nat.log2 (x.toBits <<< k) < f.fractionBits + k := by
        rw [Nat.log2_lt hne, Nat.shiftLeft_eq, Nat.pow_add]
        exact Nat.mul_lt_mul_of_pos_right hsmall (Nat.two_pow_pos k)
      have htarget : Max.max f.leastScale
          (f.leastScale - k + (Nat.log2 (x.toBits <<< k) : Int) - f.fractionBits) =
            f.leastScale := by omega
      have hn : (if f.leastScale ≤ f.leastScale - k then
          (x.toBits <<< k) <<< (f.leastScale - k - f.leastScale).toNat
          else roundShift (x.toBits <<< k) (f.leastScale - (f.leastScale - k)).toNat) =
            x.toBits := by
        split
        · obtain rfl : k = 0 := by omega
          simp
        · rw [show (f.leastScale - (f.leastScale - (k : Int))).toNat = k by omega,
            roundShift_shiftLeft]
      rw [roundFinite, if_neg hne]
      simp only [htarget, hn, Int.sub_self, Int.toNat_zero, Nat.zero_shiftLeft, Nat.zero_add,
        Nat.min_eq_left hx]
      exact signed_toBits x
  · next hlarge =>
    injection hd with _ hm hq
    have hone : 1 ≤ x.toBits / 2 ^ f.fractionBits :=
      (Nat.one_le_div_iff hpos).mpr (Nat.le_of_not_lt hlarge)
    have hmod := Nat.mod_lt x.toBits hpos
    have hne : m <<< k ≠ 0 := by
      rw [Nat.shiftLeft_eq]
      exact Nat.ne_of_gt (Nat.mul_pos (by omega) (Nat.two_pow_pos k))
    have hlog : Nat.log2 (m <<< k) = f.fractionBits + k := by
      rw [Nat.log2_eq_iff hne, Nat.shiftLeft_eq, Nat.pow_add, Nat.add_right_comm, Nat.pow_add,
        Nat.pow_succ]
      exact ⟨Nat.mul_le_mul_right _ (by omega), Nat.mul_lt_mul_of_pos_right (by omega)
        (Nat.two_pow_pos k)⟩
    have htarget : Max.max f.leastScale
        (q - k + (Nat.log2 (m <<< k) : Int) - f.fractionBits) = q := by
      rw [hlog]
      omega
    -- shifted or not, the significand is the number's own
    have hn : (if q ≤ q - k then (m <<< k) <<< (q - k - q).toNat
        else roundShift (m <<< k) (q - (q - k)).toNat) = m := by
      split
      · obtain rfl : k = 0 := by omega
        simp
      · rw [show (q - (q - (k : Int))).toNat = k by omega, roundShift_shiftLeft]
    have hmagnitude : (q - f.leastScale).toNat <<< f.fractionBits + m = x.toBits := by
      have hdiv := Nat.div_add_mod' x.toBits (2 ^ f.fractionBits)
      have hscale : (q - f.leastScale).toNat = x.toBits / 2 ^ f.fractionBits - 1 := by omega
      have hmul : (x.toBits / 2 ^ f.fractionBits - 1) * 2 ^ f.fractionBits + 2 ^ f.fractionBits =
          x.toBits / 2 ^ f.fractionBits * 2 ^ f.fractionBits := by
        rw [← Nat.succ_mul, Nat.succ_eq_add_one, Nat.sub_add_cancel hone]
      rw [hscale, Nat.shiftLeft_eq, ← hm, ← Nat.add_assoc, hmul, hdiv]
    rw [roundFinite, if_neg hne]
    simp only [htarget, hn, hmagnitude, Nat.min_eq_left hx]
    exact signed_toBits x

/-- **A number that the format holds is what its rounding denotes**, with the significand
shifted to the scale at which it is held. -/
theorem datum_roundFinite {m k : Nat} {q : Int} (hne : m ≠ 0)
    (hk : Max.max f.leastScale (q + (Nat.log2 m : Int) - f.fractionBits) = q - k)
    (htop : q - k + 2 ≤ f.leastScale + f.topExponent) :
    (roundFinite f false m q).datum = .finite false (m <<< k) (q - k) := by
  have hpos := Nat.two_pow_pos f.fractionBits
  obtain ⟨t, ht⟩ : ∃ t : Nat, q - k = f.leastScale + t := ⟨(q - k - f.leastScale).toNat, by omega⟩
  -- the significand fills its field, but at the least scale it may be shorter
  have hhigh : m <<< k < 2 * 2 ^ f.fractionBits := by
    have hlog : Nat.log2 m + k ≤ f.fractionBits := by omega
    have hself := Nat.mul_lt_mul_of_pos_right (Nat.lt_log2_self (n := m)) (Nat.two_pow_pos k)
    rw [← Nat.pow_add] at hself
    have hpow : 2 ^ (Nat.log2 m + 1 + k) ≤ 2 ^ (f.fractionBits + 1) :=
      Nat.pow_le_pow_right (by decide) (by omega)
    rw [Nat.pow_succ] at hpow
    rw [Nat.shiftLeft_eq]
    omega
  have hlow : t ≠ 0 → 2 ^ f.fractionBits ≤ m <<< k := by
    intro hzero
    have hlog : Nat.log2 m + k = f.fractionBits := by omega
    have hself := Nat.mul_le_mul_right (2 ^ k) (Nat.log2_self_le hne)
    rw [← Nat.pow_add, hlog] at hself
    rwa [Nat.shiftLeft_eq]
  have hn : (if q - k ≤ q then m <<< (q - (q - k)).toNat
      else roundShift m (q - k - q).toNat) = m <<< k := by
    rw [if_pos (by omega), show (q - (q - (k : Int))).toNat = k by omega]
  have hscale : (q - k - f.leastScale).toNat <<< f.fractionBits = t * 2 ^ f.fractionBits := by
    rw [Nat.shiftLeft_eq, show (q - k - f.leastScale).toNat = t by omega]
  have hfinite : t * 2 ^ f.fractionBits + m <<< k < f.infinityBits := by
    have hmul : (t + 2) * 2 ^ f.fractionBits ≤ f.topExponent * 2 ^ f.fractionBits :=
      Nat.mul_le_mul_right _ (by omega)
    rw [Nat.add_mul] at hmul
    rw [BinaryFormat.infinityBits, Nat.shiftLeft_eq]
    omega
  have hround : roundFinite f false m q =
      signed f false (t * 2 ^ f.fractionBits + m <<< k) := by
    rw [roundFinite, if_neg hne]
    simp only [hk, hn, hscale, Nat.min_eq_left (Nat.le_of_lt hfinite)]
  have hbits := toBits_signed (f := f) (Nat.le_of_lt hfinite)
  rw [hround, (regular_signed (Nat.le_of_lt hfinite)).datum_finite (hbits.symm ▸ hfinite), hbits]
  split
  · next hsmall =>
    obtain rfl : t = 0 := by
      by_cases hzero : t = 0
      · exact hzero
      · have hle := hlow hzero
        omega
    rw [Nat.zero_mul, Nat.zero_add, ht, Int.ofNat_zero, Int.add_zero]
  · next hlarge =>
    have hle : 2 ^ f.fractionBits ≤ m <<< k := by
      by_cases hzero : t = 0
      · rw [hzero, Nat.zero_mul, Nat.zero_add] at hlarge
        exact Nat.le_of_not_lt hlarge
      · exact hlow hzero
    have hsum : t * 2 ^ f.fractionBits + m <<< k =
        (m <<< k - 2 ^ f.fractionBits) + (t + 1) * 2 ^ f.fractionBits := by
      rw [Nat.add_mul]
      omega
    have hrest : m <<< k - 2 ^ f.fractionBits < 2 ^ f.fractionBits := by omega
    rw [hsum, Nat.add_mul_mod_self_right, Nat.mod_eq_of_lt hrest, Nat.add_mul_div_right _ _ hpos,
      Nat.div_eq_of_lt hrest, Nat.zero_add, Nat.add_sub_cancel, Nat.add_sub_cancel' hle, ht]

/-- **Zero of either sign adds nothing.** -/
theorem Regular.round_add_zero (hx : x.Regular) (s : Bool) :
    round f (x.datum.add (.finite s 0 f.leastScale)) = x := by
  rcases hx.cases_datum with ⟨hbits, hd⟩ | ⟨hlt, m, q, hd⟩
  · rw [hd]
    show signed f false f.infinityBits = x
    rw [← hbits, signed_toBits]
  · have hq : f.leastScale ≤ q := by
      have h := hd
      rw [hx.datum_finite hlt] at h
      split at h <;> injection h <;> omega
    obtain ⟨k, rfl⟩ : ∃ k : Nat, q = f.leastScale + k := ⟨(q - f.leastScale).toNat, by omega⟩
    have hround := hx.roundFinite_shiftLeft (k := k) hd
    have hscale : Min.min (f.leastScale + k) f.leastScale = f.leastScale := by omega
    have hshift : (f.leastScale + (k : Int) - f.leastScale).toNat = k := by omega
    rw [Int.add_sub_cancel] at hround
    rw [hd]
    simp only [Datum.add, Datum.addFinite, Datum.signedInt, hscale, hshift, Nat.zero_shiftLeft,
      Bool.false_and, Bool.false_eq_true, if_false, Int.ofNat_zero, Int.neg_zero, ite_self,
      Int.add_zero, Int.natCast_eq_zero]
    split
    · next hzero =>
      rw [hzero] at hround
      exact hround
    · rw [Int.natAbs_natCast, decide_eq_false (Int.not_lt.mpr (Int.natCast_nonneg _))]
      exact hround

/-- A number taken away from itself is zero. -/
theorem Regular.sub_self (hx : x.Regular) (hlt : x.toBits < f.infinityBits) : x - x = zero f := by
  rcases hx.cases_datum with ⟨hbits, -⟩ | ⟨-, m, q, hd⟩
  · exact absurd hbits (Nat.ne_of_lt hlt)
  · show round f (x.datum.add x.datum.neg) = _
    have hcancel : (m : Int) + -m = 0 := Int.add_right_neg _
    rw [hd]
    simp [Datum.neg, Datum.add, Datum.addFinite, Datum.signedInt, hcancel, round, roundFinite, zero,
      ofNat]

/-- Sums of regular numbers are regular. -/
theorem Regular.add (hx : x.Regular) (hy : y.Regular) : (x + y).Regular := by
  show (round f (x.datum.add y.datum)).Regular
  have hinf : (signed f false f.infinityBits).Regular := regular_signed (Nat.le_refl _)
  rcases hx.cases_datum with ⟨-, hdx⟩ | ⟨-, m, p, hdx⟩ <;>
    rcases hy.cases_datum with ⟨-, hdy⟩ | ⟨-, n, q, hdy⟩ <;> rw [hdx, hdy]
  · exact hinf
  · exact hinf
  · exact hinf
  · simp only [Datum.add, Datum.addFinite, Datum.signedInt, Bool.false_eq_true, if_false,
      Bool.and_self]
    split
    · exact regular_roundFinite f _ _
    · rw [decide_eq_false (Int.not_lt.mpr
        (Int.add_nonneg (Int.natCast_nonneg _) (Int.natCast_nonneg _)))]
      exact regular_roundFinite f _ _

/-! ## Double precision -/

theorem regular_ofNat (n : Nat) : (ofNat f n).Regular := regular_roundFinite f n 0

theorem datum_zero : (zero .double).datum = .finite false 0 BinaryFormat.double.leastScale := by
  decide

theorem Regular.add_zero {x : Double} (hx : x.Regular) : x + zero .double = x := by
  show round .double (x.datum.add (zero .double).datum) = x
  rw [datum_zero]
  exact hx.round_add_zero false

theorem Regular.sub_zero {x : Double} (hx : x.Regular) : x - zero .double = x := by
  show round .double (x.datum.add (zero .double).datum.neg) = x
  rw [datum_zero]
  exact hx.round_add_zero true

theorem roundShift_le (m k : Nat) : roundShift m k ≤ m / 2 ^ k + 1 := by
  rw [← Nat.shiftRight_eq_div_pow]
  unfold roundShift
  simp only []
  split <;> omega

/-- **A natural number that fits a word is no infinity**, and only zero is zero. -/
theorem toBits_ofNat {n : Nat} (hpos : 0 < n) (hlt : n < 2 ^ 64) :
    0 < (ofNat .double n).toBits ∧
      (ofNat .double n).toBits < BinaryFormat.double.infinityBits := by
  have hne := Nat.ne_of_gt hpos
  have hlog : Nat.log2 n < 64 := (Nat.log2_lt hne).mpr hlt
  have hself : n < 2 ^ (Nat.log2 n + 1) := Nat.lt_log2_self
  have htarget : Max.max BinaryFormat.double.leastScale
      (0 + (Nat.log2 n : Int) - BinaryFormat.double.fractionBits) = (Nat.log2 n : Int) - 52 := by
    show Max.max (-1074 : Int) (0 + (Nat.log2 n : Int) - 52) = _
    omega
  -- the significand, shifted or rounded, has at most one bit more than its field
  have hsig : (if (Nat.log2 n : Int) - 52 ≤ 0 then n <<< (0 - ((Nat.log2 n : Int) - 52)).toNat
      else roundShift n ((Nat.log2 n : Int) - 52 - 0).toNat) ≤ 2 ^ 53 := by
    split
    · next hle =>
      rw [Nat.shiftLeft_eq]
      have hshift : (0 - ((Nat.log2 n : Int) - 52)).toNat = 52 - Nat.log2 n := by omega
      have hmul := Nat.mul_le_mul_right (2 ^ (52 - Nat.log2 n)) (Nat.le_of_lt hself)
      rw [← Nat.pow_add, show Nat.log2 n + 1 + (52 - Nat.log2 n) = 53 by omega] at hmul
      rw [hshift]
      exact hmul
    · next hgt =>
      have hshift : ((Nat.log2 n : Int) - 52 - 0).toNat = Nat.log2 n - 52 := by omega
      have hdiv : n / 2 ^ (Nat.log2 n - 52) < 2 ^ 53 := by
        rw [Nat.div_lt_iff_lt_mul (Nat.two_pow_pos _), ← Nat.pow_add,
          show 53 + (Nat.log2 n - 52) = Nat.log2 n + 1 by omega]
        exact hself
      rw [hshift]
      exact Nat.le_trans (roundShift_le n _) hdiv
  rw [ofNat, roundFinite, if_neg hne]
  simp only [htarget]
  generalize (if (Nat.log2 n : Int) - 52 ≤ 0 then _ else _ : Nat) = sig at hsig ⊢
  have hmagnitude : ((Nat.log2 n : Int) - 52 - BinaryFormat.double.leastScale).toNat <<<
      BinaryFormat.double.fractionBits + sig = (Nat.log2 n + 1022) * 2 ^ 52 + sig := by
    rw [Nat.shiftLeft_eq]
    show ((Nat.log2 n : Int) - 52 - (-1074 : Int)).toNat * 2 ^ 52 + sig = _
    rw [show ((Nat.log2 n : Int) - 52 - (-1074)).toNat = Nat.log2 n + 1022 by omega]
  have hinfinity : BinaryFormat.double.infinityBits = 2047 * 2 ^ 52 := by decide
  rw [hmagnitude, toBits_signed (Nat.min_le_right _ _), hinfinity]
  omega

theorem sub_self_ofNat {n : Nat} (hlt : n < 2 ^ 64) :
    ofNat .double n - ofNat .double n = zero .double := by
  refine (regular_ofNat n).sub_self ?_
  rcases Nat.eq_zero_or_pos n with rfl | hpos
  · decide
  · exact (toBits_ofNat hpos hlt).2

theorem Regular.isZero_iff {x : Double} (hx : x.Regular) : x.isZero = true ↔ x.toBits = 0 := by
  have hdiv := Nat.div_add_mod' x.toBits (2 ^ BinaryFormat.double.fractionBits)
  rw [isZero, Bool.and_eq_true, beq_iff_eq, beq_iff_eq, hx.exponentField, fractionField,
    Nat.one_shiftLeft]
  constructor
  · rintro ⟨hq, hr⟩
    rw [← hdiv, hq, hr, Nat.zero_mul]
  · intro h
    rw [h]
    exact ⟨Nat.zero_div _, Nat.zero_mod _⟩

theorem isZero_ofNat {n : Nat} (hpos : 0 < n) (hlt : n < 2 ^ 64) :
    (ofNat .double n).isZero = false := by
  rw [← Bool.not_eq_true, (regular_ofNat n).isZero_iff]
  exact Nat.ne_of_gt (toBits_ofNat hpos hlt).1

theorem zero_lt_ofNat {n : Nat} (hpos : 0 < n) (hlt : n < 2 ^ 64) :
    (zero .double).lt (ofNat .double n) = true := by
  obtain ⟨hbits, hfinite⟩ := toBits_ofNat hpos hlt
  rw [lt, datum_zero, (regular_ofNat n).datum_finite hfinite]
  split
  · simp only [Datum.lt, Datum.signedInt, Int.min_self, Int.sub_self, Int.toNat_zero,
      Nat.shiftLeft_zero, Bool.false_eq_true, if_false, decide_eq_true_eq]
    omega
  · have hpos' : 0 < 2 ^ BinaryFormat.double.fractionBits +
        (ofNat .double n).toBits % 2 ^ BinaryFormat.double.fractionBits :=
      Nat.add_pos_left (Nat.two_pow_pos _) _
    simp only [Datum.lt, Datum.signedInt, Nat.shiftLeft_eq, Nat.zero_mul, Bool.false_eq_true,
      if_false, decide_eq_true_eq]
    exact Int.natCast_pos.mpr (Nat.mul_pos hpos' (Nat.two_pow_pos _))

theorem ofNat_lt_infinity {n : Nat} (hlt : n < 2 ^ 64) :
    (ofNat .double n).lt (infinity .double) = true := by
  have hinf : (infinity .double).datum = .infinite false := by decide
  have hfinite : (ofNat .double n).toBits < BinaryFormat.double.infinityBits := by
    rcases Nat.eq_zero_or_pos n with rfl | hpos
    · decide
    · exact (toBits_ofNat hpos hlt).2
  rw [lt, hinf, (regular_ofNat n).datum_finite hfinite]
  split <;> rfl

end Binary

end SystolicGemm
