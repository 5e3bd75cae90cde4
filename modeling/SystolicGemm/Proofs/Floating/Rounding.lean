import SystolicGemm.Element
import SystolicGemm.Proofs.Floating.Nearest
import SystolicGemm.Proofs.Floating.Unordered

/-!
# Rounding

What the arithmetic rounds is the exact result. A finite datum is a rational number, sums
and products of data are those of the numbers, and rounding a number gives what `Rounds`
says: the nearest value, or infinity from halfway past the greatest one on. So a fused
multiply-add rounds once (`rounds_mulAdd`), and a step of the datapath in a narrow format
rounds a second time (`Element.rounds_fma_narrow`).
-/

namespace SystolicGemm

/-! ## Numbers -/

namespace Datum

variable {a b r : ℚ} {s t : Bool}

/-- A magnitude with its sign. -/
def signedValue (s : Bool) (r : ℚ) : ℚ := if s then -r else r

theorem signedValue_zero (s : Bool) : signedValue s 0 = 0 := by
  rw [signedValue, neg_zero, ite_self]

theorem abs_signedValue (s : Bool) (r : ℚ) : |signedValue s r| = |r| := by
  cases s with
  | false => rfl
  | true => exact abs_neg r

theorem abs_signedValue_sub (s : Bool) (a b : ℚ) :
    |signedValue s a - signedValue s b| = |a - b| := by
  cases s with
  | false => rfl
  | true =>
    show |-a - -b| = |a - b|
    rw [neg_sub_neg, abs_sub_comm]

/-- Numbers of different signs are apart by the sum of their magnitudes. -/
theorem abs_signedValue_sub_of_ne (h : t ≠ s) (ha : 0 ≤ a) (hb : 0 ≤ b) :
    |signedValue t a - signedValue s b| = a + b := by
  cases s with
  | false =>
    obtain rfl : t = true := by simpa using h
    show |-a - b| = a + b
    rw [← neg_add', abs_neg, abs_of_nonneg (add_nonneg ha hb)]
  | true =>
    obtain rfl : t = false := by simpa using h
    show |a - -b| = a + b
    rw [sub_neg_eq_add, abs_of_nonneg (add_nonneg ha hb)]

theorem signedValue_neg_iff (h : 0 < r) : decide (signedValue s r < 0) = s := by
  cases s with
  | false => exact decide_eq_false (not_lt.mpr h.le)
  | true => exact decide_eq_true (neg_neg_of_pos h)

/-- The number that a datum is, if it is one. -/
def number : Datum → Option ℚ
  | .finite s m q => some (signedValue s (scaled m q))
  | _ => none

end Datum

open Datum (scaled signedValue)

/-- Halfway past the greatest finite value. -/
def BinaryFormat.overflow (f : BinaryFormat) : ℚ :=
  (f.value (f.infinityBits - 1) + f.value f.infinityBits) / 2

theorem BinaryFormat.overflow_pos {f : BinaryFormat} (h : 0 < f.infinityBits) :
    0 < f.overflow := by
  have hlast := f.value_nonneg (f.infinityBits - 1)
  have hinf := f.value_strictMono h
  rw [value_zero] at hinf
  unfold overflow
  positivity

example : BinaryFormat.half.overflow = 65520 := by decide +kernel

namespace Binary

variable {f : BinaryFormat} {x : Binary f}

theorem datum_eq_withSign (x : Binary f) :
    x.datum = (signed f false x.magnitude).datum.withSign x.negative := by
  rw [← datum_signed x.negative x.magnitude_lt, signed_magnitude]

/-- A finite pattern is a number. -/
theorem number_of_lt (h : x.magnitude < f.infinityBits) :
    x.datum.number = some (signedValue x.negative (f.value x.magnitude)) := by
  have hle := Nat.le_of_lt h
  have hbits := toBits_signed (f := f) hle
  have hfinite := (regular_signed hle).datum_finite (hbits.symm ▸ h)
  rw [datum_eq_withSign, hfinite, hbits, BinaryFormat.value_eq]
  by_cases hsmall : x.magnitude < 2 ^ f.fractionBits
  · simp only [if_pos hsmall]
    rfl
  · simp only [if_neg hsmall]
    rfl

/-- Infinity and NaNs are none. -/
theorem number_of_le (h : f.infinityBits ≤ x.magnitude) : x.datum.number = none := by
  rcases Nat.lt_or_eq_of_le h with hlt | heq
  · rw [datum_eq_nan_iff.mpr (isNaN_iff.mpr hlt)]
    rfl
  · have hle := Nat.le_of_eq heq.symm
    rw [datum_eq_withSign,
      (regular_signed hle).datum_infinity ((toBits_signed hle).trans heq.symm)]
    rfl

/-- What a number is to be rounded to: the nearest value, of two equally near ones that with an
even pattern, and infinity from halfway past the greatest finite value on. A value keeps the
sign of the number. -/
structure Rounds (r : ℚ) (z : Binary f) : Prop where
  negative : r ≠ 0 → z.negative = decide (r < 0)
  finite : |r| < f.overflow → ∃ v, z.datum.number = some v ∧
    ∀ (y : Binary f) (u : ℚ), y.datum.number = some u → u ≠ v →
      |v - r| < |u - r| ∨ |v - r| = |u - r| ∧ z.magnitude % 2 = 0
  infinite : f.overflow ≤ |r| → z.datum = .infinite (decide (r < 0))

section

variable {r : ℚ} {p : Nat} (hprefers : ∀ p' ≤ f.infinityBits, p' ≠ p → f.Prefers r p p')

include hprefers

theorem lt_infinity_of_lt_overflow (hinf : 0 < f.infinityBits) (hp : p ≤ f.infinityBits)
    (hlt : r < f.overflow) : p < f.infinityBits := by
  have hstep := f.value_strictMono (Nat.sub_lt hinf Nat.one_pos)
  rw [BinaryFormat.overflow] at hlt
  refine Nat.lt_of_le_of_ne hp ?_
  rintro rfl
  have hnear : |f.value (f.infinityBits - 1) - r| < |f.value f.infinityBits - r| := by
    rw [abs_of_pos (show 0 < f.value f.infinityBits - r by linarith), abs_lt]
    constructor <;> linarith
  rcases hprefers (f.infinityBits - 1) (Nat.sub_le _ _) (by omega) with h | ⟨h, -⟩ <;> linarith

theorem eq_infinity_of_overflow_le (hf : 0 < f.fractionBits) (hinf : 0 < f.infinityBits)
    (hp : p ≤ f.infinityBits) (hle : f.overflow ≤ r) : p = f.infinityBits := by
  have hstep := f.value_strictMono (Nat.sub_lt hinf Nat.one_pos)
  rw [BinaryFormat.overflow] at hle
  by_contra hne
  have hlast : p ≤ f.infinityBits - 1 := by omega
  have hvalue := f.value_strictMono.monotone hlast
  have hnear : |f.value f.infinityBits - r| ≤ r - f.value (f.infinityBits - 1) := by
    rw [abs_le]
    constructor <;> linarith
  have hself : |f.value p - r| = r - f.value p := by
    rw [abs_sub_comm, abs_of_nonneg (by linarith)]
  rcases hprefers f.infinityBits (Nat.le_refl _) (Ne.symm hne) with h | ⟨h, heven⟩
  · linarith
  · -- as near is only the greatest finite value, and its pattern is odd
    obtain rfl : p = f.infinityBits - 1 := f.value_strictMono.injective (by linarith)
    obtain ⟨b, hb⟩ : ∃ b, f.fractionBits = b + 1 := ⟨f.fractionBits - 1, by omega⟩
    have hmultiple : f.infinityBits = f.topExponent * 2 ^ b * 2 := by
      rw [BinaryFormat.infinityBits, Nat.shiftLeft_eq, hb, Nat.pow_succ, Nat.mul_assoc]
    omega

/-- Zero is the only pattern that zero rounds to. -/
theorem value_eq_zero (hr : r = 0) : f.value p = 0 := by
  by_contra hne
  have hp : 0 ≠ p := by
    rintro rfl
    exact hne f.value_zero
  have hself : 0 < |f.value p| := abs_pos.mpr hne
  rcases hprefers 0 (Nat.zero_le _) hp with h | ⟨h, -⟩ <;>
    · rw [f.value_zero, hr, sub_zero, sub_zero, abs_zero] at h
      linarith

/-- **What is preferred to all other magnitudes** is preferred to those of the other sign as
well, which are farther away. -/
theorem prefers_signed (hr : 0 ≤ r) {p' : Nat} (hp' : p' ≤ f.infinityBits) {s t : Bool}
    (hne : signedValue t (f.value p') ≠ signedValue s (f.value p)) :
    |signedValue s (f.value p) - signedValue s r| < |signedValue t (f.value p') - signedValue s r| ∨
      |signedValue s (f.value p) - signedValue s r| =
        |signedValue t (f.value p') - signedValue s r| ∧ p % 2 = 0 := by
  rw [Datum.abs_signedValue_sub]
  by_cases hsign : t = s
  · subst hsign
    rw [Datum.abs_signedValue_sub]
    refine hprefers p' hp' ?_
    rintro rfl
    exact hne rfl
  have hvalue := f.value_nonneg p'
  have hfar : |f.value p' - r| ≤ f.value p' + r := by
    rw [abs_le]
    constructor <;> linarith
  rw [Datum.abs_signedValue_sub_of_ne hsign hvalue hr]
  by_cases hsame : p' = p
  · subst hsame
    -- the two values differ, so they are not zero, and neither is the number
    have hnonzero : f.value p' ≠ 0 := by
      intro hzero
      refine hne ?_
      rw [hzero, Datum.signedValue_zero, Datum.signedValue_zero]
    have hpos := lt_of_le_of_ne hvalue (Ne.symm hnonzero)
    have hr := lt_of_le_of_ne hr fun hzero => hnonzero (value_eq_zero hprefers hzero.symm)
    left
    rw [abs_lt]
    constructor <;> linarith
  · rcases hprefers p' hp' hsame with h | ⟨h, heven⟩
    · exact .inl (lt_of_lt_of_le h hfar)
    · rcases lt_or_eq_of_le (h.le.trans hfar) with hlt | heq
      · exact .inl hlt
      · exact .inr ⟨heq, heven⟩

end

/-- **Rounding takes the nearest value.** -/
theorem rounds_roundFinite (hf : 0 < f.fractionBits) (hinf : 0 < f.infinityBits) (s : Bool)
    (m : Nat) (q : Int) : Rounds (signedValue s (scaled m q)) (roundFinite f s m q) := by
  obtain ⟨p, hp, hround, hprefers⟩ := exists_nearest hf s m q
  have hscaled := Datum.scaled_nonneg m q
  have habs : |signedValue s (scaled m q)| = scaled m q := by
    rw [Datum.abs_signedValue, abs_of_nonneg hscaled]
  have hlt := Nat.lt_of_le_of_lt hp f.infinityBits_lt
  have hnegative : (signed f s p).negative = s := negative_signed hlt
  have hmagnitude : (signed f s p).magnitude = p := magnitude_signed hlt
  rw [hround]
  constructor
  case negative =>
    intro hne
    have hpos : scaled m q ≠ 0 := by
      intro hzero
      rw [hzero, Datum.signedValue_zero] at hne
      exact hne rfl
    rw [hnegative, Datum.signedValue_neg_iff (lt_of_le_of_ne hscaled (Ne.symm hpos))]
  case finite =>
    intro hover
    rw [habs] at hover
    have hfinite := lt_infinity_of_lt_overflow hprefers hinf hp hover
    have hnumber := number_of_lt (x := signed f s p) (hmagnitude.symm ▸ hfinite)
    rw [hnegative, hmagnitude] at hnumber
    refine ⟨_, hnumber, fun y u hu hne => ?_⟩
    rw [hmagnitude]
    rcases Nat.lt_or_ge y.magnitude f.infinityBits with hy | hy
    · rw [number_of_lt hy, Option.some.injEq] at hu
      rw [← hu] at hne ⊢
      exact prefers_signed hprefers hscaled (Nat.le_of_lt hy) hne
    · rw [number_of_le hy] at hu
      cases hu
  case infinite =>
    intro hover
    rw [habs] at hover
    obtain rfl := eq_infinity_of_overflow_le hprefers hf hinf hp hover
    rw [datum_signed s f.infinityBits_lt, (regular_signed hp).datum_infinity (toBits_signed hp),
      Datum.signedValue_neg_iff (lt_of_lt_of_le (f.overflow_pos hinf) hover)]
    rfl

end Binary

/-! ## Exact arithmetic -/

namespace Datum

variable {d e : Datum} {a b : ℚ}

theorem scaled_mul (m n : Nat) (p q : Int) : scaled (m * n) (p + q) = scaled m p * scaled n q := by
  rw [scaled, scaled, scaled, zpow_add₀ two_ne_zero, Nat.cast_mul]
  ring

theorem number_mul (hd : d.number = some a) (he : e.number = some b) :
    (d.mul e).number = some (a * b) := by
  cases d with
  | nan | infinite => cases hd
  | finite s m p =>
    cases e with
    | nan | infinite => cases he
    | finite t n q =>
      cases hd
      cases he
      rw [mul, number, scaled_mul]
      cases s <;> cases t <;> simp [signedValue]

/-- A significand with its sign, at a smaller scale. -/
theorem signedInt_shiftLeft (s : Bool) (m k : Nat) (q : Int) :
    (signedInt s (m <<< k) : ℚ) * 2 ^ q = signedValue s (scaled m (q + k)) := by
  rw [← scaled_shiftLeft, signedInt]
  cases s with
  | false => rfl
  | true =>
    rw [if_pos rfl, signedValue, if_pos rfl, Int.cast_neg, Int.cast_natCast, neg_mul, scaled]

/-- An integer at a scale, from its sign and its magnitude. -/
theorem signedValue_natAbs (n : Int) (q : Int) :
    signedValue (decide (n < 0)) (scaled n.natAbs q) = n * 2 ^ q := by
  have habs : (n.natAbs : ℚ) = |(n : ℚ)| := by
    rw [Nat.cast_natAbs, Int.cast_abs]
  rw [scaled, habs]
  rcases lt_or_ge n 0 with hneg | hpos
  · have hcast : (n : ℚ) < 0 := by exact_mod_cast hneg
    rw [decide_eq_true hneg, signedValue, if_pos rfl, abs_of_neg hcast, neg_mul, neg_neg]
  · have hcast : (0 : ℚ) ≤ n := by exact_mod_cast hpos
    rw [decide_eq_false (not_lt.mpr hpos), signedValue, if_neg Bool.false_ne_true,
      abs_of_nonneg hcast]

theorem number_add (hd : d.number = some a) (he : e.number = some b) :
    (d.add e).number = some (a + b) := by
  cases d with
  | nan | infinite => cases hd
  | finite s m p =>
    cases e with
    | nan | infinite => cases he
    | finite t n q =>
      cases hd
      cases he
      -- both significands are brought to the smaller scale
      have hp : Min.min p q + (p - Min.min p q).toNat = p := by omega
      have hq : Min.min p q + (q - Min.min p q).toNat = q := by omega
      have hm := signedInt_shiftLeft s m (p - Min.min p q).toNat (Min.min p q)
      have hn := signedInt_shiftLeft t n (q - Min.min p q).toNat (Min.min p q)
      rw [hp] at hm
      rw [hq] at hn
      rw [← hm, ← hn, ← add_mul, ← Int.cast_add, add, addFinite]
      generalize signedInt s (m <<< (p - Min.min p q).toNat) +
        signedInt t (n <<< (q - Min.min p q).toNat) = total
      split
      · next hzero =>
        rw [hzero, number, scaled_zero, signedValue_zero, Int.cast_zero, zero_mul]
      · rw [number, signedValue_natAbs]

end Datum

namespace Binary

variable {f : BinaryFormat} {x y z : Binary f} {a b c : ℚ}

theorem rounds_round (hf : 0 < f.fractionBits) (hinf : 0 < f.infinityBits) {d : Datum}
    (hd : d.number = some a) : Rounds a (round f d) := by
  cases d with
  | nan | infinite => cases hd
  | finite s m q =>
    cases hd
    exact rounds_roundFinite hf hinf s m q

/-- **A fused multiply-add rounds the exact value once.** -/
theorem rounds_mulAdd (hf : 0 < f.fractionBits) (hinf : 0 < f.infinityBits)
    (hx : x.datum.number = some a) (hy : y.datum.number = some b) (hz : z.datum.number = some c) :
    Rounds (a * b + c) (mulAdd x y z) :=
  rounds_round hf hinf (Datum.number_add (Datum.number_mul hx hy) hz)

/-- **A conversion rounds the value.** -/
theorem rounds_convert {g : BinaryFormat} (hg : 0 < g.fractionBits) (hinf : 0 < g.infinityBits)
    (hx : x.datum.number = some a) : Rounds a (x.convert g) := by
  have hnumber : x.isNaN = false := by
    rw [← Bool.not_eq_true, ← datum_eq_nan_iff]
    intro hnan
    rw [hnan] at hx
    cases hx
  rw [convert_of_number hnumber]
  exact rounds_round hg hinf hx

end Binary

/-! ## Accumulation steps -/

namespace Element

variable {acc x w : Single} {a b c v : ℚ}

/-- In single precision a step rounds the exact value once. -/
theorem rounds_fma (ha : acc.datum.number = some a) (hx : x.datum.number = some b)
    (hw : w.datum.number = some c) : Binary.Rounds (b * c + a) (fp32.fma acc x w) := by
  rw [fma_fp32]
  exact Binary.rounds_mulAdd (by decide) (by decide) hx hw ha

/-- **A step in a narrow format** rounds what a step in single precision leaves to half
precision, and the narrowest one drops the low byte of that. -/
theorem rounds_fma_narrow (hv : (fp32.fma acc x w).datum.number = some v) :
    ∃ z : Half, Binary.Rounds v z ∧ fp16.fma acc x w = z.convert .single ∧
      fp8.fma acc x w = (Binary.ofBits .half (z.toBits / 256 * 256)).convert .single := by
  rw [fma_fp32] at hv
  exact ⟨_, Binary.rounds_convert (by decide) (by decide) hv, fma_fp16 acc x w, fma_fp8 acc x w⟩

end Element

end SystolicGemm
