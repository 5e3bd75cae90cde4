import Mathlib.Algebra.Order.Field.Power
import Mathlib.Data.Rat.Cast.Order
import Mathlib.Tactic.Linarith
import Mathlib.Tactic.Positivity
import Mathlib.Tactic.Ring
import SystolicGemm.Proofs.Floating.Clock

/-!
# The nearest pattern

The patterns of a format without their signs count upwards in the order of their values,
and infinity stands in this order where the power of two after the greatest finite value
would. Rounding a significand at a scale takes, of all patterns up to infinity, the one of
the nearest value, and an even one where two are equally near (`exists_nearest`).

At the scale that the result gets, that is rounding to an integer (`nearestEven_roundShift`).
The values of greater scales are multiples of its unit, and those of smaller ones are too far
below (`NearestEven.prefers`).
-/

namespace SystolicGemm

namespace Datum

/-- The number that a significand at a scale is. -/
def scaled (m : Nat) (q : Int) : ℚ := m * 2 ^ q

theorem scaled_nonneg (m : Nat) (q : Int) : 0 ≤ scaled m q := by
  unfold scaled
  positivity

theorem scaled_zero (q : Int) : scaled 0 q = 0 := by
  rw [scaled, Nat.cast_zero, zero_mul]

/-- Places that a significand is shifted by go over to the scale. -/
theorem scaled_shiftLeft (m k : Nat) (q : Int) : scaled (m <<< k) q = scaled m (q + k) := by
  rw [scaled, scaled, Nat.shiftLeft_eq, zpow_add₀ two_ne_zero, zpow_natCast]
  push_cast
  ring

theorem scaled_lt {m : Nat} {q b : Int} (h : (Nat.log2 m : Int) + 1 + q ≤ b) :
    scaled m q < 2 ^ b := by
  have hself : (m : ℚ) < 2 ^ ((Nat.log2 m : Int) + 1) := by
    have hlt : (m : ℚ) < 2 ^ (Nat.log2 m + 1) := by exact_mod_cast Nat.lt_log2_self
    exact_mod_cast hlt
  calc scaled m q < 2 ^ ((Nat.log2 m : Int) + 1) * 2 ^ q :=
        mul_lt_mul_of_pos_right hself (by positivity)
    _ = 2 ^ ((Nat.log2 m : Int) + 1 + q) := (zpow_add₀ two_ne_zero _ _).symm
    _ ≤ 2 ^ b := zpow_le_zpow_right₀ one_le_two h

theorem le_scaled {m : Nat} (hm : m ≠ 0) {q b : Int} (h : b ≤ (Nat.log2 m : Int) + q) :
    2 ^ b ≤ scaled m q := by
  have hself : (2 : ℚ) ^ (Nat.log2 m : Int) ≤ m := by
    rw [zpow_natCast]
    exact_mod_cast Nat.log2_self_le hm
  calc (2 : ℚ) ^ b ≤ 2 ^ ((Nat.log2 m : Int) + q) := zpow_le_zpow_right₀ one_le_two h
    _ = 2 ^ (Nat.log2 m : Int) * 2 ^ q := zpow_add₀ two_ne_zero _ _
    _ ≤ scaled m q := mul_le_mul_of_nonneg_right hself (by positivity)

end Datum

open Datum (scaled)

/-! ## The values of patterns -/

namespace BinaryFormat

variable {f : BinaryFormat} {k n p t : Nat}

/-- The value of a pattern without sign in multiples of the least positive one. That of infinity
is the power of two that comes after the greatest finite value. -/
def units (f : BinaryFormat) (p : Nat) : Nat :=
  (p - (p / 2 ^ f.fractionBits - 1) * 2 ^ f.fractionBits) <<< (p / 2 ^ f.fractionBits - 1)

/-- The value of a pattern without sign. -/
def value (f : BinaryFormat) (p : Nat) : ℚ := scaled (f.units p) f.leastScale

/-- A significand at a scale, counted from the least one, has the pattern in which the two are
added, also where it is the first one of the next scale. -/
theorem units_add (hn : n ≤ 2 * 2 ^ f.fractionBits) (hk : k = 0 ∨ 2 ^ f.fractionBits ≤ n) :
    f.units (k * 2 ^ f.fractionBits + n) = n <<< k := by
  have hpos := Nat.two_pow_pos f.fractionBits
  rw [units, Nat.shiftLeft_eq, Nat.shiftLeft_eq]
  generalize 2 ^ f.fractionBits = F at hn hk hpos ⊢
  have hdiv : (k * F + n) / F = k + n / F := by
    rw [Nat.mul_comm, Nat.mul_add_div hpos]
  rcases Nat.lt_or_ge n F with hsmall | hlarge
  · obtain rfl : k = 0 := by omega
    rw [hdiv, Nat.div_eq_of_lt hsmall, Nat.zero_mul, Nat.zero_add]
    rfl
  · rcases Nat.lt_or_eq_of_le hn with hlt | rfl
    · have hone : n / F = 1 := Nat.div_eq_of_lt_le (by omega) (by omega)
      rw [hdiv, hone, Nat.add_sub_cancel, Nat.add_sub_cancel_left]
    · have htwo : 2 * F / F = 2 := Nat.mul_div_cancel 2 hpos
      have hnext : k * F + 2 * F - (k + 1) * F = F := by
        rw [Nat.add_mul]
        omega
      rw [hdiv, htwo, show k + 2 - 1 = k + 1 from rfl, hnext, Nat.pow_succ]
      ring

/-- Every pattern is that of a significand at a scale. -/
theorem exists_scale (f : BinaryFormat) (p : Nat) :
    ∃ n, p = (p / 2 ^ f.fractionBits - 1) * 2 ^ f.fractionBits + n ∧ n < 2 * 2 ^ f.fractionBits ∧
      (p / 2 ^ f.fractionBits - 1 = 0 ∨ 2 ^ f.fractionBits ≤ n) ∧
      n = if p < 2 ^ f.fractionBits then p
        else 2 ^ f.fractionBits + p % 2 ^ f.fractionBits := by
  have hdiv := Nat.div_add_mod' p (2 ^ f.fractionBits)
  have hpos := Nat.two_pow_pos f.fractionBits
  have hmod := Nat.mod_lt p hpos
  generalize 2 ^ f.fractionBits = F at hdiv hpos hmod ⊢
  rcases Nat.lt_or_ge p F with hsmall | hlarge
  · have hzero := Nat.div_eq_of_lt hsmall
    exact ⟨p, by rw [hzero]; omega, by omega, .inl (by rw [hzero]), (if_pos hsmall).symm⟩
  · have hone := (Nat.one_le_div_iff hpos).mpr hlarge
    have hprev : (p / F - 1) * F + F = p / F * F := by
      rw [← Nat.succ_mul, Nat.succ_eq_add_one, Nat.sub_add_cancel hone]
    exact ⟨F + p % F, by omega, by omega, .inr (by omega), (if_neg (by omega)).symm⟩

theorem units_succ (f : BinaryFormat) (p : Nat) :
    f.units (p + 1) = f.units p + 2 ^ (p / 2 ^ f.fractionBits - 1) := by
  obtain ⟨n, hp, hlt, hk, -⟩ := f.exists_scale p
  generalize p / 2 ^ f.fractionBits - 1 = k at hp hk ⊢
  rw [hp, Nat.add_assoc, units_add (Nat.succ_le_of_lt hlt) (by omega),
    units_add (Nat.le_of_lt hlt) hk, Nat.shiftLeft_eq, Nat.shiftLeft_eq, Nat.succ_mul]

/-- **Patterns count upwards in the order of their values.** -/
theorem units_strictMono (f : BinaryFormat) : StrictMono f.units := by
  refine strictMono_nat_of_lt_succ fun p => ?_
  rw [units_succ]
  exact Nat.lt_add_of_pos_right (Nat.two_pow_pos _)

/-- From the first full significand of a scale on, all values are multiples of its unit. -/
theorem exists_multiple (h : t = 0 ∨ (t + 1) * 2 ^ f.fractionBits ≤ p) :
    ∃ j, f.units p = j <<< t := by
  obtain ⟨n, hp, hlt, hk, -⟩ := f.exists_scale p
  have hle : t ≤ p / 2 ^ f.fractionBits - 1 := by
    rcases h with rfl | h
    · exact Nat.zero_le _
    · have hdiv := (Nat.le_div_iff_mul_le (Nat.two_pow_pos f.fractionBits)).mpr h
      omega
  generalize p / 2 ^ f.fractionBits - 1 = k at hp hk hle
  refine ⟨n <<< (k - t), ?_⟩
  rw [hp, units_add (Nat.le_of_lt hlt) hk, ← Nat.shiftLeft_add, Nat.sub_add_cancel hle]

theorem value_add (hn : n ≤ 2 * 2 ^ f.fractionBits) (hk : k = 0 ∨ 2 ^ f.fractionBits ≤ n) :
    f.value (k * 2 ^ f.fractionBits + n) = scaled n (f.leastScale + k) := by
  rw [value, units_add hn hk, Datum.scaled_shiftLeft]

/-- The value of a pattern, from its fields. -/
theorem value_eq (f : BinaryFormat) (p : Nat) : f.value p =
    if p < 2 ^ f.fractionBits then scaled p f.leastScale
    else scaled (2 ^ f.fractionBits + p % 2 ^ f.fractionBits)
      (f.leastScale + (p / 2 ^ f.fractionBits - 1 : Nat)) := by
  obtain ⟨n, hp, hlt, hk, hn⟩ := f.exists_scale p
  have hvalue := value_add (Nat.le_of_lt hlt) hk
  rw [← hp] at hvalue
  rw [hvalue, hn]
  split
  · next hsmall =>
    rw [Nat.div_eq_of_lt hsmall, Nat.zero_sub, Int.ofNat_zero, add_zero]
  · rfl

theorem value_strictMono (f : BinaryFormat) : StrictMono f.value := by
  intro p p' hlt
  have hcast : (f.units p : ℚ) < f.units p' := by exact_mod_cast f.units_strictMono hlt
  exact mul_lt_mul_of_pos_right hcast (by positivity)

theorem value_nonneg (f : BinaryFormat) (p : Nat) : 0 ≤ f.value p := Datum.scaled_nonneg _ _

theorem value_zero (f : BinaryFormat) : f.value 0 = 0 := by
  rw [value_eq, if_pos (Nat.two_pow_pos _), Datum.scaled_zero]

/-- Whether a number rounds to a pattern rather than to another one: the value is nearer, or it
is as near and the pattern is even. -/
def Prefers (f : BinaryFormat) (r : ℚ) (p p' : Nat) : Prop :=
  |f.value p - r| < |f.value p' - r| ∨ |f.value p - r| = |f.value p' - r| ∧ p % 2 = 0

end BinaryFormat

/-! ## Nearest integers -/

/-- Whether a number rounds to an integer, which is off by at most half a unit, and even where it
is half a unit off. -/
structure NearestEven (n : Nat) (x : ℚ) : Prop where
  error : |(n : ℚ) - x| ≤ 1 / 2
  even : |(n : ℚ) - x| = 1 / 2 → n % 2 = 0

namespace NearestEven

variable {n j b : Nat} {x : ℚ} (h : NearestEven n x)

include h

/-- No other integer is nearer, and one that is as near is odd. -/
theorem nearest (hne : j ≠ n) :
    |(n : ℚ) - x| < |(j : ℚ) - x| ∨ |(n : ℚ) - x| = |(j : ℚ) - x| ∧ n % 2 = 0 := by
  have hapart : (1 : ℚ) ≤ |(j : ℚ) - n| := by
    have hint : (1 : ℤ) ≤ |(j : ℤ) - n| := Int.one_le_abs (by omega)
    exact_mod_cast hint
  have htriangle : |(j : ℚ) - n| ≤ |(j : ℚ) - x| + |(n : ℚ) - x| := by
    have hsub := abs_sub_le (j : ℚ) x n
    rwa [abs_sub_comm x (n : ℚ)] at hsub
  rcases lt_or_eq_of_le h.error with hlt | heq
  · left
    linarith
  · rcases lt_or_eq_of_le (show |(n : ℚ) - x| ≤ |(j : ℚ) - x| by linarith) with hlt | hsame
    · exact .inl hlt
    · exact .inr ⟨hsame, h.even heq⟩

theorem error_le (j : Nat) : |(n : ℚ) - x| ≤ |(j : ℚ) - x| := by
  by_cases hsame : j = n
  · rw [hsame]
  · rcases h.nearest hsame with hlt | ⟨heq, -⟩
    · exact le_of_lt hlt
    · exact le_of_eq heq

theorem le_of_lt (hx : x < b) : n ≤ b := by
  have hlt : (n : ℚ) < (b + 1 : Nat) := by
    have habove := (abs_le.mp h.error).2
    rw [Nat.cast_add, Nat.cast_one]
    linarith
  exact Nat.le_of_lt_succ (by exact_mod_cast hlt)

theorem le_of_le (hx : b ≤ x) : b ≤ n := by
  have hlt : (b : ℚ) < (n + 1 : Nat) := by
    have hbelow := (abs_le.mp h.error).1
    rw [Nat.cast_add, Nat.cast_one]
    linarith
  exact Nat.le_of_lt_succ (by exact_mod_cast hlt)

end NearestEven

/-- Shifting right with rounding is off by at most half a unit, and even where it is half a
unit off. -/
theorem roundShift_bounds (m k : Nat) : 2 * m ≤ 2 * (roundShift m k * 2 ^ k) + 2 ^ k ∧
    2 * (roundShift m k * 2 ^ k) ≤ 2 * m + 2 ^ k ∧
    (2 * m = 2 * (roundShift m k * 2 ^ k) + 2 ^ k ∨
      2 * (roundShift m k * 2 ^ k) = 2 * m + 2 ^ k → roundShift m k % 2 = 0) := by
  have hdiv := Nat.div_add_mod' m (2 ^ k)
  have hmod := Nat.mod_lt m (Nat.two_pow_pos k)
  have hrest : m - (m / 2 ^ k) <<< k = m % 2 ^ k := by
    rw [Nat.shiftLeft_eq]
    omega
  have hround : roundShift m k =
      if 2 * (m % 2 ^ k) > 2 ^ k ∨ 2 * (m % 2 ^ k) = 2 ^ k ∧ m / 2 ^ k % 2 = 1 then m / 2 ^ k + 1
      else m / 2 ^ k := by
    rw [roundShift]
    simp only [Nat.shiftRight_eq_div_pow, hrest, Nat.one_shiftLeft, Bool.or_eq_true,
      decide_eq_true_eq, Bool.and_eq_true, beq_iff_eq]
  have hnext : (m / 2 ^ k + 1) * 2 ^ k = m / 2 ^ k * 2 ^ k + 2 ^ k := Nat.succ_mul _ _
  split at hround <;> rw [hround] <;> omega

/-- **Shifting right with rounding takes the nearest integer.** -/
theorem nearestEven_roundShift (m k : Nat) : NearestEven (roundShift m k) (scaled m (-k)) := by
  obtain ⟨habove, hbelow, heven⟩ := roundShift_bounds m k
  have hunit : (0 : ℚ) < 2 ^ k := by positivity
  have habove : 2 * (m : ℚ) ≤ 2 * (roundShift m k * 2 ^ k) + 2 ^ k := by exact_mod_cast habove
  have hbelow : 2 * ((roundShift m k : ℚ) * 2 ^ k) ≤ 2 * m + 2 ^ k := by exact_mod_cast hbelow
  have herror : |(roundShift m k : ℚ) - scaled m (-k)| =
      |(roundShift m k : ℚ) * 2 ^ k - m| / 2 ^ k := by
    rw [scaled, zpow_neg, zpow_natCast, ← div_eq_mul_inv, ← abs_of_pos hunit, ← abs_div,
      abs_of_pos hunit, sub_div, mul_div_cancel_right₀ _ hunit.ne']
  constructor
  · rw [herror, div_le_iff₀ hunit, abs_le]
    constructor <;> linarith
  · intro hhalf
    rw [herror, div_eq_iff hunit.ne'] at hhalf
    refine heven ?_
    rcases abs_choice ((roundShift m k : ℚ) * 2 ^ k - m) with hsign | hsign
    · right
      have heq : 2 * ((roundShift m k : ℚ) * 2 ^ k) = 2 * m + 2 ^ k := by linarith
      exact_mod_cast heq
    · left
      have heq : 2 * (m : ℚ) = 2 * (roundShift m k * 2 ^ k) + 2 ^ k := by linarith
      exact_mod_cast heq

/-- A significand is shifted to the left without an error, and to the right with rounding. -/
theorem nearestEven_rescale (m : Nat) (k : Int) :
    NearestEven (if 0 ≤ k then m <<< k.toNat else roundShift m (-k).toNat) (scaled m k) := by
  split
  · next hk =>
    have hexact : ((m <<< k.toNat : Nat) : ℚ) = scaled m k := by
      have hshift := Datum.scaled_shiftLeft m k.toNat 0
      rw [zero_add, Int.toNat_of_nonneg hk, scaled, zpow_zero, mul_one] at hshift
      exact hshift
    constructor
    · rw [hexact, sub_self, abs_zero]
      norm_num
    · intro hhalf
      rw [hexact, sub_self, abs_zero] at hhalf
      norm_num at hhalf
  · next hk =>
    have hround := nearestEven_roundShift m (-k).toNat
    rwa [Int.toNat_of_nonneg (by omega), neg_neg] at hround

/-! ## The nearest pattern -/

namespace NearestEven

variable {f : BinaryFormat} {n t p' : Nat} {x : ℚ}

/-- **The nearest pattern at the scale of a number is the nearest of all**: at that scale it is
the nearest, and below it no value is as near as the least one of the scale. -/
theorem prefers (h : NearestEven n x) (hf : 0 < f.fractionBits)
    (hle : n ≤ 2 * 2 ^ f.fractionBits)
    (hx : t = 0 ∨ ((2 ^ f.fractionBits : Nat) : ℚ) ≤ x) (hne : p' ≠ t * 2 ^ f.fractionBits + n) :
    f.Prefers (x * 2 ^ (f.leastScale + t)) (t * 2 ^ f.fractionBits + n) p' := by
  have hlow : t = 0 ∨ 2 ^ f.fractionBits ≤ n := hx.imp_right h.le_of_le
  have hunit : (0 : ℚ) < 2 ^ (f.leastScale + t) := by positivity
  have hdist : ∀ j : Nat, |scaled j (f.leastScale + t) - x * 2 ^ (f.leastScale + t)| =
      |(j : ℚ) - x| * 2 ^ (f.leastScale + t) := by
    intro j
    rw [scaled, ← sub_mul, abs_mul, abs_of_pos hunit]
  have hparity : (t * 2 ^ f.fractionBits + n) % 2 = n % 2 := by
    obtain ⟨b, hb⟩ : ∃ b, f.fractionBits = b + 1 := ⟨f.fractionBits - 1, by omega⟩
    rw [hb, Nat.pow_succ, ← Nat.mul_assoc, Nat.mul_add_mod_self_right]
  rw [BinaryFormat.Prefers, BinaryFormat.value_add hle hlow, hdist, hparity]
  by_cases hmultiple : t = 0 ∨ (t + 1) * 2 ^ f.fractionBits ≤ p'
  · -- the values from this scale on are multiples of its unit
    obtain ⟨j, hj⟩ := BinaryFormat.exists_multiple hmultiple
    have hjn : j ≠ n := by
      rintro rfl
      refine hne (f.units_strictMono.injective ?_)
      rw [hj, BinaryFormat.units_add hle hlow]
    rw [BinaryFormat.value, hj, Datum.scaled_shiftLeft, hdist]
    rcases h.nearest hjn with hlt | ⟨heq, heven⟩
    · exact .inl (mul_lt_mul_of_pos_right hlt hunit)
    · exact .inr ⟨by rw [heq], heven⟩
  · -- what is below is farther away than the least value of the scale
    obtain ⟨ht, hbelow⟩ := not_or.mp hmultiple
    have hx := hx.resolve_left ht
    have hp' : p' < t * 2 ^ f.fractionBits + 2 ^ f.fractionBits := by
      rw [← Nat.succ_mul]
      exact Nat.lt_of_not_le hbelow
    have hlt := f.value_strictMono hp'
    rw [BinaryFormat.value_add (by omega) (.inr (Nat.le_refl _))] at hlt
    have hfull : scaled (2 ^ f.fractionBits) (f.leastScale + t) ≤ x * 2 ^ (f.leastScale + t) :=
      mul_le_mul_of_nonneg_right hx hunit.le
    left
    calc |(n : ℚ) - x| * 2 ^ (f.leastScale + t)
        ≤ |((2 ^ f.fractionBits : Nat) : ℚ) - x| * 2 ^ (f.leastScale + t) :=
          mul_le_mul_of_nonneg_right (h.error_le _) hunit.le
      _ = x * 2 ^ (f.leastScale + t) - scaled (2 ^ f.fractionBits) (f.leastScale + t) := by
          rw [← hdist, abs_sub_comm, abs_of_nonneg (sub_nonneg.mpr hfull)]
      _ < x * 2 ^ (f.leastScale + t) - f.value p' := sub_lt_sub_left hlt _
      _ = |f.value p' - x * 2 ^ (f.leastScale + t)| := by
          rw [abs_sub_comm, abs_of_pos (sub_pos.mpr (lt_of_lt_of_le hlt hfull))]

end NearestEven

namespace Binary

variable {f : BinaryFormat}

/-- **The pattern that a number is rounded to before it is cut off at infinity** is preferred to
all others. -/
theorem exists_preferred (hf : 0 < f.fractionBits) {m : Nat} (hm : m ≠ 0) (q : Int) (s : Bool) :
    ∃ p, roundFinite f s m q = signed f s (Min.min p f.infinityBits) ∧
      ∀ p', p' ≠ p → f.Prefers (scaled m q) p p' := by
  obtain ⟨t, ht⟩ : ∃ t : Nat, Max.max f.leastScale (q + (Nat.log2 m : Int) - f.fractionBits) =
      f.leastScale + t := ⟨(Max.max f.leastScale (q + (Nat.log2 m : Int) - f.fractionBits) -
        f.leastScale).toNat, by omega⟩
  -- `x` is the number in units of the scale of the result
  obtain ⟨x, hx⟩ : ∃ x, x = scaled m (q - (f.leastScale + t)) := ⟨_, rfl⟩
  have hnearest := nearestEven_rescale m (q - (f.leastScale + t))
  rw [← hx, neg_sub] at hnearest
  have hvalue : scaled m q = x * 2 ^ (f.leastScale + t) := by
    rw [hx, scaled, scaled, mul_assoc, ← zpow_add₀ two_ne_zero, sub_add_cancel]
  have hbits : ((2 ^ f.fractionBits : Nat) : ℚ) = 2 ^ (f.fractionBits : Int) := by
    rw [zpow_natCast]
    push_cast
    rfl
  have hlow : t = 0 ∨ ((2 ^ f.fractionBits : Nat) : ℚ) ≤ x := by
    rcases Nat.eq_zero_or_pos t with hzero | hpos
    · exact .inl hzero
    · rw [hx, hbits]
      exact .inr (Datum.le_scaled hm (by omega))
  have hhigh : x < (2 * 2 ^ f.fractionBits : Nat) := by
    have hlt : scaled m (q - (f.leastScale + t)) < 2 ^ ((f.fractionBits : Int) + 1) :=
      Datum.scaled_lt (by omega)
    rw [zpow_add₀ two_ne_zero, zpow_one, ← hbits, ← hx] at hlt
    rw [Nat.cast_mul, Nat.cast_ofNat]
    linarith
  have hscale : (f.leastScale + t - f.leastScale).toNat = t := by omega
  have hside : f.leastScale + t ≤ q ↔ 0 ≤ q - (f.leastScale + t) := sub_nonneg.symm
  refine ⟨t * 2 ^ f.fractionBits +
    (if 0 ≤ q - (f.leastScale + t) then m <<< (q - (f.leastScale + t)).toNat
      else roundShift m (f.leastScale + t - q).toNat), ?_, fun p' hne => ?_⟩
  · rw [roundFinite, if_neg hm]
    simp only [ht, hscale, hside]
    rw [Nat.shiftLeft_eq t]
  · rw [hvalue]
    exact hnearest.prefers hf (hnearest.le_of_lt hhigh) hlow hne

/-- Cutting off at a last pattern leaves the one that is preferred to all others up to there. -/
theorem prefers_min {r : ℚ} {p last : Nat} (h : ∀ p', p' ≠ p → f.Prefers r p p') :
    ∀ p' ≤ last, p' ≠ Min.min p last → f.Prefers r (Min.min p last) p' := by
  intro p' hle hne
  rcases Nat.le_total p last with hp | hp
  · rw [Nat.min_eq_left hp] at hne ⊢
    exact h p' hne
  rw [Nat.min_eq_right hp] at hne ⊢
  rcases Nat.lt_or_eq_of_le hp with hp | rfl
  · -- the number is above the last value, and all others are farther below it
    have hlast := f.value_strictMono hp
    have hp' := f.value_strictMono (Nat.lt_of_le_of_ne hle hne)
    have habove : f.value last < r := by
      by_contra hnot
      have hr := not_lt.mp hnot
      have hfar : |f.value last - r| < |f.value p - r| := by
        rw [abs_of_nonneg (sub_nonneg.mpr hr), abs_of_nonneg (by linarith)]
        linarith
      rcases h last (Nat.ne_of_lt hp) with hlt | ⟨heq, -⟩ <;> linarith
    left
    rw [abs_of_neg (sub_neg.mpr habove), abs_of_neg (by linarith)]
    linarith
  · exact h p' hne

/-- **What a significand at a scale rounds to** is the pattern preferred to all others that are
not NaNs. -/
theorem exists_nearest (hf : 0 < f.fractionBits) (s : Bool) (m : Nat) (q : Int) :
    ∃ p ≤ f.infinityBits, roundFinite f s m q = signed f s p ∧
      ∀ p' ≤ f.infinityBits, p' ≠ p → f.Prefers (scaled m q) p p' := by
  by_cases hm : m = 0
  · refine ⟨0, Nat.zero_le _, by rw [roundFinite, if_pos hm], fun p' _ hne => .inl ?_⟩
    have hpos := f.value_strictMono (Nat.pos_of_ne_zero hne)
    rw [f.value_zero] at hpos ⊢
    rw [hm, Datum.scaled_zero, sub_zero, sub_zero, abs_zero]
    exact abs_pos_of_pos hpos
  · obtain ⟨p, hround, hprefers⟩ := exists_preferred hf hm q s
    exact ⟨Min.min p f.infinityBits, Nat.min_le_right _ _, hround, prefers_min hprefers⟩

end Binary

end SystolicGemm
