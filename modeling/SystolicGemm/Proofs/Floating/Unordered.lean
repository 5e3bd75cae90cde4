import SystolicGemm.Proofs.Floating.Widening

/-!
# Where NaNs come from

A NaN compares with nothing, so a comparison says something only where its sides are
numbers. Rounding makes no NaN of a number: the difference of two values is a NaN only
if one of them is or if both are the same infinity, and a product with a finite number
other than zero only if the other factor is.
-/

namespace SystolicGemm

namespace Datum

variable {a b : Datum}

theorem addFinite_ne_nan (s : Bool) (m : Nat) (p : Int) (t : Bool) (n : Nat) (q : Int) :
    addFinite s m p t n q ≠ .nan := by
  unfold addFinite
  simp only []
  split <;> exact fun h => by cases h

theorem add_neg_eq_nan_iff : a.add b.neg = .nan ↔
    a = .nan ∨ b = .nan ∨ ∃ s, a = .infinite s ∧ b = .infinite s := by
  cases a with
  | nan => simp [add]
  | infinite s =>
    cases b with
    | nan => simp [add, neg]
    | infinite t => cases s <;> cases t <;> simp [add, neg]
    | finite t n q => simp [add, neg]
  | finite s m p =>
    cases b with
    | nan => simp [add, neg]
    | infinite t => simp [add, neg]
    | finite t n q => simp [add, neg, addFinite_ne_nan]

theorem finite_mul_ne_nan {s : Bool} {m : Nat} {q : Int} (hm : m ≠ 0) (hb : b ≠ .nan) :
    (finite s m q).mul b ≠ .nan := by
  cases b with
  | nan => exact absurd rfl hb
  | infinite t => simp [mul, hm]
  | finite t n p => simp [mul]

theorem mul_finite_ne_nan {s : Bool} {m : Nat} {q : Int} (ha : a ≠ .nan) (hm : m ≠ 0) :
    a.mul (finite s m q) ≠ .nan := by
  cases a with
  | nan => exact absurd rfl ha
  | infinite t => simp [mul, hm]
  | finite t n p => simp [mul]

end Datum

namespace Binary

variable {f g : BinaryFormat} {x y : Binary f}

theorem datum_eq_nan_iff : x.datum = .nan ↔ x.isNaN = true := by
  unfold datum isNaN
  simp only []
  split
  · split <;> simp_all
  · split <;> simp_all

theorem datum_ne_nan (hx : x.isNaN = false) : x.datum ≠ .nan := fun h => by
  rw [datum_eq_nan_iff.mp h] at hx
  cases hx

/-! ## Comparisons -/

theorem lt_of_isNaN_right (hy : y.isNaN = true) : x.lt y = false := by
  rw [lt, datum_eq_nan_iff.mpr hy]
  cases x.datum <;> rfl

/-- Whether one number is at most another. A NaN is at most nothing. -/
def AtMost (x y : Binary f) : Prop := x.isNaN = false ∧ y.isNaN = false ∧ y.lt x = false

instance (x y : Binary f) : Decidable (x.AtMost y) := inferInstanceAs (Decidable (_ ∧ _))

/-! ## Results -/

theorem isNaN_round {d : Datum} (hd : d ≠ .nan) : (round f d).isNaN = false := by
  cases d with
  | nan => exact absurd rfl hd
  | infinite s => exact isNaN_signed (Nat.le_refl _)
  | finite s m q =>
    show (roundFinite f s m q).isNaN = false
    rw [roundFinite_eq_signed]
    exact isNaN_signed (regular_roundFinite f m q)

theorem isNaN_quietNaN (hpos : 0 < f.fractionBits) : (quietNaN f).isNaN = true := by
  have hquiet : 2 ^ (f.fractionBits - 1) < 2 ^ f.fractionBits :=
    Nat.pow_lt_pow_right Nat.one_lt_two (Nat.sub_lt hpos Nat.one_pos)
  have hsigned : quietNaN f = signed f false (f.infinityBits + 2 ^ (f.fractionBits - 1)) := by
    rw [quietNaN, Nat.one_shiftLeft]
    rfl
  rw [hsigned, isNaN_iff, magnitude_signed (infinityBits_add_lt hquiet)]
  have hbit := Nat.two_pow_pos (f.fractionBits - 1)
  omega

theorem isNaN_abs (x : Binary f) : x.abs.isNaN = x.isNaN := by
  have habs : x.abs = signed f false x.magnitude := by
    rw [abs, Nat.one_shiftLeft]
    rfl
  rw [Bool.eq_iff_iff, isNaN_iff, isNaN_iff, habs, magnitude_signed x.magnitude_lt]

/-- **A difference is a NaN** only if a side is, or if both are the same infinity. -/
theorem isNaN_sub_iff (hpos : 0 < f.fractionBits) : (x - y).isNaN = true ↔
    x.isNaN = true ∨ y.isNaN = true ∨ ∃ s, x.datum = .infinite s ∧ y.datum = .infinite s := by
  have hsub : x - y = round f (x.datum.add y.datum.neg) := rfl
  rw [hsub, ← datum_eq_nan_iff (x := x), ← datum_eq_nan_iff (x := y),
    ← Datum.add_neg_eq_nan_iff]
  constructor
  · intro h
    by_cases hnan : x.datum.add y.datum.neg = .nan
    · exact hnan
    · rw [isNaN_round hnan] at h
      cases h
  · intro h
    rw [h]
    exact isNaN_quietNaN hpos

theorem isNaN_mul_finite (hx : x.isNaN = false) {s : Bool} {m : Nat} {q : Int}
    (hy : y.datum = .finite s m q) (hm : m ≠ 0) : (x * y).isNaN = false := by
  refine isNaN_round ?_
  rw [hy]
  exact Datum.mul_finite_ne_nan (datum_ne_nan hx) hm

theorem isNaN_finite_mul {s : Bool} {m : Nat} {q : Int} (hx : x.datum = .finite s m q)
    (hm : m ≠ 0) (hy : y.isNaN = false) : (x * y).isNaN = false := by
  refine isNaN_round ?_
  rw [hx]
  exact Datum.finite_mul_ne_nan hm (datum_ne_nan hy)

/-- The larger of two values is a number if the second one is. -/
theorem isNaN_max (hy : y.isNaN = false) : (x.max y).isNaN = false := by
  unfold max
  split
  · exact hy
  · next hx =>
    split
    · exact Bool.eq_false_iff.mpr hx
    · split
      · exact hy
      · exact Bool.eq_false_iff.mpr hx

/-! ## Infinities in a wider format -/

theorem isNaN_convert_of_number (hx : x.isNaN = false) (g : BinaryFormat) :
    (x.convert g).isNaN = false := by
  rw [convert_of_number hx]
  exact isNaN_round (datum_ne_nan hx)

theorem datum_infinite_iff {s : Bool} :
    x.datum = .infinite s ↔ x = signed f s f.infinityBits := by
  constructor
  · intro h
    have hsplit := Nat.div_add_mod' x.magnitude (2 ^ f.fractionBits)
    rw [magnitude_div, magnitude_mod] at hsplit
    unfold datum at h
    simp only [] at h
    split at h
    · next hexponent =>
      split at h
      · next hfraction =>
        injection h with hsign
        rw [hexponent, hfraction, Nat.add_zero, ← Nat.shiftLeft_eq] at hsplit
        have hmagnitude : x.magnitude = f.infinityBits := hsplit.symm
        rw [← hsign, ← hmagnitude, signed_magnitude]
      · cases h
    · split at h <;> cases h
  · intro h
    rw [h, datum_signed s f.infinityBits_lt,
      (regular_signed (Nat.le_refl _)).datum_infinity (toBits_signed (Nat.le_refl _))]
    rfl

/-- **Infinities are those of the format that is widened.** -/
theorem datum_convert_infinite_iff (h : f.Embeds g) (hx : x.isNaN = false) {s : Bool} :
    (x.convert g).datum = .infinite s ↔ x.datum = .infinite s := by
  constructor
  · intro hwide
    have hback : round f (x.convert g).datum = x := by
      rw [← convert_of_number (isNaN_convert_of_number hx g), convert_convert h, convert_self hx]
    rw [hwide] at hback
    exact datum_infinite_iff.mpr hback.symm
  · intro hinf
    rw [convert_of_number hx, hinf]
    exact datum_infinite_iff.mpr rfl

end Binary

end SystolicGemm
