import SystolicGemm.Proofs.Floating.Quantize

/-!
# Conversions that lose nothing

A format embeds in another that keeps its fractions, its least scale and its greatest
finite values. There a value denotes the same number as before, perhaps with its
significand shifted, and a number rounds to the same value however far its significand
is shifted: so a value that is widened and narrowed again is the value it was
(`convert_convert`). A NaN comes back quiet, and so does one that is converted to its
own format.
-/

namespace SystolicGemm

/-- Whether a format holds all values of another. -/
structure BinaryFormat.Embeds (f g : BinaryFormat) : Prop where
  fraction_pos : 0 < f.fractionBits
  fraction : f.fractionBits ≤ g.fractionBits
  least : g.leastScale ≤ f.leastScale
  /-- The greatest finite values have their leading bit below these. -/
  greatest : f.leastScale + f.topExponent + f.fractionBits ≤
    g.leastScale + g.topExponent + g.fractionBits
  two_le_top : 2 ≤ g.topExponent

theorem BinaryFormat.half_embeds_single : half.Embeds single where
  fraction_pos := by decide
  fraction := by decide
  least := by decide
  greatest := by decide
  two_le_top := by decide

/-- The datum with another sign. -/
def Datum.withSign (s : Bool) : Datum → Datum
  | .nan => .nan
  | .infinite _ => .infinite s
  | .finite _ m q => .finite s m q

namespace Binary

variable {f g : BinaryFormat} {x : Binary f} {m : Nat}

/-! ## Signs -/

theorem magnitude_lt (x : Binary f) : x.magnitude < 2 ^ (f.exponentBits + f.fractionBits) :=
  Nat.mod_lt _ (Nat.two_pow_pos _)

/-- A pattern is its sign over its magnitude. -/
theorem signed_magnitude (x : Binary f) : signed f x.negative x.magnitude = x := by
  have hwidth : f.width = f.exponentBits + f.fractionBits + 1 := by
    rw [BinaryFormat.width]
    omega
  have hlt := x.toBits_lt
  rw [Nat.one_shiftLeft, hwidth, Nat.pow_succ] at hlt
  have hdiv := Nat.div_add_mod x.toBits (2 ^ (f.exponentBits + f.fractionBits))
  have hbits : (if x.negative then 1 <<< (f.exponentBits + f.fractionBits) + x.magnitude
      else x.magnitude) = x.toBits := by
    rw [negative, Nat.testBit_eq_decide_div_mod_eq, Nat.one_shiftLeft, magnitude]
    have hquotient : x.toBits / 2 ^ (f.exponentBits + f.fractionBits) < 2 :=
      (Nat.div_lt_iff_lt_mul (Nat.two_pow_pos _)).mpr (Nat.mul_comm .. ▸ hlt)
    rcases Nat.lt_succ_iff_lt_or_eq.mp hquotient with hzero | hone
    · rw [Nat.lt_one_iff.mp hzero] at hdiv ⊢
      simpa using hdiv
    · rw [hone] at hdiv ⊢
      simpa using hdiv
  rw [signed, hbits, ofBits_toBits]

theorem negative_signed {s : Bool} (hm : m < 2 ^ (f.exponentBits + f.fractionBits)) :
    (signed f s m).negative = s := by
  have hwidth : f.width = f.exponentBits + f.fractionBits + 1 := by
    rw [BinaryFormat.width]
    omega
  rw [negative, signed, toBits_ofBits, Nat.one_shiftLeft, Nat.one_shiftLeft, hwidth, Nat.pow_succ]
  cases s
  · rw [if_neg Bool.false_ne_true, Nat.mod_eq_of_lt (by omega)]
    exact Nat.testBit_lt_two_pow hm
  · rw [if_pos rfl, Nat.mod_eq_of_lt (by omega), Nat.testBit_two_pow_add_eq,
      Nat.testBit_lt_two_pow hm, Bool.not_false]

theorem exponentField_signed {s : Bool} (hm : m < 2 ^ (f.exponentBits + f.fractionBits)) :
    (signed f s m).exponentField = m / 2 ^ f.fractionBits := by
  rw [← magnitude_div, magnitude_signed hm]

theorem fractionField_signed {s : Bool} (hm : m < 2 ^ (f.exponentBits + f.fractionBits)) :
    (signed f s m).fractionField = m % 2 ^ f.fractionBits := by
  rw [← magnitude_mod, magnitude_signed hm]

/-- The sign of a pattern is the sign of what it denotes. -/
theorem datum_signed (s : Bool) (hm : m < 2 ^ (f.exponentBits + f.fractionBits)) :
    (signed f s m).datum = (signed f false m).datum.withSign s := by
  simp only [datum, exponentField_signed hm, fractionField_signed hm, negative_signed hm]
  split
  · split <;> rfl
  · split <;> rfl

/-! ## Numbers -/

theorem isNaN_signed {s : Bool} (hm : m ≤ f.infinityBits) : (signed f s m).isNaN = false := by
  rw [isNaN_eq_false_iff, magnitude_signed (Nat.lt_of_le_of_lt hm f.infinityBits_lt)]
  exact hm

theorem Regular.isNaN (hx : x.Regular) : x.isNaN = false := by
  rw [← x.signed_toBits]
  exact isNaN_signed hx

theorem convert_of_number (hx : x.isNaN = false) (g : BinaryFormat) :
    x.convert g = round g x.datum := by
  rw [convert, if_neg (Bool.eq_false_iff.mp hx)]

theorem Regular.convert (hx : x.Regular) (g : BinaryFormat) : (x.convert g).Regular := by
  rw [convert_of_number hx.isNaN]
  rcases hx.cases_datum with ⟨-, hd⟩ | ⟨-, m, q, hd⟩
  · rw [hd]
    exact regular_signed (Nat.le_refl _)
  · rw [hd]
    exact regular_roundFinite g m q

theorem roundFinite_eq_signed (f : BinaryFormat) (s : Bool) (m : Nat) (q : Int) :
    roundFinite f s m q = signed f s (roundFinite f false m q).toBits := by
  unfold roundFinite
  split
  · rw [toBits_signed (Nat.zero_le _)]
  · rw [toBits_signed (Nat.min_le_right _ _)]

/-- The sign of a number goes over to what it is converted to. -/
theorem convert_signed (s : Bool) (hm : m ≤ f.infinityBits) (g : BinaryFormat) :
    (signed f s m).convert g = signed g s ((signed f false m).convert g).toBits := by
  rw [convert_of_number (isNaN_signed hm), convert_of_number (isNaN_signed hm),
    datum_signed s (Nat.lt_of_le_of_lt hm f.infinityBits_lt)]
  rcases (regular_signed hm).cases_datum with ⟨-, hd⟩ | ⟨-, n, q, hd⟩
  · rw [hd]
    show signed g s g.infinityBits = signed g s (signed g false g.infinityBits).toBits
    rw [toBits_signed (Nat.le_refl _)]
  · rw [hd]
    exact roundFinite_eq_signed g s n q

/-- The scale of a finite value and the place of its leading bit are within the format. -/
theorem Regular.bounds (hx : x.Regular) {q : Int} (hd : x.datum = .finite false m q)
    (hne : m ≠ 0) : f.leastScale ≤ q ∧ Nat.log2 m ≤ f.fractionBits ∧
      q + Nat.log2 m + 2 ≤ f.leastScale + f.topExponent + f.fractionBits := by
  have hpos := Nat.two_pow_pos f.fractionBits
  have hlt : x.toBits < f.infinityBits := by
    rcases hx.cases_datum with ⟨-, hinf⟩ | ⟨hlt, -⟩
    · rw [hinf] at hd
      cases hd
    · exact hlt
  have htop : x.toBits / 2 ^ f.fractionBits < f.topExponent := by
    rw [Nat.div_lt_iff_lt_mul hpos, ← Nat.shiftLeft_eq]
    exact hlt
  rw [hx.datum_finite hlt] at hd
  split at hd
  · next hsmall =>
    injection hd with _ hm hq
    have hlog : Nat.log2 m < f.fractionBits := (Nat.log2_lt hne).mpr (hm ▸ hsmall)
    have hzero := Nat.zero_lt_of_lt htop
    omega
  · next hlarge =>
    injection hd with _ hm hq
    have hone := (Nat.one_le_div_iff hpos).mpr (Nat.le_of_not_lt hlarge)
    have hmod := Nat.mod_lt x.toBits hpos
    have hlog : Nat.log2 m < f.fractionBits + 1 := by
      rw [Nat.log2_lt hne, Nat.pow_succ]
      omega
    omega

theorem Regular.convert_self (hx : x.Regular) : x.convert f = x := by
  rw [convert_of_number hx.isNaN]
  rcases hx.cases_datum with ⟨hbits, hd⟩ | ⟨-, m, q, hd⟩
  · rw [hd]
    show signed f false f.infinityBits = x
    rw [← hbits, signed_toBits]
  · have hround := hx.roundFinite_shiftLeft (k := 0) hd
    rw [Nat.shiftLeft_zero, Int.ofNat_zero, Int.sub_zero] at hround
    rw [hd]
    exact hround

/-- A number that is not negative comes back from a format that holds it. -/
theorem Regular.convert_convert (hx : x.Regular) (h : f.Embeds g) :
    (x.convert g).convert f = x := by
  have htwo := h.two_le_top
  rw [convert_of_number (hx.convert g).isNaN, convert_of_number hx.isNaN]
  rcases hx.cases_datum with ⟨hbits, hd⟩ | ⟨-, m, q, hd⟩
  · rw [hd]
    show round f (signed g false g.infinityBits).datum = x
    rw [(regular_signed (Nat.le_refl _)).datum_infinity (toBits_signed (Nat.le_refl _))]
    show signed f false f.infinityBits = x
    rw [← hbits, signed_toBits]
  · rw [hd]
    show round f (roundFinite g false m q).datum = x
    by_cases hzero : m = 0
    · -- zero is at the least scale of either format
      have hx0 := hx.roundFinite_shiftLeft (k := 0) hd
      rw [hzero, Nat.zero_shiftLeft, roundFinite, if_pos rfl] at hx0
      have hbits : (signed g false 0).toBits = 0 := toBits_signed (Nat.zero_le _)
      have hpos : 0 < g.infinityBits := by
        rw [BinaryFormat.infinityBits, Nat.shiftLeft_eq]
        exact Nat.mul_pos (by omega) (Nat.two_pow_pos _)
      rw [hzero, roundFinite, if_pos rfl,
        (regular_signed (Nat.zero_le _)).datum_finite (hbits.symm ▸ hpos), hbits,
        if_pos (Nat.two_pow_pos _), ← hx0]
      rfl
    · obtain ⟨hleast, hlog, hgreatest⟩ := hx.bounds hd hzero
      have hfraction := h.fraction
      have hleast' := h.least
      have hgreatest' := h.greatest
      obtain ⟨k, hk⟩ : ∃ k : Nat,
          Max.max g.leastScale (q + (Nat.log2 m : Int) - g.fractionBits) = q - k :=
        ⟨(q - Max.max g.leastScale (q + (Nat.log2 m : Int) - g.fractionBits)).toNat, by omega⟩
      rw [datum_roundFinite hzero hk (by omega)]
      exact hx.roundFinite_shiftLeft hd

/-! ## NaNs -/

/-- The highest bit of a fraction set. -/
def quieted (f : BinaryFormat) (fraction : Nat) : Nat := fraction ||| 2 ^ (f.fractionBits - 1)

theorem quieted_lt (hpos : 0 < f.fractionBits) (hm : m < 2 ^ f.fractionBits) :
    quieted f m < 2 ^ f.fractionBits :=
  Nat.or_lt_two_pow hm (Nat.pow_lt_pow_right Nat.one_lt_two (Nat.sub_lt hpos Nat.one_pos))

theorem quieted_quieted (f : BinaryFormat) (m : Nat) : quieted f (quieted f m) = quieted f m := by
  rw [quieted, quieted, Nat.or_assoc, Nat.or_self]

/-- Where a format is widened, its highest fraction bit becomes the highest one. -/
theorem quieted_shiftLeft (h : f.Embeds g) (m : Nat) :
    quieted g (m <<< (g.fractionBits - f.fractionBits)) =
      quieted f m <<< (g.fractionBits - f.fractionBits) := by
  have hpos := h.fraction_pos
  have hle := h.fraction
  have hpow : 2 ^ (f.fractionBits - 1) <<< (g.fractionBits - f.fractionBits) =
      2 ^ (g.fractionBits - 1) := by
    rw [Nat.shiftLeft_eq, ← Nat.pow_add]
    congr 1
    omega
  rw [quieted, quieted, Nat.shiftLeft_or_distrib, hpow]

/-- The NaN of a sign and a fraction, made quiet. -/
def quiet (f : BinaryFormat) (s : Bool) (fraction : Nat) : Binary f :=
  signed f s (f.infinityBits + quieted f fraction)

theorem isNaN_quiet (hpos : 0 < f.fractionBits) (s : Bool) (hm : m < 2 ^ f.fractionBits) :
    (quiet f s m).isNaN = true := by
  rw [isNaN_iff, quiet, magnitude_signed (infinityBits_add_lt (quieted_lt hpos hm))]
  have hbit : 2 ^ (f.fractionBits - 1) ≤ quieted f m := Nat.right_le_or
  have hbit' := Nat.two_pow_pos (f.fractionBits - 1)
  omega

theorem negative_quiet (hpos : 0 < f.fractionBits) (s : Bool) (hm : m < 2 ^ f.fractionBits) :
    (quiet f s m).negative = s :=
  negative_signed (infinityBits_add_lt (quieted_lt hpos hm))

theorem fractionField_quiet (hpos : 0 < f.fractionBits) (s : Bool) (hm : m < 2 ^ f.fractionBits) :
    (quiet f s m).fractionField = quieted f m := by
  have hlt := quieted_lt hpos hm
  rw [quiet, fractionField_signed (infinityBits_add_lt hlt), BinaryFormat.infinityBits,
    Nat.shiftLeft_eq, Nat.mul_comm, Nat.mul_add_mod, Nat.mod_eq_of_lt hlt]

theorem widen_of_isNaN (hx : x.isNaN = true) (hle : f.fractionBits ≤ g.fractionBits) :
    x.convert g =
      quiet g x.negative (x.fractionField <<< (g.fractionBits - f.fractionBits)) := by
  have hpayload : (if g.fractionBits ≤ f.fractionBits then
      x.fractionField >>> (f.fractionBits - g.fractionBits)
      else x.fractionField <<< (g.fractionBits - f.fractionBits)) =
        x.fractionField <<< (g.fractionBits - f.fractionBits) := by
    split
    · rw [show f.fractionBits - g.fractionBits = 0 by omega,
        show g.fractionBits - f.fractionBits = 0 by omega]
      rfl
    · rfl
  rw [convert, if_pos hx]
  simp only [hpayload, Nat.one_shiftLeft]
  rfl

theorem narrow_of_isNaN {y : Binary g} (hy : y.isNaN = true)
    (hle : f.fractionBits ≤ g.fractionBits) :
    y.convert f =
      quiet f y.negative (y.fractionField >>> (g.fractionBits - f.fractionBits)) := by
  rw [convert, if_pos hy]
  simp only [if_pos hle, Nat.one_shiftLeft]
  rfl

theorem quiet_of_isNaN (hx : x.isNaN = true) : x.convert f = quiet f x.negative x.fractionField := by
  rw [narrow_of_isNaN hx (Nat.le_refl _), Nat.sub_self, Nat.shiftRight_zero]

theorem quiet_quieted (f : BinaryFormat) (s : Bool) (m : Nat) :
    quiet f s (quieted f m) = quiet f s m := by
  rw [quiet, quieted_quieted, quiet]

/-- A fraction that is widened fits the wider field. -/
theorem fractionField_shiftLeft_lt (h : f.Embeds g) (x : Binary f) :
    x.fractionField <<< (g.fractionBits - f.fractionBits) < 2 ^ g.fractionBits := by
  have hmul := Nat.mul_lt_mul_of_pos_right x.fractionField_lt
    (Nat.two_pow_pos (g.fractionBits - f.fractionBits))
  rw [← Nat.pow_add, Nat.add_sub_cancel' h.fraction] at hmul
  rwa [Nat.shiftLeft_eq]

/-! ## All patterns -/

/-- **A number is converted to itself** in its own format. -/
theorem convert_self (hx : x.isNaN = false) : x.convert f = x := by
  have hm := isNaN_eq_false_iff.mp hx
  rw [← signed_magnitude x, convert_signed _ hm, (regular_signed hm).convert_self,
    toBits_signed hm]

/-- **What is widened and narrowed again is what it was**, and a NaN is quiet. -/
theorem convert_convert (h : f.Embeds g) (x : Binary f) : (x.convert g).convert f = x.convert f := by
  cases hx : x.isNaN with
  | false =>
    have hm := isNaN_eq_false_iff.mp hx
    have hregular := regular_signed hm
    have hwide := hregular.convert g
    rw [convert_self hx]
    rw [← signed_magnitude x, convert_signed _ hm, convert_signed _ hwide, signed_toBits,
      hregular.convert_convert h, toBits_signed hm]
  | true =>
    have hpos := Nat.lt_of_lt_of_le h.fraction_pos h.fraction
    have hlt := fractionField_shiftLeft_lt h x
    rw [widen_of_isNaN hx h.fraction, narrow_of_isNaN (isNaN_quiet hpos _ hlt) h.fraction,
      negative_quiet hpos _ hlt, fractionField_quiet hpos _ hlt, quieted_shiftLeft h,
      Nat.shiftLeft_shiftRight, quiet_quieted, quiet_of_isNaN hx]

/-- **Making a NaN quiet before it is widened makes no difference.** -/
theorem convert_self_convert (h : f.Embeds g) (x : Binary f) :
    (x.convert f).convert g = x.convert g := by
  cases hx : x.isNaN with
  | false => rw [convert_self hx]
  | true =>
    have hlt := x.fractionField_lt
    rw [quiet_of_isNaN hx, widen_of_isNaN (isNaN_quiet h.fraction_pos _ hlt) h.fraction,
      negative_quiet h.fraction_pos _ hlt, fractionField_quiet h.fraction_pos _ hlt,
      ← quieted_shiftLeft h, quiet_quieted, widen_of_isNaN hx h.fraction]

end Binary

end SystolicGemm
