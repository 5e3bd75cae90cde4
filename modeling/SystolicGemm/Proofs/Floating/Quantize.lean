import SystolicGemm.Element
import SystolicGemm.Proofs.Floating.Clock

/-!
# Values in and out of an element format

An element's bytes are its bit pattern, so what was encoded decodes to the value that the
format holds for it. A NaN is a NaN in every format: its pattern without the sign comes
after that of infinity, and converting it sets the highest fraction bit, which even the
one-byte format keeps.
-/

namespace SystolicGemm

namespace Binary

variable {f g : BinaryFormat} {x : Binary f}

/-! ## NaNs by their patterns -/

/-- The pattern without its sign. -/
def magnitude (x : Binary f) : Nat := x.toBits % 2 ^ (f.exponentBits + f.fractionBits)

theorem magnitude_div (x : Binary f) : x.magnitude / 2 ^ f.fractionBits = x.exponentField := by
  rw [magnitude, exponentField, Nat.add_comm, Nat.pow_add, Nat.mod_mul_right_div_self,
    Nat.shiftRight_eq_div_pow, Nat.one_shiftLeft]

theorem magnitude_mod (x : Binary f) : x.magnitude % 2 ^ f.fractionBits = x.fractionField := by
  rw [magnitude, fractionField, Nat.add_comm, Nat.pow_add, Nat.mod_mul_right_mod,
    Nat.one_shiftLeft]

theorem fractionField_lt (x : Binary f) : x.fractionField < 2 ^ f.fractionBits := by
  rw [fractionField, Nat.one_shiftLeft]
  exact Nat.mod_lt _ (Nat.two_pow_pos _)

/-- **The NaNs come after infinity.** -/
theorem isNaN_iff : x.isNaN = true ↔ f.infinityBits < x.magnitude := by
  have hsplit := Nat.div_add_mod' x.magnitude (2 ^ f.fractionBits)
  have hfraction := Nat.mod_lt x.magnitude (Nat.two_pow_pos f.fractionBits)
  have htop : x.exponentField ≤ f.topExponent := by
    have hlt : x.exponentField < 2 ^ f.exponentBits := by
      rw [exponentField, Nat.one_shiftLeft]
      exact Nat.mod_lt _ (Nat.two_pow_pos _)
    rw [BinaryFormat.topExponent, Nat.one_shiftLeft]
    exact Nat.le_sub_one_of_lt hlt
  rw [magnitude_div, magnitude_mod] at hsplit
  rw [magnitude_mod] at hfraction
  rw [isNaN, Bool.and_eq_true, beq_iff_eq, bne_iff_ne, BinaryFormat.infinityBits,
    Nat.shiftLeft_eq]
  constructor
  · rintro ⟨hexponent, hne⟩
    rw [← hsplit, hexponent]
    omega
  · intro hlt
    rcases Nat.lt_or_eq_of_le htop with hbelow | hexponent
    · -- a smaller exponent field leaves no room above infinity
      have hmul := Nat.mul_le_mul_right (2 ^ f.fractionBits) (Nat.succ_le_of_lt hbelow)
      rw [Nat.succ_mul] at hmul
      omega
    · refine ⟨hexponent, ?_⟩
      rw [hexponent] at hsplit
      omega

theorem isNaN_eq_false_iff : x.isNaN = false ↔ x.magnitude ≤ f.infinityBits := by
  rw [← Bool.not_eq_true, isNaN_iff, Nat.not_lt]

theorem magnitude_signed {s : Bool} {m : Nat} (hm : m < 2 ^ (f.exponentBits + f.fractionBits)) :
    (signed f s m).magnitude = m := by
  have hwidth : f.width = 1 + (f.exponentBits + f.fractionBits) := by
    rw [BinaryFormat.width, Nat.add_assoc]
  rw [magnitude, signed, toBits_ofBits, Nat.one_shiftLeft, Nat.one_shiftLeft, hwidth,
    Nat.add_comm 1, Nat.pow_succ, Nat.mod_mul_right_mod]
  split
  · rw [Nat.add_mod_left, Nat.mod_eq_of_lt hm]
  · exact Nat.mod_eq_of_lt hm

/-- What is above infinity by at most a fraction is a pattern without a sign. -/
theorem infinityBits_add_lt {m : Nat} (hm : m < 2 ^ f.fractionBits) :
    f.infinityBits + m < 2 ^ (f.exponentBits + f.fractionBits) := by
  have hpos := Nat.two_pow_pos f.exponentBits
  rw [BinaryFormat.infinityBits, BinaryFormat.topExponent, Nat.one_shiftLeft, Nat.shiftLeft_eq,
    Nat.pow_add]
  calc (2 ^ f.exponentBits - 1) * 2 ^ f.fractionBits + m
      < (2 ^ f.exponentBits - 1) * 2 ^ f.fractionBits + 2 ^ f.fractionBits :=
        Nat.add_lt_add_left hm _
    _ = 2 ^ f.exponentBits * 2 ^ f.fractionBits := by
        rw [← Nat.succ_mul, Nat.succ_eq_add_one, Nat.sub_add_cancel hpos]

/-- A NaN that is converted has the highest fraction bit set. -/
theorem quiet_convert (hx : x.isNaN = true) (hg : 0 < g.fractionBits) :
    g.infinityBits + 2 ^ (g.fractionBits - 1) ≤ (x.convert g).magnitude := by
  have hquiet : 2 ^ (g.fractionBits - 1) < 2 ^ g.fractionBits :=
    Nat.pow_lt_pow_right Nat.one_lt_two (Nat.sub_lt hg Nat.one_pos)
  have hfraction := x.fractionField_lt
  rw [convert, if_pos hx]
  simp only []
  generalize hp : (if g.fractionBits ≤ f.fractionBits then
    x.fractionField >>> (f.fractionBits - g.fractionBits)
    else x.fractionField <<< (g.fractionBits - f.fractionBits)) = payload
  have hpayload : payload < 2 ^ g.fractionBits := by
    rw [← hp]
    split
    · next hle =>
      rw [Nat.shiftRight_eq_div_pow, Nat.div_lt_iff_lt_mul (Nat.two_pow_pos _), ← Nat.pow_add,
        Nat.add_sub_cancel' hle]
      exact hfraction
    · next hgt =>
      have hle := Nat.le_of_lt (Nat.lt_of_not_le hgt)
      rw [Nat.shiftLeft_eq]
      calc x.fractionField * 2 ^ (g.fractionBits - f.fractionBits)
          < 2 ^ f.fractionBits * 2 ^ (g.fractionBits - f.fractionBits) :=
            Nat.mul_lt_mul_of_pos_right hfraction (Nat.two_pow_pos _)
        _ = 2 ^ g.fractionBits := by rw [← Nat.pow_add, Nat.add_sub_cancel' hle]
  rw [Nat.one_shiftLeft, magnitude_signed (infinityBits_add_lt (Nat.or_lt_two_pow hpayload hquiet))]
  exact Nat.add_le_add_left Nat.right_le_or _

theorem isNaN_convert (hx : x.isNaN = true) (hg : 0 < g.fractionBits) :
    (x.convert g).isNaN = true := by
  have hquiet := quiet_convert hx hg
  have hpos := Nat.two_pow_pos (g.fractionBits - 1)
  exact isNaN_iff.mpr (by omega)

end Binary

namespace Element

variable {e : Element}

/-! ## Patterns and bytes -/

theorem bytes_pos (e : Element) : 0 < e.bytes := by cases e <;> decide

theorem pattern_lt (e : Element) (v : Single) : e.pattern v < 1 <<< (8 * e.bytes) := by
  cases e with
  | fp8 =>
    have hlt : (v.convert .half).toBits < 65536 := Binary.toBits_lt _
    show (v.convert .half).toBits / 256 < 256
    omega
  | fp16 => exact Binary.toBits_lt _
  | fp32 => exact Binary.toBits_lt _

/-- **What was stored is read back as the format holds it.** -/
theorem decode_encode (e : Element) (v : Single) : e.decode (e.encode v) = e.quantize v := by
  have htake : (e.encode v).take e.bytes = e.encode v :=
    List.take_of_length_le (Nat.le_of_eq (length_encode e v))
  rw [decode, htake, encode, littleEndian_toLittleEndian, Nat.mod_eq_of_lt (pattern_lt e v),
    quantize]

/-- **A NaN stays one**, also without the low byte of its pattern. -/
theorem isNaN_quantize {v : Single} (hv : v.isNaN = true) : (e.quantize v).isNaN = true := by
  cases e with
  | fp32 =>
    show (Binary.ofBits .single v.toBits).isNaN = true
    rw [Binary.ofBits_toBits]
    exact hv
  | fp16 =>
    show ((Binary.ofBits .half (v.convert .half).toBits).convert .single).isNaN = true
    rw [Binary.ofBits_toBits]
    exact Binary.isNaN_convert (Binary.isNaN_convert hv (by decide)) (by decide)
  | fp8 =>
    have hquiet : 32256 ≤ (v.convert .half).toBits % 32768 :=
      Binary.quiet_convert (g := .half) hv (by decide)
    refine Binary.isNaN_convert (Binary.isNaN_iff.mpr ?_) (by decide)
    rw [Binary.magnitude, Binary.toBits_ofBits]
    show 31744 < (v.convert .half).toBits / 256 * 256 % 65536 % 32768
    omega

end Element

end SystolicGemm
