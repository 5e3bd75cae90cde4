import SystolicGemm.Proofs.Floating.Widening
import SystolicGemm.TileStore

/-!
# Results that storing does not change

The datapath accumulates in single precision, but after each step on a value that its
element format holds. Such a value is one that some pattern of the format stands for
(`quantize_value`), so storing it rounds nothing: the pattern that is written is read
back as the accumulator was, NaNs included.
-/

namespace SystolicGemm.Element

variable {e : Element} {p : Nat}

/-- The pattern of infinity. -/
def infinityPattern : Element → Nat
  | fp8 => 0x7C
  | fp16 => 0x7C00
  | fp32 => 0x7F800000

/-- Whether a pattern is that of a NaN: without its sign it comes after infinity. -/
def NaNPattern (e : Element) (p : Nat) : Prop :=
  e.infinityPattern < p % 2 ^ (8 * e.bytes - 1)

instance (e : Element) (p : Nat) : Decidable (e.NaNPattern p) :=
  inferInstanceAs (Decidable (_ < _))

/-! ## Patterns -/

/-- Making a NaN quiet leaves the low byte of its pattern alone. -/
theorem toBits_convert_half_mod {x : Half} (hx : x.toBits % 256 = 0) :
    (x.convert .half).toBits % 256 = 0 := by
  cases hnan : x.isNaN with
  | false => rw [Binary.convert_self hnan, hx]
  | true =>
    have hfraction : x.fractionField % 256 = 0 := by
      show x.toBits % 1024 % 256 = 0
      omega
    have hquiet : (x.fractionField ||| 512) % 2 ^ 8 = 0 := by
      rw [Nat.or_mod_two_pow, show x.fractionField % 2 ^ 8 = 0 from hfraction]
      rfl
    rw [Binary.quiet_of_isNaN hnan, Binary.quiet, Binary.signed, Binary.toBits_ofBits]
    show (if x.negative then 32768 + (31744 + (x.fractionField ||| 512))
      else 31744 + (x.fractionField ||| 512)) % 65536 % 256 = 0
    split <;> omega

/-- The half precision pattern of a one-byte element. -/
theorem toBits_byte (p : Nat) : (Binary.ofBits .half (p * 256)).toBits = p * 256 % 65536 :=
  Binary.toBits_ofBits ..

/-- **What a pattern stands for is held by the format.** -/
theorem quantize_value (e : Element) (p : Nat) : e.quantize (e.value p) = e.value p := by
  have hembeds := BinaryFormat.half_embeds_single
  cases e with
  | fp32 => exact Binary.ofBits_toBits _
  | fp16 =>
    show (Binary.ofBits .half (((Binary.ofBits .half p).convert .single).convert .half).toBits).convert
      .single = (Binary.ofBits .half p).convert .single
    rw [Binary.ofBits_toBits, Binary.convert_convert hembeds, Binary.convert_self_convert hembeds]
  | fp8 =>
    have hlow : ((Binary.ofBits .half (p * 256)).convert .half).toBits % 256 = 0 := by
      refine toBits_convert_half_mod ?_
      rw [toBits_byte]
      omega
    show (Binary.ofBits .half ((((Binary.ofBits .half (p * 256)).convert .single).convert
      .half).toBits / 256 * 256)).convert .single = (Binary.ofBits .half (p * 256)).convert .single
    rw [Binary.convert_convert hembeds, Nat.div_mul_cancel (Nat.dvd_of_mod_eq_zero hlow),
      Binary.ofBits_toBits, Binary.convert_self_convert hembeds]

/-- **The pattern of a number is the pattern of its value.** -/
theorem pattern_value (hp : p < 2 ^ (8 * e.bytes)) (hnan : ¬ e.NaNPattern p) :
    e.pattern (e.value p) = p := by
  have hembeds := BinaryFormat.half_embeds_single
  cases e with
  | fp32 =>
    show (Binary.ofBits .single p).toBits = p
    rw [Binary.toBits_ofBits, Nat.one_shiftLeft]
    exact Nat.mod_eq_of_lt hp
  | fp16 =>
    have hbits : (Binary.ofBits .half p).toBits = p := by
      rw [Binary.toBits_ofBits, Nat.one_shiftLeft]
      exact Nat.mod_eq_of_lt hp
    have hnumber : (Binary.ofBits .half p).isNaN = false := by
      rw [Binary.isNaN_eq_false_iff, Binary.magnitude, hbits]
      exact Nat.le_of_not_lt hnan
    show (((Binary.ofBits .half p).convert .single).convert .half).toBits = p
    rw [Binary.convert_convert hembeds, Binary.convert_self hnumber, hbits]
  | fp8 =>
    have hbits := toBits_byte p
    have hp' : p < 256 := hp
    have hnumber : (Binary.ofBits .half (p * 256)).isNaN = false := by
      have hnan' : ¬ 124 < p % 128 := hnan
      rw [Binary.isNaN_eq_false_iff, Binary.magnitude, hbits]
      show p * 256 % 65536 % 32768 ≤ 31744
      omega
    show (((Binary.ofBits .half (p * 256)).convert .single).convert .half).toBits / 256 = p
    rw [Binary.convert_convert hembeds, Binary.convert_self hnumber, hbits]
    omega

/-! ## Accumulators -/

theorem quantize_quantize (e : Element) (v : Single) : e.quantize (e.quantize v) = e.quantize v :=
  quantize_value e (e.pattern v)

/-- A chain of accumulation steps from a value that the format holds ends with one. -/
theorem quantize_accumulate {y : Single} (hy : e.quantize y = y) (xs ws : List Single) :
    e.quantize (TileStore.accumulate e y xs ws) = TileStore.accumulate e y xs ws := by
  unfold TileStore.accumulate
  induction xs.zip ws generalizing y with
  | nil => exact hy
  | cons xw rest ih => exact ih (quantize_quantize e _)

theorem lt_of_length {raw : Bytes} (h : raw.length = e.bytes) :
    littleEndian raw < 2 ^ (8 * e.bytes) := by
  have hround := littleEndian_toLittleEndian raw.length (littleEndian raw)
  rw [toLittleEndian_littleEndian, h, Nat.one_shiftLeft] at hround
  rw [hround]
  exact Nat.mod_lt _ (Nat.two_pow_pos _)

/-- **Storing a result never rounds.** The format holds the result of each accumulation step
and what it has rounded before; the bytes of a number are those of its value; and after any
chain of steps from an element, the element that is stored is read as the accumulator, bit
by bit. -/
theorem stored_exactly (e : Element) :
    (∀ acc x w, e.quantize (e.fma acc x w) = e.fma acc x w) ∧
    (∀ v, e.quantize (e.quantize v) = e.quantize v) ∧
    (∀ raw : Bytes, raw.length = e.bytes → ¬ e.NaNPattern (littleEndian raw) →
      e.encode (e.decode raw) = raw) ∧
    ∀ (raw : Bytes) (xs ws : List Single),
      e.decode (e.encode (TileStore.accumulate e (e.decode raw) xs ws)) =
        TileStore.accumulate e (e.decode raw) xs ws := by
  refine ⟨fun acc x w => quantize_quantize e _, quantize_quantize e, ?_, ?_⟩
  · intro raw hlength hnan
    have htake : raw.take e.bytes = raw := List.take_of_length_le (Nat.le_of_eq hlength)
    rw [encode, decode, htake, pattern_value (lt_of_length hlength) hnan, ← hlength,
      toLittleEndian_littleEndian]
  · intro raw xs ws
    rw [decode_encode]
    exact quantize_accumulate (quantize_value e _) xs ws

/-- The least negative number in half precision and the greatest one of the byte format keep
their bytes. -/
theorem stored_exactly_extremes :
    ([0x01, 0x80] : Bytes).length = fp16.bytes ∧ ¬ fp16.NaNPattern (littleEndian [0x01, 0x80]) ∧
    fp16.encode (fp16.decode [0x01, 0x80]) = [0x01, 0x80] ∧
    ([0x7B] : Bytes).length = fp8.bytes ∧ ¬ fp8.NaNPattern (littleEndian [0x7B]) ∧
    fp8.encode (fp8.decode [0x7B]) = [0x7B] := by
  have hhalf : ¬ fp16.NaNPattern (littleEndian [0x01, 0x80]) := by decide
  have hbyte : ¬ fp8.NaNPattern (littleEndian [0x7B]) := by decide
  exact ⟨rfl, hhalf, (stored_exactly fp16).2.2.1 _ rfl hhalf, rfl, hbyte,
    (stored_exactly fp8).2.2.1 _ rfl hbyte⟩

end SystolicGemm.Element
