import SystolicGemm.Floating.Arith
import SystolicGemm.Text.Lower
import SystolicGemm.Word

/-!
# Element formats

Matrix elements live in memory and in the operand buffers as little-endian bit
patterns of one, two or four bytes. The datapath computes in single precision on
values that their element format holds exactly.

The one-byte format is the upper byte of a half precision number, so it has five
exponent and two fraction bits; a value goes into it by rounding to half
precision and dropping the low byte, which truncates towards zero.
-/

namespace SystolicGemm

/-- How an element is stored. -/
inductive Element where
  | fp8
  | fp16
  | fp32
  deriving DecidableEq, Repr, Inhabited

/-- Raw bytes, in address order. -/
abbrev Bytes := List UInt8

namespace Element

/-- Bytes per element. -/
def bytes : Element → Nat
  | fp8 => 1
  | fp16 => 2
  | fp32 => 4

/-- The name in configurations and messages. -/
def name : Element → String
  | fp8 => "fp8"
  | fp16 => "fp16"
  | fp32 => "fp32"

/-- The format of a name in any case. A name of none comes back in lower case. -/
def ofName (text : String) : Except String Element :=
  match Text.lower text with
  | "fp8" => .ok fp8
  | "fp16" => .ok fp16
  | "fp32" => .ok fp32
  | other => .error other

/-- The number that bytes denote, the first one lowest. -/
def littleEndian (raw : Bytes) : Nat :=
  raw.foldr (fun b n => b.toNat + 256 * n) 0

/-- The lowest `n` bytes of a number, lowest first. -/
def toLittleEndian : (n : Nat) → Nat → Bytes
  | 0, _ => []
  | n + 1, v => v.toUInt8 :: toLittleEndian n (v / 256)

@[simp] theorem length_toLittleEndian (n v : Nat) : (toLittleEndian n v).length = n := by
  induction n generalizing v with
  | zero => rfl
  | succ n ih => rw [toLittleEndian, List.length_cons, ih]

theorem littleEndian_cons (b : UInt8) (raw : Bytes) :
    littleEndian (b :: raw) = b.toNat + 256 * littleEndian raw := rfl

theorem littleEndian_toLittleEndian (n v : Nat) :
    littleEndian (toLittleEndian n v) = v % (1 <<< (8 * n)) := by
  induction n generalizing v with
  | zero => exact (Nat.mod_one v).symm
  | succ n ih =>
    have hb : v.toUInt8.toNat = v % 256 := by rw [Nat.toUInt8_eq, UInt8.toNat_ofNat']
    have hp : 1 <<< (8 * (n + 1)) = 256 * (1 <<< (8 * n)) := by
      rw [Nat.one_shiftLeft, Nat.one_shiftLeft, Nat.mul_succ, Nat.pow_add, Nat.mul_comm]
    rw [toLittleEndian, littleEndian_cons, ih, hb, hp, Nat.mod_mul]

theorem toLittleEndian_littleEndian (raw : Bytes) :
    toLittleEndian raw.length (littleEndian raw) = raw := by
  induction raw with
  | nil => rfl
  | cons b raw ih =>
    have hb := b.toNat_lt
    have hq : (b.toNat + 256 * littleEndian raw) / 256 = littleEndian raw := by omega
    have hr : (b.toNat + 256 * littleEndian raw).toUInt8 = b := by
      apply UInt8.toNat_inj.mp
      rw [Nat.toUInt8_eq, UInt8.toNat_ofNat']
      omega
    rw [littleEndian_cons, List.length_cons, toLittleEndian, hq, hr, ih]

/-- The bit pattern of the value in the element format. -/
def pattern (e : Element) (value : Single) : Nat :=
  match e with
  | fp8 => (value.convert .half).toBits / 256
  | fp16 => (value.convert .half).toBits
  | fp32 => value.toBits

/-- The value of a bit pattern, which single precision holds exactly. -/
def value (e : Element) (pattern : Nat) : Single :=
  match e with
  | fp8 => (Binary.ofBits .half (pattern * 256)).convert .single
  | fp16 => (Binary.ofBits .half pattern).convert .single
  | fp32 => Binary.ofBits .single pattern

/-- The bytes of a value. -/
def encode (e : Element) (v : Single) : Bytes := toLittleEndian e.bytes (e.pattern v)

@[simp] theorem length_encode (e : Element) (v : Single) : (e.encode v).length = e.bytes :=
  length_toLittleEndian ..

/-- The value of an element's bytes. -/
def decode (e : Element) (raw : Bytes) : Single :=
  e.value (littleEndian (raw.take e.bytes))

/-- The value of the element at the start of longer bytes, if they hold one. -/
def decode? (e : Element) (raw : Bytes) : Checked Single :=
  if e.bytes ≤ raw.length then .ok (e.decode raw) else .error .outOfRange

/-- The value of the format that storing `v` leaves in memory. -/
def quantize (e : Element) (v : Single) : Single := e.value (e.pattern v)

/-- One accumulation step: `acc + x * w` rounded once to single precision, then
to the element format. -/
def fma (e : Element) (acc x w : Single) : Single := e.quantize (Binary.mulAdd x w acc)

theorem fma_fp32 (acc x w : Single) : fp32.fma acc x w = Binary.mulAdd x w acc :=
  Binary.ofBits_toBits _

theorem fma_fp16 (acc x w : Single) :
    fp16.fma acc x w = ((Binary.mulAdd x w acc).convert .half).convert .single :=
  congrArg (Binary.convert .single) (Binary.ofBits_toBits _)

theorem fma_fp8 (acc x w : Single) : fp8.fma acc x w =
    (Binary.ofBits .half (((Binary.mulAdd x w acc).convert .half).toBits / 256 * 256)).convert
      .single := rfl

/-- The relative error that one accumulation step may bring. -/
def epsilon : Element → Double
  | fp8 => Binary.roundFinite .double false 1 (-2)
  | fp16 => Binary.roundFinite .double false 1 (-10)
  | fp32 => Binary.roundFinite .double false 1 (-23)

/-- The absolute error allowed in a sum of `n` products of magnitude `scale`. -/
def tolerance (e : Element) (n : Nat) (scale : Double) : Double :=
  e.epsilon * Binary.max scale (Binary.ofNat .double 1) * Binary.ofNat .double (max n 1)

end Element

end SystolicGemm
