/-!
# Binary floating-point formats

An interchange format is given by the widths of its two fields. A pattern of
the format denotes a `Datum`: a NaN, an infinity, or a sign with an exact
dyadic number `significand * 2 ^ scale`.

`Binary.round` is the way back. It is the only place that rounds: to the
nearest value of the format, of two equally near ones to that with an even
pattern, subnormal numbers kept, and to infinity from halfway past the largest
finite value on. The patterns of the non-negative values count upwards in the
order of their values, so a significand that rounds up to the next power of two
needs no case of its own.
-/

namespace SystolicGemm

/-- The field widths of a binary interchange format. -/
structure BinaryFormat where
  exponentBits : Nat
  fractionBits : Nat
  deriving DecidableEq, Repr

namespace BinaryFormat

/-- Half precision. -/
def half : BinaryFormat := ⟨5, 10⟩

/-- Single precision. -/
def single : BinaryFormat := ⟨8, 23⟩

/-- Double precision. -/
def double : BinaryFormat := ⟨11, 52⟩

/-- Bits of a pattern: sign, exponent field and fraction field. -/
def width (f : BinaryFormat) : Nat := 1 + f.exponentBits + f.fractionBits

/-- The exponent field of infinities and NaNs. -/
def topExponent (f : BinaryFormat) : Nat := 1 <<< f.exponentBits - 1

/-- The scale of subnormal numbers: all finite values are multiples of two to
this power. -/
def leastScale (f : BinaryFormat) : Int :=
  2 - (1 <<< (f.exponentBits - 1) : Nat) - f.fractionBits

/-- The magnitude pattern of infinity. -/
def infinityBits (f : BinaryFormat) : Nat := f.topExponent <<< f.fractionBits

end BinaryFormat

/-- A floating-point value of the format, as its bit pattern. -/
structure Binary (f : BinaryFormat) where
  bits : BitVec f.width
  deriving DecidableEq

/-- Half precision values. -/
abbrev Half := Binary .half

/-- Single precision values. -/
abbrev Single := Binary .single

/-- Double precision values. -/
abbrev Double := Binary .double

/-- What a pattern denotes. -/
inductive Datum where
  | nan
  | infinite (negative : Bool)
  /-- The number `significand * 2 ^ scale`, negated if `negative`. -/
  | finite (negative : Bool) (significand : Nat) (scale : Int)
  deriving DecidableEq, Repr

/-- The nearest integer to `m / 2 ^ k`, of two equally near ones the even one. -/
def roundShift (m k : Nat) : Nat :=
  let low := m >>> k
  let twiceRest := 2 * (m - low <<< k)
  let unit := 1 <<< k
  if twiceRest > unit || (twiceRest == unit && low % 2 == 1) then low + 1 else low

namespace Binary

variable {f : BinaryFormat}

instance : Inhabited (Binary f) := ⟨⟨0⟩⟩

/-- The pattern with the given bits, higher ones dropped. -/
def ofBits (f : BinaryFormat) (n : Nat) : Binary f := ⟨BitVec.ofNat f.width n⟩

/-- The pattern as a number. -/
def toBits (x : Binary f) : Nat := x.bits.toNat

theorem toBits_lt (x : Binary f) : x.toBits < 1 <<< f.width := by
  rw [Nat.one_shiftLeft]
  exact x.bits.isLt

theorem toBits_ofBits (f : BinaryFormat) (n : Nat) :
    (ofBits f n).toBits = n % (1 <<< f.width) := by
  rw [Nat.one_shiftLeft]
  exact BitVec.toNat_ofNat ..

theorem ofBits_toBits (x : Binary f) : ofBits f x.toBits = x := by
  unfold ofBits toBits
  rw [BitVec.ofNat_toNat, BitVec.setWidth_eq]

/-- The sign bit. -/
def negative (x : Binary f) : Bool := x.toBits.testBit (f.exponentBits + f.fractionBits)

/-- The exponent field. -/
def exponentField (x : Binary f) : Nat := (x.toBits >>> f.fractionBits) % (1 <<< f.exponentBits)

/-- The fraction field. -/
def fractionField (x : Binary f) : Nat := x.toBits % (1 <<< f.fractionBits)

/-- A sign over a magnitude pattern. -/
def signed (f : BinaryFormat) (negative : Bool) (magnitude : Nat) : Binary f :=
  ofBits f (if negative then (1 <<< (f.exponentBits + f.fractionBits)) + magnitude else magnitude)

/-- The NaN of arithmetic results: positive and quiet, with no payload. -/
def quietNaN (f : BinaryFormat) : Binary f :=
  ofBits f (f.infinityBits + 1 <<< (f.fractionBits - 1))

/-- The value that a pattern denotes. -/
def datum (x : Binary f) : Datum :=
  let e := x.exponentField
  let m := x.fractionField
  if e = f.topExponent then
    if m = 0 then .infinite x.negative else .nan
  else if e = 0 then .finite x.negative m f.leastScale
  else .finite x.negative (1 <<< f.fractionBits + m) (f.leastScale + (e - 1 : Nat))

/-- A NaN of either sign and any payload. -/
def isNaN (x : Binary f) : Bool := x.exponentField == f.topExponent && x.fractionField != 0

/-- The value of the format nearest to `significand * 2 ^ scale`. -/
def roundFinite (f : BinaryFormat) (negative : Bool) (significand : Nat) (scale : Int) : Binary f :=
  if significand = 0 then signed f negative 0 else
    let lead := scale + (Nat.log2 significand : Int) - f.fractionBits
    let target := max f.leastScale lead
    let n :=
      if target ≤ scale then significand <<< (scale - target).toNat
      else roundShift significand (target - scale).toNat
    let magnitude := (target - f.leastScale).toNat <<< f.fractionBits + n
    signed f negative (min magnitude f.infinityBits)

/-- The value of the format nearest to an exact one. -/
def round (f : BinaryFormat) : Datum → Binary f
  | .nan => quietNaN f
  | .infinite negative => signed f negative f.infinityBits
  | .finite negative significand scale => roundFinite f negative significand scale

/-- Conversion between formats. A number rounds; a NaN becomes quiet and keeps
its sign and as much of its fraction as fits. The program has its half precision
conversions from the package `half`, which lies outside of it: that they work this
way is an assumption. -/
def convert (g : BinaryFormat) (x : Binary f) : Binary g :=
  if x.isNaN then
    let payload :=
      if g.fractionBits ≤ f.fractionBits then
        x.fractionField >>> (f.fractionBits - g.fractionBits)
      else x.fractionField <<< (g.fractionBits - f.fractionBits)
    signed g x.negative (g.infinityBits + (payload ||| 1 <<< (g.fractionBits - 1)))
  else round g x.datum

end Binary

end SystolicGemm
