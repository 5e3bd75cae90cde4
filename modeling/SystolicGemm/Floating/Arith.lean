import SystolicGemm.Floating.Format

/-!
# Floating-point arithmetic

Sums and products are exact on `Datum`; rounding happens once, at the end of an
operation. A fused multiply-add is therefore nothing but the sum of a product.
-/

namespace SystolicGemm

namespace Datum

/-- The significand with its sign. -/
def signedInt (negative : Bool) (n : Nat) : Int := if negative then -(n : Int) else n

/-- The value with the opposite sign. -/
def neg : Datum → Datum
  | .nan => .nan
  | .infinite s => .infinite !s
  | .finite s m q => .finite (!s) m q

/-- The magnitude. -/
def abs : Datum → Datum
  | .nan => .nan
  | .infinite _ => .infinite false
  | .finite _ m q => .finite false m q

/-- The exact product. Zero times infinity is not a number. -/
def mul : Datum → Datum → Datum
  | .nan, _ => .nan
  | _, .nan => .nan
  | .infinite s, .infinite t => .infinite (s != t)
  | .infinite s, .finite t m _ => if m = 0 then .nan else .infinite (s != t)
  | .finite s m _, .infinite t => if m = 0 then .nan else .infinite (s != t)
  | .finite s m p, .finite t n q => .finite (s != t) (m * n) (p + q)

/-- The exact sum of two finite values. A zero is negative only if both are. -/
def addFinite (s : Bool) (m : Nat) (p : Int) (t : Bool) (n : Nat) (q : Int) : Datum :=
  let scale := min p q
  let total :=
    signedInt s (m <<< (p - scale).toNat) + signedInt t (n <<< (q - scale).toNat)
  if total = 0 then .finite (s && t) 0 scale
  else .finite (decide (total < 0)) total.natAbs scale

/-- The exact sum. Infinities of opposite signs have none. -/
def add : Datum → Datum → Datum
  | .nan, _ => .nan
  | _, .nan => .nan
  | .infinite s, .infinite t => if s = t then .infinite s else .nan
  | .infinite s, .finite .. => .infinite s
  | .finite .., .infinite t => .infinite t
  | .finite s m p, .finite t n q => addFinite s m p t n q

/-- Strictly less. Nothing is less than a NaN, nor a NaN than anything. -/
def lt : Datum → Datum → Bool
  | .nan, _ => false
  | _, .nan => false
  | .infinite s, .infinite t => s && !t
  | .infinite s, .finite .. => s
  | .finite .., .infinite t => !t
  | .finite s m p, .finite t n q =>
    let scale := min p q
    decide (signedInt s (m <<< (p - scale).toNat) < signedInt t (n <<< (q - scale).toNat))

end Datum

namespace Binary

variable {f : BinaryFormat}

/-- Positive infinity. -/
def infinity (f : BinaryFormat) : Binary f := round f (.infinite false)

/-- The value nearest to a natural number. -/
def ofNat (f : BinaryFormat) (n : Nat) : Binary f := roundFinite f false n 0

/-- The value nearest to an integer. -/
def ofInt (f : BinaryFormat) (n : Int) : Binary f :=
  roundFinite f (decide (n < 0)) n.natAbs 0

/-- Positive zero. -/
def zero (f : BinaryFormat) : Binary f := ofNat f 0

/-- The sum, rounded once. -/
def add (x y : Binary f) : Binary f := round f (x.datum.add y.datum)

/-- The difference, rounded once. -/
def sub (x y : Binary f) : Binary f := round f (x.datum.add y.datum.neg)

/-- The product, rounded once. -/
def mul (x y : Binary f) : Binary f := round f (x.datum.mul y.datum)

/-- `x * y + z`, rounded once. -/
def mulAdd (x y z : Binary f) : Binary f := round f ((x.datum.mul y.datum).add z.datum)

/-- The magnitude, with the fraction field as it is. -/
def abs (x : Binary f) : Binary f :=
  ofBits f (x.toBits % (1 <<< (f.exponentBits + f.fractionBits)))

/-- Strictly less, as numbers. -/
def lt (x y : Binary f) : Bool := x.datum.lt y.datum

/-- The larger of two values; of a NaN and a number the number. -/
def max (x y : Binary f) : Binary f :=
  if x.isNaN then y else if y.isNaN then x else if x.lt y then y else x

/-- The smaller of two values; of a NaN and a number the number. -/
def min (x y : Binary f) : Binary f :=
  if x.isNaN then y else if y.isNaN then x else if y.lt x then y else x

/-- Zero of either sign. -/
def isZero (x : Binary f) : Bool := x.exponentField == 0 && x.fractionField == 0

instance : Add (Binary f) := ⟨add⟩
instance : Sub (Binary f) := ⟨sub⟩
instance : Mul (Binary f) := ⟨mul⟩

/-- The value nearest to `num / den`, for a positive `den`. The quotient is
taken to two bits more than the format holds, and one more bit says whether
anything was left over; no rounding can tell it from the exact value. -/
def ofRatio (f : BinaryFormat) (negative : Bool) (num den : Nat) : Binary f :=
  if num = 0 then signed f negative 0 else
    let size := Nat.log2 num
    let want := Nat.log2 den + f.fractionBits + 4
    let shift := want - size
    let n := num <<< shift
    let sticky := if n % den = 0 then 0 else 1
    roundFinite f negative (2 * (n / den) + sticky) (-(shift : Int) - 1)

end Binary

end SystolicGemm
