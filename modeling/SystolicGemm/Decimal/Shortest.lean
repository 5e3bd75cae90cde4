import SystolicGemm.Floating.Arith

/-!
# Shortest decimals

The decimal number with the fewest digits that still reads back as a given
floating-point value: it lies in the interval of the numbers that round to the
value, ends included if the significand is even. Of several it is the one
nearest to the value, the larger one if two are equally near.

The search runs through the decimal grids from coarse to fine. On each grid only
the two neighbours of the value can be the nearest point, and if any point of
the grid lies in the interval, one of them does.
-/

namespace SystolicGemm.Decimal

/-- A positive number in units of a quarter of its last place, with the ends of
the interval that rounds to it, all over `scale` powers of two. -/
structure Interval where
  low : Nat
  value : Nat
  high : Nat
  scale : Int
  closed : Bool
  deriving Repr

/-- The interval around a finite value. Just above a power of two the next lower
value is only half as far away. -/
def interval (f : BinaryFormat) (significand : Nat) (scale : Int) : Interval :=
  let closeBelow := significand = 1 <<< f.fractionBits ∧ scale ≠ f.leastScale
  { low := 4 * significand - if closeBelow then 1 else 2
    value := 4 * significand
    high := 4 * significand + 2
    scale := scale - 2
    closed := significand % 2 == 0 }

/-- Ten to the power of `k`. -/
def powerOfTen (k : Nat) : Nat := Nat.pow 10 k

/-- The better neighbour of the value among the multiples of `10 ^ g`, if one of
the two lies in the interval. -/
def onGrid (v : Interval) (g : Int) : Option Nat :=
  let up := powerOfTen (-g).toNat <<< v.scale.toNat
  let unit := powerOfTen g.toNat <<< (-v.scale).toNat
  let inside (n : Nat) :=
    let p := n * unit
    if v.closed then v.low * up ≤ p && p ≤ v.high * up else v.low * up < p && p < v.high * up
  let below := v.value * up / unit
  let rest := v.value * up % unit
  match inside below, inside (below + 1) with
  | true, true => some (if 2 * rest < unit then below else below + 1)
  | true, false => some below
  | false, true => some (below + 1)
  | false, false => none

/-- The first hit on the grids from `10 ^ g` downwards. -/
def search (v : Interval) : (grids : Nat) → Int → Nat × Int
  | 0, g => (v.value, g)
  | grids + 1, g =>
    match onGrid v g with
    | some n => (n, g)
    | none => search v grids (g - 1)

/-- A number of digits without its trailing zeros, which go into the exponent. -/
def strip : (fuel n : Nat) → Int → Nat × Int
  | 0, n, g => (n, g)
  | fuel + 1, n, g => if n ≠ 0 ∧ n % 10 = 0 then strip fuel (n / 10) (g + 1) else (n, g)

/-- The shortest decimal `digits * 10 ^ exponent` of a finite value. -/
def shortest (f : BinaryFormat) (significand : Nat) (scale : Int) : Nat × Int :=
  if significand = 0 then (0, 0) else
    let magnitude := scale + (Nat.log2 significand : Int)
    -- 1233 / 4096 is close to the logarithm of two
    let top := magnitude * 1233 / 4096 + 2
    let (n, g) := search (interval f significand scale) 24 top
    strip 24 n g

end SystolicGemm.Decimal
