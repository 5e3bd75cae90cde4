import SystolicGemm.Decimal.Shortest

/-!
# Decimal text

How decimals are written and read. A `DecimalStyle` holds the decisions of one
output: up to where numbers are written positionally, whether whole ones keep a
zero after the point, and whether exponents show a plus sign.
-/

namespace SystolicGemm

/-- The decisions of one way to write numbers. -/
structure DecimalStyle where
  /-- Whether a number is written positionally, by the position of its decimal
  point after its first digits. -/
  positional : Int → Bool
  /-- Whether a whole number in positional notation ends in `.0`. -/
  pointZero : Bool
  /-- Whether an exponent that is not negative has a plus sign. -/
  plusSign : Bool

namespace DecimalStyle

/-- Messages write every number positionally, whole ones with no point. -/
def plain : DecimalStyle := ⟨fun _ => true, false, false⟩

/-- Errors are written with an exponent. -/
def scientific : DecimalStyle := ⟨fun _ => false, false, false⟩

/-- Records write numbers up to sixteen places before the point and five after
it positionally, whole ones with `.0`, and exponents with their sign. -/
def record : DecimalStyle := ⟨fun point => -5 < point && point ≤ 16, true, true⟩

end DecimalStyle

namespace Decimal

/-- The digits of a number. -/
def digits (n : Nat) : List Char := Nat.toDigits 10 n

/-- So many zeros. -/
def zeros (n : Nat) : List Char := List.replicate n '0'

/-- `n * 10 ^ g` in positional notation. -/
def positional (pointZero : Bool) (n : Nat) (g : Int) : List Char :=
  let ds := digits n
  let point := ds.length + g
  if 0 ≤ g then ds ++ zeros g.toNat ++ (if pointZero then ['.', '0'] else [])
  else if 0 < point then ds.take point.toNat ++ '.' :: ds.drop point.toNat
  else '0' :: '.' :: (zeros (-point).toNat ++ ds)

/-- `n * 10 ^ g` with one digit before the point and an exponent. -/
def exponential (plusSign : Bool) (n : Nat) (g : Int) : List Char :=
  let ds := digits n
  let exponent := if n = 0 then 0 else ds.length + g - 1
  let mantissa := ds.take 1 ++ (if ds.length > 1 then '.' :: ds.drop 1 else [])
  let sign := if plusSign && 0 ≤ exponent then ['+'] else []
  mantissa ++ 'e' :: sign ++ (toString exponent).toList

/-- The shortest text of a value in a style. -/
def text {f : BinaryFormat} (style : DecimalStyle) (x : Binary f) : String :=
  match x.datum with
  | .nan => "NaN"
  | .infinite negative => if negative then "-inf" else "inf"
  | .finite negative significand scale =>
    let (n, g) := shortest f significand scale
    let point := (digits n).length + g
    let cs :=
      if style.positional point then positional style.pointZero n g
      else exponential style.plusSign n g
    String.ofList (if negative then '-' :: cs else cs)

/-- The nearest integer to `num / den`, of two equally near ones the even one. -/
def roundRatio (num den : Nat) : Nat :=
  let low := num / den
  let twiceRest := 2 * (num % den)
  if twiceRest > den || (twiceRest == den && low % 2 == 1) then low + 1 else low

/-- The text with one place after the point. -/
def onePlace {f : BinaryFormat} (x : Binary f) : String :=
  match x.datum with
  | .nan => "NaN"
  | .infinite negative => if negative then "-inf" else "inf"
  | .finite negative significand scale =>
    let tenths :=
      if 0 ≤ scale then (significand * 10) <<< scale.toNat
      else roundRatio (significand * 10) (1 <<< (-scale).toNat)
    let cs := digits (tenths / 10) ++ '.' :: digits (tenths % 10)
    String.ofList (if negative then '-' :: cs else cs)

/-! ## Reading -/

/-- The number that digits denote. -/
def ofDigits (ds : List Char) : Nat := ds.foldl (fun n c => 10 * n + (c.toNat - '0'.toNat)) 0

/-- The double nearest to `n * 10 ^ g`. Past four hundred places on either side
the value is infinite or zero. -/
def toDouble (negative : Bool) (n : Nat) (g : Int) : Double :=
  if n = 0 then .signed .double negative 0
  else if 400 < g then .signed .double negative BinaryFormat.double.infinityBits
  else if (digits n).length + g < -400 then .signed .double negative 0
  else .ofRatio .double negative (n * powerOfTen g.toNat) (powerOfTen (-g).toNat)

/-- A sign in front of a text. -/
def splitSign : List Char → Bool × List Char
  | '-' :: cs => (true, cs)
  | '+' :: cs => (false, cs)
  | cs => (false, cs)

/-- An exponent part, which may be absent. -/
def readExponent : List Char → Option Int
  | [] => some 0
  | c :: cs =>
    if c == 'e' || c == 'E' then
      let (negative, ds) := splitSign cs
      if ds ≠ [] && ds.all Char.isDigit then
        some (if negative then -(ofDigits ds : Int) else ofDigits ds)
      else none
    else none

/-- Reads a decimal number: digits with an optional point and exponent, at least
one digit before the exponent, or a name of infinity or NaN in any case. -/
def readDouble (s : String) : Option Double :=
  let (negative, cs) := splitSign s.toList
  match String.ofList (cs.map Char.toLower) with
  | "inf" | "infinity" => some (.signed .double negative BinaryFormat.double.infinityBits)
  | "nan" => some (.quietNaN .double)
  | _ =>
    let whole := cs.takeWhile Char.isDigit
    let rest := cs.dropWhile Char.isDigit
    let (fraction, rest) :=
      match rest with
      | '.' :: rest => (rest.takeWhile Char.isDigit, rest.dropWhile Char.isDigit)
      | _ => ([], rest)
    if whole ++ fraction = [] then none
    else (readExponent rest).map fun exponent =>
      toDouble negative (ofDigits (whole ++ fraction)) (exponent - fraction.length)

/-- Reads a natural number: digits, with an optional plus sign in front. -/
def readNat (s : String) : Option Nat :=
  let ds :=
    match s.toList with
    | '+' :: ds => ds
    | ds => ds
  if ds ≠ [] && ds.all Char.isDigit then some (ofDigits ds) else none

/-- Reads an integer: digits, with an optional sign in front. -/
def readInt (s : String) : Option Int :=
  let (negative, ds) := splitSign s.toList
  if ds ≠ [] && ds.all Char.isDigit then
    some (if negative then -(ofDigits ds : Int) else ofDigits ds)
  else none

end Decimal

end SystolicGemm
