import SystolicGemm.Decimal.Text
import SystolicGemm.Toml.Text
import SystolicGemm.Word

/-!
# TOML numbers, dates and times

Numbers may have single underscores between digits. An integer has to fit 64
bits with a sign. A number too large for a float is refused if it is positive.

Dates and times have fixed fields. Their normal form writes the separators in
upper case and the fraction of a second without trailing zeros.
-/

namespace SystolicGemm.Toml

/-- Digits with single underscores between them; the digits alone. -/
def digitRun (isDigit : Char → Bool) : Reader (List Char)
  | [] => none
  | c :: rest => if isDigit c then some (go [c] rest) else none
where
  go (found : List Char) : List Char → List Char × List Char
    | [] => (found.reverse, [])
    | '_' :: d :: rest =>
      if isDigit d then go (d :: found) rest else (found.reverse, '_' :: d :: rest)
    | c :: rest => if isDigit c then go (c :: found) rest else (found.reverse, c :: rest)

/-- Decimal digits without a leading zero, unless zero is all there is. -/
def wholeDigits : Reader (List Char)
  | '0' :: rest => some (['0'], rest)
  | cs => digitRun Char.isDigit cs

/-- The number that digits denote in a base. -/
def numberOf (base : Nat) (ds : List Char) : Nat :=
  ds.foldl (fun n d => base * n + (hexValue? [d]).getD 0) 0

/-- An integer that fits 64 bits with a sign. -/
def integer? (n : Int) : Option Value :=
  if Word.isSigned n then some (.integer n) else none

/-- An integer in another base, after its mark. -/
def basedInteger (base : Nat) (isDigit : Char → Bool) : Reader Value := fun cs => do
  let (ds, rest) ← digitRun isDigit cs
  return (← integer? (numberOf base ds), rest)

/-- Hexadecimal digits. -/
def isHexDigit (c : Char) : Bool := (hexValue? [c]).isSome

/-- A fraction after its point. -/
def fraction? : Reader (List Char)
  | '.' :: rest => digitRun Char.isDigit rest
  | _ => none

/-- An exponent with its mark. -/
def exponent? : Reader Int
  | c :: rest =>
    if c == 'e' || c == 'E' then do
      let (negative, rest) := Decimal.splitSign rest
      let (ds, rest) ← digitRun Char.isDigit rest
      return (if negative then -(Decimal.ofDigits ds : Int) else Decimal.ofDigits ds, rest)
    else none
  | [] => none

/-- A float that is not too large. -/
def float? (negative : Bool) (n : Nat) (g : Int) : Option Value :=
  let x := Decimal.toDouble negative n g
  if x = .infinity .double then none else some (.float x)

/-- A decimal number. It is a float if it has a fraction or an exponent. -/
def decimal : Reader Value := fun cs => do
  let (negative, cs) := Decimal.splitSign cs
  match cs with
  | 'i' :: 'n' :: 'f' :: rest =>
    return (.float (.signed .double negative BinaryFormat.double.infinityBits), rest)
  | 'n' :: 'a' :: 'n' :: rest => return (.float (.quietNaN .double), rest)
  | _ =>
    let (whole, cs) ← wholeDigits cs
    match fraction? cs, exponent? cs with
    | some (fraction, cs), _ =>
      let n := Decimal.ofDigits (whole ++ fraction)
      let (exponent, cs) := (exponent? cs).getD (0, cs)
      return (← float? negative n (exponent - fraction.length), cs)
    | none, some (exponent, cs) =>
      return (← float? negative (Decimal.ofDigits whole) exponent, cs)
    | none, none =>
      let n := (Decimal.ofDigits whole : Int)
      return (← integer? (if negative then -n else n), cs)

/-- A number. -/
def number : Reader Value
  | '0' :: 'x' :: rest => basedInteger 16 isHexDigit rest
  | '0' :: 'o' :: rest => basedInteger 8 (fun c => '0' ≤ c && c ≤ '7') rest
  | '0' :: 'b' :: rest => basedInteger 2 (fun c => c == '0' || c == '1') rest
  | cs => decimal cs

/-! ## Dates and times -/

/-- A number of a fixed count of digits within bounds, as its digits. -/
def fixedField (digits least most : Nat) : Reader (List Char) := fun cs =>
  let ds := cs.take digits
  if ds.length = digits && ds.all Char.isDigit
      && least ≤ Decimal.ofDigits ds && Decimal.ofDigits ds ≤ most then
    some (ds, cs.drop digits)
  else none

/-- A character that has to be there. -/
def mark (c : Char) : Reader Unit
  | d :: rest => if c == d then some ((), rest) else none
  | [] => none

/-- The days of a month. -/
def daysOf (year month : Nat) : Nat :=
  if month = 2 then
    if year % 4 = 0 && (year % 100 != 0 || year % 400 = 0) then 29 else 28
  else if month = 4 || month = 6 || month = 9 || month = 11 then 30
  else 31

/-- A date. -/
def date : Reader (List Char) := fun cs => do
  let (year, cs) ← fixedField 4 0 9999 cs
  let (_, cs) ← mark '-' cs
  let (month, cs) ← fixedField 2 1 12 cs
  let (_, cs) ← mark '-' cs
  let (day, cs) ← fixedField 2 1 (daysOf (Decimal.ofDigits year) (Decimal.ofDigits month)) cs
  return (year ++ '-' :: month ++ '-' :: day, cs)

/-- A fraction of a second, cut after nine digits. -/
def secondFraction : List Char → Option (List Char × List Char)
  | '.' :: cs =>
    let ds := cs.takeWhile Char.isDigit
    if ds = [] then none
    else
      let kept := ((ds.take 9).reverse.dropWhile (· == '0')).reverse
      some (if kept = [] then [] else '.' :: kept, cs.drop ds.length)
  | cs => some ([], cs)

/-- A time of day, up to a last hour. -/
def timeUpTo (lastHour : Nat) : Reader (List Char) := fun cs => do
  let (hour, cs) ← fixedField 2 0 lastHour cs
  let (_, cs) ← mark ':' cs
  let (minute, cs) ← fixedField 2 0 59 cs
  let (_, cs) ← mark ':' cs
  let (second, cs) ← fixedField 2 0 60 cs
  let (fraction, cs) ← secondFraction cs
  return (hour ++ ':' :: minute ++ ':' :: second ++ fraction, cs)

/-- A time of day. -/
def time : Reader (List Char) := timeUpTo 23

/-- An offset from universal time, which may be absent. One of zero is written
with a plus sign. -/
def offset : Reader (List Char)
  | 'Z' :: cs | 'z' :: cs => some (['Z'], cs)
  | c :: cs =>
    if c == '+' || c == '-' then do
      let (hour, cs) ← fixedField 2 0 23 cs
      let (_, cs) ← mark ':' cs
      let (minute, cs) ← fixedField 2 0 59 cs
      let sign := if (hour ++ minute).all (· == '0') then '+' else c
      return (sign :: hour ++ ':' :: minute, cs)
    else some ([], c :: cs)
  | [] => some ([], [])

/-- A date, a time, or both with a separator between them. After a blank the
time has to begin with a digit, or else the date stands alone. -/
def datetime : Reader Value := fun cs =>
  match date cs with
  | some (d, rest) => do
    let begun :=
      match rest with
      | 'T' :: rest | 't' :: rest => some rest
      | ' ' :: c :: rest => if c.isDigit then some (c :: rest) else none
      | _ => none
    match begun with
    | none => return (.datetime (String.ofList d), rest)
    | some rest =>
      let (t, rest) ← time rest
      let (o, rest) ← offset rest
      return (.datetime (String.ofList (d ++ 'T' :: t ++ o)), rest)
  | none => do
    let (t, rest) ← time cs
    return (.datetime (String.ofList t), rest)

end SystolicGemm.Toml
