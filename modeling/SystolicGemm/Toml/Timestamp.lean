import SystolicGemm.Toml.Number

/-!
# Dates and times as tables

A table can stand for a date or a time: its first name is then a reserved one,
with the date or time as a string, and whatever else it holds does not count.
Anywhere but in front the reserved name is one like any other.

The string is read a little more freely than a date or time in a document: the
hour may be 24, and an offset is any number of hours and minutes within a day.
-/

namespace SystolicGemm.Toml

/-- The first name of a table that stands for a date or a time. -/
def timestampName : String := "$__toml_private_datetime"

/-- Two digits. -/
def twoDigits (n : Nat) : List Char := [Nat.digitChar (n / 10), Nat.digitChar (n % 10)]

/-- The minutes of a day. -/
def dayMinutes : Nat := 1440

/-- An offset that ends a string, in its normal form. There may be none. -/
def offsetEnd? : List Char → Option (List Char)
  | [] => some []
  | ['Z'] | ['z'] => some ['Z']
  | c :: cs =>
    if c == '+' || c == '-' then do
      let (hours, cs) ← fixedField 2 0 99 cs
      let (_, cs) ← mark ':' cs
      let (minutes, cs) ← fixedField 2 0 99 cs
      let total := 60 * Decimal.ofDigits hours + Decimal.ofDigits minutes
      let sign := if total = 0 then '+' else c
      if cs = [] && total ≤ dayMinutes then
        some (sign :: twoDigits (total / 60) ++ ':' :: twoDigits (total % 60))
      else none
    else none

/-- The normal form of a date, a time, or a date with a time and perhaps an
offset, as a string holds it. -/
def timestamp? (s : String) : Option String :=
  let cs := s.toList
  match date cs with
  | some (d, []) => some (String.ofList d)
  | some (d, c :: rest) =>
    if c == 'T' || c == 't' || c == ' ' then do
      let (t, rest) ← timeUpTo 24 rest
      return String.ofList (d ++ 'T' :: t ++ (← offsetEnd? rest))
    else none
  | none =>
    match timeUpTo 24 cs with
    | some (t, []) => some (String.ofList t)
    | _ => none

/-- What the entries of a table stand for, if their first name is the reserved
one: a date or a time, or nothing at all. -/
def timestampOf? : List (String × Value) → Option (Option Value)
  | (name, v) :: _ =>
    if name == timestampName then
      match v with
      | .string s => some ((timestamp? s).map .datetime)
      | _ => some none
    else none
  | [] => none

mutual

/-- The value with dates and times in place of the tables that stand for them. -/
def Value.settle : Value → Option Value
  | .array items => do return .array (← settleItems items)
  | .table entries =>
    match timestampOf? entries with
    | some v => v
    | none => do return .table (← settleEntries entries)
  | v => some v

/-- The items of an array, settled. -/
def settleItems : List Value → Option (List Value)
  | [] => some []
  | v :: rest => do return (← v.settle) :: (← settleItems rest)

/-- The entries of a table, settled. -/
def settleEntries : List (String × Value) → Option (List (String × Value))
  | [] => some []
  | (name, v) :: rest => do return (name, ← v.settle) :: (← settleEntries rest)

end

end SystolicGemm.Toml
