import SystolicGemm.Wire.Text
import SystolicGemm.Word

/-!
# Writing TOML

Keys with integers, truth values and strings. A string is written in the
simplest of the four kinds that can hold it: with no escapes if possible, and on
several lines only if it has line breaks or quotes that ask for it. The quotes in
a row are counted in one byte, so that a longer run traps.
-/

namespace SystolicGemm.Toml

/-- The longest run of a character. -/
def longestRun (c : Char) (cs : List Char) : Nat :=
  (cs.foldl (fun (longest, run) d =>
    if d == c then (max longest (run + 1), run + 1) else (longest, 0)) (0, 0)).1

/-- Characters that only an escape can write. -/
def needsEscape (c : Char) : Bool :=
  (c.toNat < 0x20 && c != '\t' && c != '\n') || c == '\x7f'

/-- The characters of a basic string, where a tab is always escaped. On several
lines a line break stands for itself, and only every third of a run of quotes is
escaped. -/
def escaped (long : Bool) : (run : Nat) → List Char → List Char
  | _, [] => []
  | run, '"' :: cs =>
    if long && run < 2 then '"' :: escaped long (run + 1) cs
    else '\\' :: '"' :: escaped long 0 cs
  | _, c :: cs =>
    let written :=
      if c == '\x08' then ['\\', 'b']
      else if c == '\t' then ['\\', 't']
      else if c == '\n' then if long then ['\n'] else ['\\', 'n']
      else if c == '\x0c' then ['\\', 'f']
      else if c == '\r' then ['\\', 'r']
      else if c == '\\' then ['\\', '\\']
      else if needsEscape c then
        ['\\', 'u', '0', '0'] ++ [c.toNat / 16, c.toNat].map fun n => (Wire.hexDigit n).toUpper
      else [c]
    written ++ escaped long 0 cs

/-- The quotes in a row that can be counted. -/
def maxRun : Nat := 255

/-- A string in quotes. -/
def quoteString (s : String) : Checked String := do
  let cs := s.toList
  let control := cs.any needsEscape
  let backslash := cs.contains '\\'
  let doubles := longestRun '"' cs
  let singles := longestRun '\'' cs
  if maxRun < max doubles singles then
    throw .overflow
  let lines := cs.contains '\n'
  let first := if lines then ['\n'] else []
  let d3 := ['"', '"', '"']
  let s3 := ['\'', '\'', '\'']
  return String.ofList <|
    if !control && !backslash && doubles = 0 && !lines then
      '"' :: escaped false 0 cs ++ ['"']
    else if !control && singles = 0 && !lines then '\'' :: cs ++ ['\'']
    else if !control && !backslash && doubles ≤ 2 then
      d3 ++ first ++ escaped true 0 cs ++ d3
    else if !control && singles ≤ 2 then s3 ++ first ++ cs ++ s3
    else if lines then d3 ++ first ++ escaped true 0 cs ++ d3
    else '"' :: escaped false 0 cs ++ ['"']

/-- A field of a section, as far as this writer knows values. -/
inductive Field where
  | natural (n : Nat)
  | bool (b : Bool)
  | string (s : String)
  deriving DecidableEq, Repr

/-- Whether a field can be written. Integers have to fit 64 bits with a sign. -/
def Field.isWritable : Field → Bool
  | natural n => n < Word.halfLimit
  | bool _ | string _ => true

/-- The text of a value. -/
def Field.render : Field → Checked String
  | natural n => .ok (toString n)
  | bool b => .ok (Wire.bool b)
  | string s => quoteString s

/-- The text of a section with its header. -/
def renderSection (name : String) (fields : List (String × Field)) : Checked String := do
  let lines ← fields.mapM fun (key, field) => do
    return key ++ " = " ++ (← field.render) ++ "\n"
  return "[" ++ name ++ "]\n" ++ String.join lines

/-- The text of sections, with an empty line between them. -/
def renderSections (sections : List (String × List (String × Field))) : Checked String := do
  return String.intercalate "\n" (← sections.mapM fun (name, fields) => renderSection name fields)

end SystolicGemm.Toml
