import SystolicGemm.Toml.Value

/-!
# TOML strings

The four kinds of strings: basic ones with escapes and literal ones without,
each on one line or on several. A string on several lines begins after a line
break that follows its delimiter, holds line breaks as single characters
whatever they are in the text, and may end in one or two quotes of its own.
-/

namespace SystolicGemm.Toml

/-- The number that hexadecimal digits denote. -/
def hexValue? (cs : List Char) : Option Nat :=
  cs.foldlM (fun n c =>
    if '0' ≤ c && c ≤ '9' then some (16 * n + (c.toNat - '0'.toNat))
    else if 'a' ≤ c && c ≤ 'f' then some (16 * n + (c.toNat - 'a'.toNat + 10))
    else if 'A' ≤ c && c ≤ 'F' then some (16 * n + (c.toNat - 'A'.toNat + 10))
    else none) 0

/-- The character of a code point written with a fixed number of digits. -/
def codePoint (digits : Nat) : Reader Char := fun cs =>
  if cs.length < digits then none else do
    let n ← hexValue? (cs.take digits)
    if n < 0xD800 || (0xE000 ≤ n && n < 0x110000) then some (Char.ofNat n, cs.drop digits)
    else none

/-- The character of an escape after its backslash. -/
def escape : Reader Char
  | 'b' :: rest => some ('\x08', rest)
  | 't' :: rest => some ('\t', rest)
  | 'n' :: rest => some ('\n', rest)
  | 'f' :: rest => some ('\x0c', rest)
  | 'r' :: rest => some ('\r', rest)
  | '"' :: rest => some ('"', rest)
  | '\\' :: rest => some ('\\', rest)
  | 'u' :: rest => codePoint 4 rest
  | 'U' :: rest => codePoint 8 rest
  | _ => none

/-- The rest of a basic string on one line. -/
def basicRest : (fuel : Nat) → Reader (List Char)
  | 0, _ => none
  | _ + 1, [] => none
  | fuel + 1, c :: rest =>
    if c == '"' then some ([], rest)
    else if c == '\\' then do
      let (d, rest) ← escape rest
      let (ds, rest) ← basicRest fuel rest
      return (d :: ds, rest)
    else if !isControl c then do
      let (ds, rest) ← basicRest fuel rest
      return (c :: ds, rest)
    else none

/-- The rest of a literal string on one line. -/
def literalRest : Reader (List Char)
  | [] => none
  | c :: rest =>
    if c == '\'' then some ([], rest)
    else if !isControl c then do
      let (ds, rest) ← literalRest rest
      return (c :: ds, rest)
    else none

/-- The quotes at the beginning of the rest of a string on several lines: up to
two of them belong to the string, and three end it. -/
def closing (quote : Char) (cs : List Char) : Option (List Char × Option (List Char)) :=
  let run := (cs.takeWhile (· == quote)).length
  if run < 3 then some (List.replicate run quote, none)
  else if run ≤ 5 then some (List.replicate (run - 3) quote, some (cs.drop run))
  else none

/-- The text after a backslash at the end of a line: blanks and line breaks up
to the next character do not count. -/
def foldedLine? (cs : List Char) : Option (List Char) :=
  (newline? (skipBlanks cs)).map fun rest => go rest.length rest
where
  go : (fuel : Nat) → List Char → List Char
    | 0, cs => cs
    | fuel + 1, cs =>
      match newline? (skipBlanks cs) with
      | some rest => go fuel rest
      | none => skipBlanks cs

/-- The rest of a string on several lines, with escapes if it is a basic one. -/
def longRest (quote : Char) (escapes : Bool) : (fuel : Nat) → Reader (List Char)
  | 0, _ => none
  | _ + 1, [] => none
  | fuel + 1, c :: rest =>
    if c == quote then do
      match ← closing quote (c :: rest) with
      | (quotes, some rest) => return (quotes, rest)
      | (quotes, none) =>
        let (ds, rest) ← longRest quote escapes fuel (rest.drop (quotes.length - 1))
        return (quotes ++ ds, rest)
    else if escapes && c == '\\' then
      match foldedLine? rest with
      | some rest => longRest quote escapes fuel rest
      | none => do
        let (d, rest) ← escape rest
        let (ds, rest) ← longRest quote escapes fuel rest
        return (d :: ds, rest)
    else
      match newline? (c :: rest) with
      | some rest => do
        let (ds, rest) ← longRest quote escapes fuel rest
        return ('\n' :: ds, rest)
      | none =>
        if !isControl c then do
          let (ds, rest) ← longRest quote escapes fuel rest
          return (c :: ds, rest)
        else none

/-- The text without a line break at its beginning. -/
def skipNewline (cs : List Char) : List Char := (newline? cs).getD cs

/-- A string on one line. -/
def shortString : Reader String
  | '"' :: rest => do
    let (cs, rest) ← basicRest (rest.length + 1) rest
    return (String.ofList cs, rest)
  | '\'' :: rest => do
    let (cs, rest) ← literalRest rest
    return (String.ofList cs, rest)
  | _ => none

/-- A string of any kind. -/
def string : Reader String
  | '"' :: '"' :: '"' :: rest => do
    let rest := skipNewline rest
    let (cs, rest) ← longRest '"' true (rest.length + 1) rest
    return (String.ofList cs, rest)
  | '\'' :: '\'' :: '\'' :: rest => do
    let rest := skipNewline rest
    let (cs, rest) ← longRest '\'' false (rest.length + 1) rest
    return (String.ofList cs, rest)
  | cs => shortString cs

end SystolicGemm.Toml
