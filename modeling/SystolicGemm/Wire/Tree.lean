/-!
# Message text

Messages between the models of a simulation carry JSON text. Reading one gives a
tree of what its records can consist of. Records hold natural numbers, truth
values and other records only, so of a number that is not a natural one, and of
a string, the tree keeps no more than that there was one.

The reader is strict: the text has to be one value, with nothing after it but
white space. The names of an object are kept in order, repeated ones too. Where
nobody asks for a name, it need not stand for characters: one whose escapes are
well formed and yet denote none is kept as no name.
-/

namespace SystolicGemm.Wire

/-- What a message text denotes. -/
inductive Tree where
  | null
  | bool (b : Bool)
  | natural (n : Nat)
  /-- A number with a minus sign, a fraction or an exponent. -/
  | number
  | string
  | array (items : List Tree)
  | object (members : List (Option String × Tree))
  deriving Repr, Inhabited

namespace Tree

/-- The white space between tokens. -/
def isBlank (c : Char) : Bool := c == ' ' || c == '\t' || c == '\n' || c == '\r'

/-- The text without blanks at its beginning. -/
def skipBlanks (cs : List Char) : List Char := cs.dropWhile isBlank

/-- The value of a hexadecimal digit. -/
def hexDigit? (c : Char) : Option Nat :=
  if '0' ≤ c && c ≤ '9' then some (c.toNat - '0'.toNat)
  else if 'a' ≤ c && c ≤ 'f' then some (c.toNat - 'a'.toNat + 10)
  else if 'A' ≤ c && c ≤ 'F' then some (c.toNat - 'A'.toNat + 10)
  else none

/-- The code unit that four hexadecimal digits denote, and what follows them. -/
def codeUnit? : List Char → Option (Nat × List Char)
  | a :: b :: c :: d :: rest => do
    let n := (← hexDigit? a) * 4096 + (← hexDigit? b) * 256 + (← hexDigit? c) * 16 + (← hexDigit? d)
    return (n, rest)
  | _ => none

/-- The character of an escape of one letter. -/
def shortEscape? : Char → Option Char
  | '"' => some '"'
  | '\\' => some '\\'
  | '/' => some '/'
  | 'b' => some '\x08'
  | 'f' => some '\x0c'
  | 'n' => some '\n'
  | 'r' => some '\r'
  | 't' => some '\t'
  | _ => none

/-- The rest of a string after its opening quote, which nobody reads: escapes
need only be well formed. -/
def skipString : (fuel : Nat) → List Char → Option (List Char)
  | 0, _ => none
  | _ + 1, [] => none
  | fuel + 1, c :: rest =>
    if c == '"' then some rest
    else if c.toNat < 0x20 then none
    else if c == '\\' then
      match rest with
      | 'u' :: rest => do skipString fuel (← codeUnit? rest).2
      | e :: rest => do
        let _ ← shortEscape? e
        skipString fuel rest
      | [] => none
    else skipString fuel rest

/-- The character of one or two code units after their first escape mark. A high
surrogate needs a low one after it, and a low one may not stand alone. -/
def unicodeEscape? (cs : List Char) : Option (Char × List Char) := do
  let (unit, rest) ← codeUnit? cs
  if unit < 0xD800 || 0xE000 ≤ unit then return (Char.ofNat unit, rest)
  if 0xDC00 ≤ unit then none
  match rest with
  | '\\' :: 'u' :: rest =>
    let (low, rest) ← codeUnit? rest
    if 0xDC00 ≤ low && low < 0xE000 then
      return (Char.ofNat (0x10000 + (unit - 0xD800) * 0x400 + (low - 0xDC00)), rest)
    else none
  | _ => none

/-- The characters of a name after its opening quote, and what follows it. -/
def readName : (fuel : Nat) → List Char → Option (List Char × List Char)
  | 0, _ => none
  | _ + 1, [] => none
  | fuel + 1, c :: rest =>
    if c == '"' then some ([], rest)
    else if c.toNat < 0x20 then none
    else if c == '\\' then
      match rest with
      | 'u' :: rest => do
        let (d, rest) ← unicodeEscape? rest
        let (name, rest) ← readName fuel rest
        return (d :: name, rest)
      | e :: rest => do
        let d ← shortEscape? e
        let (name, rest) ← readName fuel rest
        return (d :: name, rest)
      | [] => none
    else do
      let (name, rest) ← readName fuel rest
      return (c :: name, rest)

/-- Digits, of which there has to be one. -/
def digits? (cs : List Char) : Option (List Char × List Char) :=
  let ds := cs.takeWhile Char.isDigit
  if ds = [] then none else some (ds, cs.dropWhile Char.isDigit)

/-- The fraction and the exponent of a number, and whether there is either. -/
def skipFraction (cs : List Char) : Option (Bool × List Char) := do
  let (isFraction, cs) ←
    match cs with
    | '.' :: cs => do pure (true, (← digits? cs).2)
    | cs => pure (false, cs)
  match cs with
  | c :: rest =>
    if c == 'e' || c == 'E' then
      let rest :=
        match rest with
        | '+' :: rest => rest
        | '-' :: rest => rest
        | rest => rest
      return (true, (← digits? rest).2)
    else return (isFraction, c :: rest)
  | [] => return (isFraction, [])

/-- A number: no digit follows a leading zero. -/
def readNumber (cs : List Char) : Option (Tree × List Char) := do
  let (negative, cs) :=
    match cs with
    | '-' :: cs => (true, cs)
    | cs => (false, cs)
  let (ds, cs) ← digits? cs
  if ds.head? = some '0' && ds.length > 1 then none
  let (isFraction, cs) ← skipFraction cs
  let n := ds.foldl (fun n d => 10 * n + (d.toNat - '0'.toNat)) 0
  return (if negative || isFraction then number else natural n, cs)

mutual

/-- A value at the beginning of a text, and what follows it. -/
def readValue : (fuel : Nat) → List Char → Option (Tree × List Char)
  | 0, _ => none
  | fuel + 1, cs =>
    match skipBlanks cs with
    | '"' :: rest => do return (string, ← skipString rest.length.succ rest)
    | '[' :: rest =>
      match skipBlanks rest with
      | ']' :: rest => some (array [], rest)
      | rest => do
        let (items, rest) ← readItems fuel rest
        return (array items, rest)
    | '{' :: rest =>
      match skipBlanks rest with
      | '}' :: rest => some (object [], rest)
      | rest => do
        let (members, rest) ← readMembers fuel rest
        return (object members, rest)
    | 'n' :: 'u' :: 'l' :: 'l' :: rest => some (null, rest)
    | 't' :: 'r' :: 'u' :: 'e' :: rest => some (bool true, rest)
    | 'f' :: 'a' :: 'l' :: 's' :: 'e' :: rest => some (bool false, rest)
    | rest => readNumber rest

/-- The items of an array up to its end. -/
def readItems : (fuel : Nat) → List Char → Option (List Tree × List Char)
  | 0, _ => none
  | fuel + 1, cs => do
    let (item, rest) ← readValue fuel cs
    match skipBlanks rest with
    | ',' :: rest =>
      let (items, rest) ← readItems fuel rest
      return (item :: items, rest)
    | ']' :: rest => return ([item], rest)
    | _ => none

/-- The members of an object up to its end. -/
def readMembers : (fuel : Nat) → List Char → Option (List (Option String × Tree) × List Char)
  | 0, _ => none
  | fuel + 1, cs =>
    match skipBlanks cs with
    | '"' :: rest => do
      let name := (readName rest.length.succ rest).map fun (name, _) => String.ofList name
      match skipBlanks (← skipString rest.length.succ rest) with
      | ':' :: rest =>
        let (value, rest) ← readValue fuel rest
        let member := (name, value)
        match skipBlanks rest with
        | ',' :: rest =>
          let (members, rest) ← readMembers fuel rest
          return (member :: members, rest)
        | '}' :: rest => return ([member], rest)
        | _ => none
      | _ => none
    | _ => none

end

/-- The tree of a text. -/
def ofText (s : String) : Option Tree := do
  let cs := s.toList
  let (t, rest) ← readValue (2 * cs.length + 2) cs
  if skipBlanks rest = [] then some t else none

/-- The members of an object, if all of them have names. -/
def named? (members : List (Option String × Tree)) : Option (List (String × Tree)) :=
  members.mapM fun (name, value) => name.map (·, value)

/-- The value of a name that an object may hold once. -/
def member? (members : List (String × Tree)) (name : String) : Option (Option Tree) :=
  match members.filter (·.1 == name) with
  | [] => some none
  | [(_, value)] => some (some value)
  | _ => none

/-- A natural number below a bound. -/
def natural? (bound : Nat) : Tree → Option Nat
  | natural n => if n < bound then some n else none
  | _ => none

/-- A truth value. -/
def bool? : Tree → Option Bool
  | bool b => some b
  | _ => none

/-- The fields of a record, all of them required: an object by name, or an array
of exactly the values. -/
def fields? (names : List String) : Tree → Option (List Tree)
  | object members => do
    let members ← named? members
    names.mapM fun name => do (← member? members name)
  | array items => if items.length = names.length then some items else none
  | _ => none

end Tree

end SystolicGemm.Wire
