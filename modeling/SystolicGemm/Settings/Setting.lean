import SystolicGemm.Text.Lower
import SystolicGemm.Toml.Document
import SystolicGemm.Word

/-!
# Settings

Settings come in layers: tables merge name by name, and any other value replaces
what was there. Names do not depend on case.

A path leads into settings by names and by indices. What stands in its way gives
way to it: a name makes a table of what is none, an index an array, and an array
grows up to the index by holes.

A setting is read as what its reader wants, as far as it can mean that: a truth
value as a number, a number as text, text as a number or a truth value.
-/

namespace SystolicGemm

/-- A setting of some layer. -/
inductive Setting where
  /-- An item of an array that nothing has set. -/
  | hole
  | bool (b : Bool)
  | integer (n : Int)
  | float (x : Double)
  | text (s : String)
  | array (items : List Setting)
  | table (entries : List (String × Setting))

/-- One step of a path into settings. -/
inductive PathStep where
  | name (s : String)
  /-- An item of an array. A negative index counts from the end. -/
  | item (index : Int)
  deriving DecidableEq, Repr

namespace Setting

/-- The entries of a table; any other setting has none. -/
def entries : Setting → List (String × Setting)
  | table es => es
  | _ => []

/-- The items of an array; any other setting has none. -/
def items : Setting → List Setting
  | array items => items
  | _ => []

/-- The entries with another setting under a name. -/
def put (es : List (String × Setting)) (k : String) (s : Setting) : List (String × Setting) :=
  if es.any (·.1 == k) then es.map fun e => if e.1 == k then (k, s) else e
  else es ++ [(k, s)]

/-- The setting of a name, if there is one. -/
def find? (es : List (String × Setting)) (k : String) : Option Setting := List.lookup k es

mutual

/-- A setting of a later layer on top of another one, if there is one. A table with
nothing in it changes nothing. -/
def merge (below : Option Setting) : Setting → Setting
  | table [] => below.getD (table [])
  | table es => table (mergeEntries (below.elim [] entries) es)
  | s => s

/-- Entries under those of a later layer. -/
def mergeEntries (below : List (String × Setting)) :
    List (String × Setting) → List (String × Setting)
  | [] => below
  | (k, s) :: rest => mergeEntries (put below k (merge (find? below k) s)) rest

end

/-! ## Paths -/

/-- The place of an index among so many items. A negative one traps if it leads
before the first of them. -/
def place (index : Int) (count : Nat) : Checked Nat :=
  if 0 ≤ index then .ok index.toNat else Word.sub count index.natAbs

/-- The bytes that an item takes. -/
def itemBytes : Nat := 96

/-- The items with holes behind them up to a place. It traps if memory could not
hold that many. -/
def reachingTo (place : Nat) (items : List Setting) : Checked (List Setting) := do
  if place < items.length then return items
  let _ ← Word.capacity (itemBytes * (place + 1))
  return items ++ List.replicate (place + 1 - items.length) hole

/-- The setting with another one put in at a path: merged in under a name, and in
place of an item. -/
def setAt (s : Setting) (value : Setting) : List PathStep → Checked Setting
  | [] => .ok value
  | [.name k] => .ok (table (put s.entries k (merge (find? s.entries k) value)))
  | .name k :: path => do
    return table (put s.entries k (← ((find? s.entries k).getD hole).setAt value path))
  | .item index :: path => do
    let i ← place index s.items.length
    let items ← reachingTo i s.items
    return array (items.set i (← (items[i]?.getD hole).setAt value path))

/-- Characters of a name in a path. -/
def isPathChar (c : Char) : Bool := c.isAlphanum || c == ' ' || c == '_' || c == '-'

/-- A name in a path. -/
def pathName (cs : List Char) : Option (PathStep × List Char) :=
  let name := cs.takeWhile isPathChar
  if name = [] then none else some (.name (String.ofList name), cs.dropWhile isPathChar)

/-- An index in brackets, after the opening one. -/
def pathItem (cs : List Char) : Option (PathStep × List Char) :=
  let cs := cs.dropWhile Toml.isBlank
  let (negative, cs) :=
    match cs with
    | '-' :: cs => (true, cs)
    | cs => (false, cs)
  let ds := cs.takeWhile Char.isDigit
  let n := Decimal.ofDigits ds
  let index := if negative then -(n : Int) else n
  match (cs.dropWhile Char.isDigit).dropWhile Toml.isBlank with
  | ']' :: rest => if ds ≠ [] && Word.isSigned index then some (.item index, rest) else none
  | _ => none

/-- The steps of a path after its first name. -/
def pathRest : (fuel : Nat) → List Char → Option (List PathStep)
  | _, [] => some []
  | 0, _ => none
  | fuel + 1, c :: cs => do
    let (step, rest) ←
      if c == '.' then pathName cs
      else if c == '[' then pathItem cs
      else none
    return step :: (← pathRest fuel rest)

/-- The path that a name denotes: names with dots between them, and indices in
brackets. Any other text is a name as a whole. -/
def pathOf (s : String) : List PathStep :=
  let steps := do
    let (first, rest) ← pathName s.toList
    return first :: (← pathRest rest.length rest)
  steps.getD [.name s]

/-! ## Layers -/

mutual

/-- The setting of a value in a file. Names are in lower case. -/
def ofValue : Toml.Value → Setting
  | .string s => text s
  | .integer n => integer n
  | .float x => float x
  | .bool b => bool b
  | .datetime s => text s
  | .array items => array (ofItems items)
  | .table es => table (ofEntries es)

/-- The settings of the items of an array. -/
def ofItems : List Toml.Value → List Setting
  | [] => []
  | v :: rest => ofValue v :: ofItems rest

/-- The settings of the entries of a table. Those that share a name in lower case
are merged. -/
def ofEntries : List (String × Toml.Value) → List (String × Setting)
  | [] => []
  | (k, v) :: rest =>
    let (k, s, later) := (Text.lower k, ofValue v, ofEntries rest)
    match find? later k with
    | none => (k, s) :: later
    | some t => put later k (merge (some s) t)

end

/-- The settings with those of a file on top, whose names are paths. -/
def addFile (s : Setting) (entries : List (String × Toml.Value)) : Checked Setting :=
  (ofEntries entries).foldlM (fun s (k, v) => s.setAt v (pathOf k)) s

/-- The setting that the text of a variable stands for: a truth value or a
number if it reads as one. -/
def ofVariable (s : String) : Setting :=
  match Text.lower s with
  | "true" => bool true
  | "false" => bool false
  | _ =>
    match Decimal.readInt s with
    | some n => if Word.isSigned n then integer n else ofNumber s
    | none => ofNumber s
where
  ofNumber (s : String) : Setting :=
    match Decimal.readDouble s with
    | some x => float x
    | none => text s

/-- The settings with a variable of the environment on top, if its name has the
prefix in any case. The rest of the name is a path in which two underscores stand
for a dot. -/
def addVariable (start : String) (s : Setting) (name value : String) : Checked Setting :=
  let lowered := Text.lower name
  if lowered.startsWith start then
    let path := (lowered.drop start.length).toString.replace "__" "."
    s.setAt (ofVariable value) (pathOf path)
  else .ok s

/-! ## Reading -/

/-- The nearest natural number that fits a word, a half going up. -/
def roundNatural (x : Double) : Nat :=
  let most := Word.limit - 1
  match x.datum with
  | .nan => 0
  | .infinite negative => if negative then 0 else most
  | .finite negative m q =>
    if negative then 0
    else if 0 ≤ q then min most (m <<< q.toNat)
    else
      let unit := 1 <<< (-q).toNat
      min most ((2 * m + unit) / (2 * unit))

/-- A truth value by its name, in any case. -/
def truth? (yes no : List String) (s : String) : Option Bool :=
  if yes.contains (Text.lower s) then some true
  else if no.contains (Text.lower s) then some false
  else none

/-- The setting as a natural number below a bound. -/
def natural? (bound : Nat) (s : Setting) : Option Nat := do
  let n ←
    match s with
    | bool b => some b.toNat
    | integer n => if 0 ≤ n then some n.toNat else none
    | float x => some (roundNatural x)
    | text t =>
      match truth? ["true", "on", "yes"] ["false", "off", "no"] t with
      | some b => some b.toNat
      | none => Decimal.readNat t
    | hole | array _ | table _ => none
  if n < bound then some n else none

/-- The setting as a 32-bit word. -/
def word32? (s : Setting) : Option UInt32 := (s.natural? Word.limit32).map Nat.toUInt32

/-- The setting as a 64-bit word. -/
def word? (s : Setting) : Option Nat := s.natural? Word.limit

/-- The setting as a truth value. -/
def bool? : Setting → Option Bool
  | bool b => some b
  | integer n => some (n != 0)
  | float x => some (!x.isZero)
  | text t => truth? ["1", "true", "on", "yes"] ["0", "false", "off", "no"] t
  | hole | array _ | table _ => none

/-- The setting as text. -/
def text? : Setting → Option String
  | bool b => some (if b then "true" else "false")
  | integer n => some (toString n)
  | float x => some (Decimal.text .plain x)
  | text t => some t
  | hole | array _ | table _ => none

/-- Reads a setting, or takes a default where there is none. A hole is not none. -/
def orDefault {α : Type} (s : Option Setting) (d : α) (read : Setting → Option α) : Option α :=
  match s with
  | none => some d
  | some s => read s

/-- Reads a setting that may be left out, or be a hole. -/
def optional {α : Type} (s : Option Setting) (read : Setting → Option α) : Option (Option α) :=
  match s with
  | none | some hole => some none
  | some s => (read s).map some

/-- The fields of a section: a table has them by name, and an array in order. -/
def fields? (names : List String) : Setting → Option (String → Option Setting)
  | table es => some (find? es)
  | array items => some fun name => items[names.idxOf name]?
  | _ => none

end Setting

end SystolicGemm
