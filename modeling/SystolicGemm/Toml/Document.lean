import SystolicGemm.Toml.Timestamp

/-!
# TOML documents

A document is a sequence of lines: headers that open a table, and keys with
values that go into the open one. The tree under construction remembers of each
table how it came to be, since a table can be opened by one header only, and one
that came about through dotted keys by none.
-/

namespace SystolicGemm.Toml

/-- A part of a document under construction. -/
inductive Node where
  | value (v : Value)
  /-- A table. It is implicit until a header opens it, and dotted if it came
  about through a dotted key. -/
  | table (isImplicit dotted : Bool) (entries : List (String × Node))
  /-- Tables of one name, of which the last one is open. -/
  | tables (items : List (List (String × Node)))

/-- The entries of a table. -/
abbrev Entries := List (String × Node)

namespace Entries

/-- The entry of a name. -/
def find? (es : Entries) (k : String) : Option Node := List.lookup k es

/-- The entries with another node under a name. -/
def put (es : Entries) (k : String) (n : Node) : Entries :=
  if es.any (·.1 == k) then es.map fun e => if e.1 == k then (k, n) else e
  else es ++ [(k, n)]

/-- Changes the table at a path, of which missing tables come about. The change
is told whether its table came about through a dotted key. -/
def modifyAt (dotted : Bool) (change : Bool → Entries → Option Entries) :
    List String → (isDotted : Bool) → Entries → Option Entries
  | [], isDotted, es => change isDotted es
  | k :: path, _, es => do
    match es.find? k with
    | none => return es.put k (.table true dotted (← modifyAt dotted change path dotted []))
    | some (.value _) => none
    | some (.tables items) =>
      let last ← modifyAt dotted change path false (← items.getLast?)
      return es.put k (.tables (items.dropLast ++ [last]))
    | some (.table isImplicit d sub) =>
      if dotted && !isImplicit then none
      else return es.put k (.table isImplicit d (← modifyAt dotted change path d sub))

/-- Adds a key with a value to a table, through a table for each part of a
dotted key. -/
def addKey (es : Entries) (path : List String) (v : Value) : Option Entries := do
  let key ← path.getLast?
  let parents := path.dropLast
  modifyAt true (fun isDotted es =>
    if isDotted == parents.isEmpty || (es.find? key).isSome then none
    else some (es.put key (.value v))) parents false es

/-- Opens the table of a header. -/
def openTable (es : Entries) (path : List String) : Option Entries := do
  let key ← path.getLast?
  modifyAt false (fun _ es =>
    match es.find? key with
    | none => some (es.put key (.table false false []))
    | some (.table true false sub) => some (es.put key (.table false false sub))
    | some _ => none) path.dropLast false es

/-- Opens one more table of a name. -/
def openItem (es : Entries) (path : List String) : Option Entries := do
  let key ← path.getLast?
  modifyAt false (fun _ es =>
    match es.find? key with
    | none => some (es.put key (.tables [[]]))
    | some (.tables items) => some (es.put key (.tables (items ++ [[]])))
    | some _ => none) path.dropLast false es

end Entries

mutual

/-- The value of a finished part. -/
def Node.finish : Node → Value
  | .value v => v
  | .table _ _ es => .table (finishEntries es)
  | .tables items => .array (finishItems items)

/-- The values of finished entries. -/
def finishEntries : List (String × Node) → List (String × Value)
  | [] => []
  | (k, n) :: rest => (k, n.finish) :: finishEntries rest

/-- The values of finished tables of one name. -/
def finishItems : List (List (String × Node)) → List Value
  | [] => []
  | es :: rest => .table (finishEntries es) :: finishItems rest

end

/-! ## Keys and values -/

/-- Characters of a bare key. -/
def isBare (c : Char) : Bool := c.isAlphanum || c == '_' || c == '-'

/-- One part of a key. -/
def keyPart : Reader String := fun cs =>
  match cs with
  | '"' :: _ | '\'' :: _ => shortString cs
  | _ =>
    let name := cs.takeWhile isBare
    if name = [] then none else some (String.ofList name, cs.dropWhile isBare)

/-- How deep arrays and inline tables may be nested, and dotted keys may go. -/
def maxDepth : Nat := 80

/-- The parts of a key, with dots between them and blanks around both. -/
def keyParts : (fuel : Nat) → Reader (List String)
  | 0, _ => none
  | fuel + 1, cs => do
    let (part, rest) ← keyPart (skipBlanks cs)
    match skipBlanks rest with
    | '.' :: rest =>
      let (parts, rest) ← keyParts fuel rest
      return (part :: parts, rest)
    | rest => return ([part], rest)

/-- A key. -/
def key : Reader (List String) := fun cs => do
  let (parts, rest) ← keyParts maxDepth cs
  if parts.length < maxDepth then some (parts, rest) else none

mutual

/-- A value, inside `depth` others. -/
def value : (fuel depth : Nat) → Reader Value
  | 0, _, _ => none
  | fuel + 1, depth, cs =>
    match cs with
    | '"' :: _ | '\'' :: _ => do
      let (s, rest) ← string cs
      return (.string s, rest)
    | '[' :: rest =>
      if depth + 1 < maxDepth then do
        let (items, rest) ← arrayItems fuel (depth + 1) rest
        return (.array items, rest)
      else none
    | '{' :: rest =>
      if depth + 1 < maxDepth then
        match skipBlanks rest with
        | '}' :: rest => some (.table [], rest)
        | rest => do
          let (es, rest) ← inlineEntries fuel (depth + 1) [] rest
          return (.table (finishEntries es), rest)
      else none
    | 't' :: 'r' :: 'u' :: 'e' :: rest => some (.bool true, rest)
    | 'f' :: 'a' :: 'l' :: 's' :: 'e' :: rest => some (.bool false, rest)
    | _ => (datetime cs).or (number cs)

/-- The items of an array up to its end. Line breaks and comments may stand
between them, and a comma after the last one. -/
def arrayItems : (fuel depth : Nat) → Reader (List Value)
  | 0, _, _ => none
  | fuel + 1, depth, cs =>
    match skipLines cs.length cs with
    | ']' :: rest => some ([], rest)
    | cs => do
      let (item, rest) ← value fuel depth cs
      match skipLines rest.length rest with
      | ',' :: rest =>
        let (items, rest) ← arrayItems fuel depth rest
        return (item :: items, rest)
      | ']' :: rest => return ([item], rest)
      | _ => none

/-- The entries of an inline table up to its end, added to those before. -/
def inlineEntries : (fuel depth : Nat) → Entries → Reader Entries
  | 0, _, _, _ => none
  | fuel + 1, depth, es, cs => do
    let (path, rest) ← key cs
    match rest with
    | '=' :: rest =>
      let (v, rest) ← value fuel depth (skipBlanks rest)
      let es ← es.addKey path v
      match skipBlanks rest with
      | ',' :: rest => inlineEntries fuel depth es rest
      | '}' :: rest => return (es, rest)
      | _ => none
    | _ => none

end

/-! ## Lines -/

/-- A document under construction, and the path of the open table. -/
structure Draft where
  root : Entries
  path : List String

namespace Draft

/-- The draft with a key added to the open table. -/
def addKey (d : Draft) (path : List String) (v : Value) : Option Draft := do
  let root ← Entries.modifyAt false (fun _ es => es.addKey path v) d.path false d.root
  return { d with root }

/-- The draft after a header up to its closing brackets. -/
def header (d : Draft) (cs : List Char) : Option (Draft × List Char) := do
  match cs with
  | '[' :: rest =>
    let (path, rest) ← key rest
    match rest with
    | ']' :: ']' :: rest => return (⟨← d.root.openItem path, path⟩, rest)
    | _ => none
  | rest =>
    let (path, rest) ← key rest
    match rest with
    | ']' :: rest => return (⟨← d.root.openTable path, path⟩, rest)
    | _ => none

/-- The draft after a key with its value. -/
def assignment (d : Draft) (cs : List Char) : Option (Draft × List Char) := do
  let (path, rest) ← key cs
  match rest with
  | '=' :: rest =>
    let rest := skipBlanks rest
    let (v, rest) ← value (2 * rest.length + 2) 0 rest
    return (← d.addKey path v, rest)
  | _ => none

/-- The draft after all lines. -/
def lines : (fuel : Nat) → Draft → List Char → Option Draft
  | 0, d, _ => some d
  | fuel + 1, d, cs => do
    match skipLines cs.length cs with
    | [] => return d
    | '[' :: rest =>
      let (d, rest) ← d.header rest
      lines fuel d (← endLine? rest)
    | cs =>
      let (d, rest) ← d.assignment cs
      lines fuel d (← endLine? rest)

end Draft

/-- The entries of a document. A byte order mark in front of it does not count. A
document that stands for a date or a time has none. -/
def parse (text : String) : Option (List (String × Value)) := do
  let cs :=
    match text.toList with
    | '\ufeff' :: cs => cs
    | cs => cs
  let d ← Draft.lines (cs.length + 1) ⟨[], []⟩ cs
  match ← (Value.table (finishEntries d.root)).settle with
  | .table entries => some entries
  | _ => none

end SystolicGemm.Toml
