import SystolicGemm.Wire.Text
import SystolicGemm.Word

/-!
# Register accesses

A request to read or write a register, and the answer to a read, which is the
request with the value filled in. In a text the offset is required, a missing
write mark means a read and a missing value is zero.
-/

namespace SystolicGemm

/-- An access to a register. -/
structure RegisterAccess where
  offset : UInt32
  write : Bool
  value : UInt32
  deriving DecidableEq, Repr, Inhabited

namespace RegisterAccess

open Wire

/-- The access that reads a register. -/
def reading (offset : UInt32) : RegisterAccess := ⟨offset, false, 0⟩

/-- The access that writes a register. -/
def writing (offset value : UInt32) : RegisterAccess := ⟨offset, true, value⟩

/-- The text of an access. -/
def render (a : RegisterAccess) : String :=
  object [("offset", toString a.offset), ("write", bool a.write), ("value", toString a.value)]

/-- A field that takes its default if it is missing. -/
def orDefault {α : Type} (d : α) (read : Tree → Option α) : Option Tree → Option α
  | some t => read t
  | none => some d

/-- A 32-bit number. -/
def word32? (t : Tree) : Option UInt32 := (t.natural? Word.limit32).map Nat.toUInt32

/-- The access of a tree: an object, or an array of the fields in order. -/
def ofTree? : Tree → Option RegisterAccess
  | .object members => do
    let members ← Tree.named? members
    let offset ← word32? (← (← Tree.member? members "offset"))
    let write ← orDefault false Tree.bool? (← Tree.member? members "write")
    let value ← orDefault 0 word32? (← Tree.member? members "value")
    return ⟨offset, write, value⟩
  | .array (offset :: rest) => do
    let offset ← word32? offset
    let write ← orDefault false Tree.bool? rest[0]?
    let value ← orDefault 0 word32? rest[1]?
    if rest.length ≤ 2 then some ⟨offset, write, value⟩ else none
  | _ => none

/-- The access that a text denotes. -/
def ofText? (s : String) : Option RegisterAccess := do ofTree? (← Tree.ofText s)

end RegisterAccess

end SystolicGemm
