import SystolicGemm.Text.Grapheme.Cluster
import SystolicGemm.Word

/-!
# Backspaces

A line as it was typed can hold backspaces. Each of them takes away the last
cluster that is left, and one with nothing before it does nothing.

What is taken away is counted in bytes, and the length of a cluster is kept in
one byte. So of a cluster of 256 bytes or more a backspace takes away too
little, and it traps if the cut would come to lie inside a character.
-/

namespace SystolicGemm.Text

/-- The length of characters in bytes. -/
def byteLength : List Char → Nat
  | [] => 0
  | c :: cs => c.utf8Size + byteLength cs

/-- The character that takes away what is before it. -/
def backspace : Char := '\x08'

/-- Characters, listed last first, without so many bytes at their end. -/
def dropBytes : (bytes : Nat) → List Char → Checked (List Char)
  | 0, cs => .ok cs
  | _, [] => .ok []
  | bytes, c :: cs =>
    if c.utf8Size ≤ bytes then dropBytes (bytes - c.utf8Size) cs else .error .brokenCharacter

/-- A line while it is typed. -/
structure Typed where
  /-- What is left so far, last character first. -/
  left : List Char
  /-- The lengths of the clusters that are left, last one first, each in one byte. -/
  lengths : List Nat
  deriving DecidableEq, Repr

namespace Typed

/-- Nothing is typed yet. -/
def empty : Typed := ⟨[], []⟩

/-- The line after one more cluster. -/
def type (t : Typed) (cluster : List Char) : Checked Typed :=
  if cluster = [backspace] then
    match t.lengths with
    | [] => .ok t
    | n :: lengths => do return ⟨← dropBytes n t.left, lengths⟩
  else .ok ⟨cluster.reverse ++ t.left, byteLength cluster % 256 :: t.lengths⟩

end Typed

/-- What is left of a line after its backspaces. -/
def applyBackspaces (cs : List Char) : Checked (List Char) := do
  return (← (clusters cs).foldlM Typed.type .empty).left.reverse

end SystolicGemm.Text
