/-!
# Ranges of code points

A property of characters as a table: the first and the last code point of each
range that has it.
-/

namespace SystolicGemm.Text

/-- Ranges of code points. -/
abbrev Ranges := Array (Nat × Nat)

/-- Whether a range of the table holds the character. -/
def Ranges.holds (ranges : Ranges) (c : Char) : Bool :=
  ranges.any fun (first, last) => first ≤ c.toNat && c.toNat ≤ last

end SystolicGemm.Text
