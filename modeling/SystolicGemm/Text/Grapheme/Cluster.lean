import SystolicGemm.Text.Grapheme.Class

/-!
# Grapheme clusters

A text falls into clusters, each of which a reader takes for one character:
extended grapheme clusters by the rules of Unicode text segmentation. Whether a
cluster ends before a character is decided by its class and by what precedes it,
of which a `Reach` keeps what the rules ask for.
-/

namespace SystolicGemm.Text

namespace GraphemeClass

/-- Characters that stand alone, whatever is beside them. -/
def isControl : GraphemeClass → Bool
  | carriageReturn | lineFeed | control => true
  | _ => false

/-- Marks without space of their own. -/
def isExtending : GraphemeClass → Bool
  | extend | linker | nonJoiner => true
  | _ => false

/-- Whether two neighbours belong to one syllable of Hangul. -/
def isSyllable : GraphemeClass → GraphemeClass → Bool
  | leading, leading | leading, vowel | leading, openSyllable | leading, closedSyllable => true
  | openSyllable, vowel | openSyllable, trailing | vowel, vowel | vowel, trailing => true
  | closedSyllable, trailing | trailing, trailing => true
  | _, _ => false

end GraphemeClass

/-- What the characters before a place tell about it. -/
structure Reach where
  /-- The class of the last one. -/
  last : GraphemeClass
  /-- They end in a pictograph, marks that extend it, and no more than one joiner
  after these. -/
  pictograph : Bool
  /-- They end in a consonant with marks that extend it; whether there is a linker
  among these. -/
  consonant : Option Bool
  /-- They end in an odd number of regional indicators. -/
  oddIndicators : Bool
  deriving DecidableEq, Repr

namespace Reach

/-- The beginning of a text. No character joins what is not there. -/
def start : Reach := ⟨.control, false, none, false⟩

/-- What is known after one more character. -/
def next (r : Reach) (c : GraphemeClass) : Reach where
  last := c
  pictograph :=
    c == .pictograph ||
      (r.pictograph && r.last != .joiner && (c.isExtending || c == .joiner))
  consonant :=
    match c with
    | .consonant => some false
    | .linker => r.consonant.map fun _ => true
    | .extend | .joiner => r.consonant
    | _ => none
  oddIndicators := c == .regionalIndicator && !r.oddIndicators

/-- Whether a cluster ends before a character. -/
def breaksBefore (r : Reach) (c : GraphemeClass) : Bool :=
  if r.last == .carriageReturn && c == .lineFeed then false
  else if r.last.isControl || c.isControl then true
  else !(r.last.isSyllable c || c.isExtending || c == .joiner || c == .spacingMark
    || r.last == .prepend
    || (c == .consonant && r.consonant == some true)
    || (c == .pictograph && r.last == .joiner && r.pictograph)
    || (c == .regionalIndicator && r.oddIndicators))

end Reach

/-- What a text adds to the cluster that is open before it, and the clusters after
that one. -/
def splitCluster (r : Reach) : List Char → List Char × List (List Char)
  | [] => ([], [])
  | c :: cs =>
    let k := GraphemeClass.of c
    let rest := splitCluster (r.next k) cs
    if r.breaksBefore k then ([], (c :: rest.1) :: rest.2) else (c :: rest.1, rest.2)

/-- The clusters of a text. -/
def clusters (cs : List Char) : List (List Char) := (splitCluster .start cs).2

end SystolicGemm.Text
