import SystolicGemm.Element
import SystolicGemm.Word

/-!
# Array geometry

A systolic array of `height` rows with `pipeRegs` registers each is
`height * pipeRegs` elements wide. That width is the edge of a tile and the
number of elements of a beat, and one strobe bit per byte has to cover a beat.
-/

namespace SystolicGemm

/-- The shape of the array and the format of its elements. -/
structure Geometry where
  height : Nat
  pipeRegs : Nat
  format : Element
  deriving DecidableEq, Repr, Inhabited

/-- Why an array cannot be built. -/
inductive GeometryFlaw where
  | empty (height pipeRegs : Nat)
  | beatTooWide (width elementBytes : Nat)
  deriving DecidableEq, Repr

namespace Geometry

/-- The widest beat that a strobe covers, in bytes. -/
def maxBeatBytes : Nat := 64

/-- Elements per beat, and the edge of a tile. -/
def width (g : Geometry) : Nat := g.height * g.pipeRegs

/-- Subcycles per cycle. -/
def depth (g : Geometry) : Nat := g.pipeRegs + 1

/-- Bytes per element. -/
def elementBytes (g : Geometry) : Nat := g.format.bytes

/-- Bytes per beat. -/
def beatBytes (g : Geometry) : Nat := g.width * g.elementBytes

/-- The width, if it fits a word. -/
def checkedWidth (g : Geometry) : Checked Nat := Word.mul g.height g.pipeRegs

/-- The bytes of a beat, if they fit a word. -/
def checkedBeatBytes (g : Geometry) : Checked Nat := do
  Word.mul (← g.checkedWidth) g.elementBytes

/-- Accepts an array that is not empty and whose beat the strobe covers. -/
def validate (g : Geometry) : Outcome GeometryFlaw Unit := do
  ensure (g.height ≠ 0 ∧ g.pipeRegs ≠ 0) (GeometryFlaw.empty g.height g.pipeRegs)
  let beat ← g.checkedBeatBytes
  ensure (beat ≤ maxBeatBytes) (GeometryFlaw.beatTooWide g.width g.elementBytes)

end Geometry

/-- The flaw in words. -/
def GeometryFlaw.message : GeometryFlaw → String
  | empty height pipeRegs =>
    s!"array_height ({height}) and pipe_regs ({pipeRegs}) must be non-zero"
  | beatTooWide width elementBytes =>
    s!"beat of {width} x {elementBytes} bytes exceeds the {Geometry.maxBeatBytes}-byte strobe"

end SystolicGemm
