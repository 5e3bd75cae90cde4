import SystolicGemm.Engine.Basic
import SystolicGemm.Wire.Text

/-!
# Job reports as text

The report that an interrupt carries. In a text all fields are required.
-/

namespace SystolicGemm

open Wire

namespace StreamStats

/-- The text of the counts. -/
def render (s : StreamStats) : String :=
  object [("transactions", toString s.transactions), ("bubbles", toString s.bubbles),
    ("bytes", toString s.bytes), ("latency", toString s.latency)]

/-- The counts of a tree. -/
def ofTree? (t : Tree) : Option StreamStats := do
  match ← (← t.fields? ["transactions", "bubbles", "bytes", "latency"]).mapM
      (Tree.natural? Word.limit) with
  | [transactions, bubbles, bytes, latency] => some ⟨transactions, bubbles, bytes, latency⟩
  | _ => none

end StreamStats

namespace JobReport

/-- The text of a report. -/
def render (r : JobReport) : String :=
  object [("cycles", toString r.cycles), ("tiles", toString r.tiles),
    ("hypercycles", toString r.hypercycles), ("store_phases", toString r.storePhases),
    ("x", r.x.render), ("w", r.w.render), ("y", r.y.render), ("z", r.z.render)]

/-- The report of a tree. -/
def ofTree? (t : Tree) : Option JobReport := do
  match ← t.fields? ["cycles", "tiles", "hypercycles", "store_phases", "x", "w", "y", "z"] with
  | [cycles, tiles, hypercycles, storePhases, x, w, y, z] =>
    return {
      cycles := ← cycles.natural? Word.limit
      tiles := ← tiles.natural? Word.limit
      hypercycles := ← hypercycles.natural? Word.limit
      storePhases := ← storePhases.natural? Word.limit
      x := ← StreamStats.ofTree? x
      w := ← StreamStats.ofTree? w
      y := ← StreamStats.ofTree? y
      z := ← StreamStats.ofTree? z }
  | _ => none

/-- The report that a text denotes. -/
def ofText? (s : String) : Option JobReport := do ofTree? (← Tree.ofText s)

end JobReport

end SystolicGemm
