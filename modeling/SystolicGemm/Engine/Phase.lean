/-!
# Phases of the engine

A job walks its output tiles row by row. It starts by loading the first rows of
Y and X, then computes and stores tile after tile, and finishes. Every subcycle
of a phase moves at most one beat; what it moves is a `Transfer`.
-/

namespace SystolicGemm

/-- What the engine can ask to be woken up for. -/
inductive Event where
  | mainLoop
  | completion
  deriving DecidableEq, Repr

/-- The event in messages. -/
def Event.name : Event → String
  | mainLoop => "MainLoop"
  | completion => "Completion"

/-- The position of an output tile. -/
structure Tile where
  row : Nat
  col : Nat
  deriving DecidableEq, Repr, Inhabited

/-- One beat between memory and the tile store. -/
inductive Transfer where
  | loadX (row chunk rowTile : Nat)
  | loadW (k : Nat) (tile : Tile)
  | loadY (row : Nat) (tile : Tile)
  | storeZ (row : Nat) (tile : Tile)
  deriving DecidableEq, Repr

/-- Where the engine is in its job. -/
inductive Phase where
  | idle
  | starting (step : Nat)
  | computing (hyper cycle sub : Nat)
  | storing (cycle sub : Nat) (queue : List Transfer)
  | finished
  deriving DecidableEq, Repr, Inhabited

/-- The phase in status texts. -/
def Phase.name : Phase → String
  | idle => "idle"
  | starting .. => "starting"
  | computing .. => "computing"
  | storing .. => "storing"
  | finished => "finished"

end SystolicGemm
