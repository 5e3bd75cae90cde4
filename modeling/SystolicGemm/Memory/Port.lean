import SystolicGemm.Strobe
import SystolicGemm.Word

/-!
# Memory ports

The accelerator reaches memory through a port, one beat at a time. A port is any
state with an `access` operation. What it answers and how long that takes is its
own affair; the accelerator relies on nothing else.
-/

namespace SystolicGemm

/-- Which way a beat goes. -/
inductive Direction where
  | read
  | write
  deriving DecidableEq, Repr

/-- What became of a beat. -/
inductive Status where
  | ok
  | pending
  | denied
  | invalid
  deriving DecidableEq, Repr

/-- The status in messages. -/
def Status.name : Status → String
  | ok => "Ok"
  | pending => "Pending"
  | denied => "Denied"
  | invalid => "Invalid"

/-- One beat. The data of a write is what to store; that of a read is what the
receiving slot holds before it. -/
structure Request where
  direction : Direction
  addr : Nat
  data : Bytes
  strobe : Strobe
  deriving DecidableEq, Repr

/-- The answer to a beat, with the data after it. -/
structure Reply where
  status : Status
  latency : Nat
  data : Bytes
  deriving DecidableEq, Repr

/-- How a port can give no answer at all. -/
inductive PortFault where
  /-- An earlier user of the port stopped in the middle of an access. -/
  | poisoned
  | trap (t : Trap)
  deriving DecidableEq, Repr

/-- A state that serves beats. -/
class Port (π : Type) where
  access : Request → EStateM PortFault π Reply

end SystolicGemm
