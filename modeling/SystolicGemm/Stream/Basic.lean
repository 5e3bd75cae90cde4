import SystolicGemm.Failure

/-!
# Streams

A stream moves one operand beat by beat along a pattern. Each beat is one access
to the port; a step without a beat is a bubble. Both cost time, and the stream
keeps count of what they cost.

A walk that has come to the end of its pattern starts over with the next beat.
-/

namespace SystolicGemm

/-- What a stream has done since it was configured. -/
structure StreamStats where
  transactions : Nat
  bubbles : Nat
  bytes : Nat
  latency : Nat
  deriving DecidableEq, Repr, Inhabited

/-- Nothing done yet. -/
def StreamStats.none : StreamStats := ⟨0, 0, 0, 0⟩

/-- A walk of one operand along a pattern. -/
structure Stream where
  operand : Operand
  direction : Direction
  beatBytes : Nat
  pattern : Pattern
  pos : PatternPos
  /-- Beats since the walk last started over. -/
  done : Nat
  stats : StreamStats
  deriving DecidableEq, Repr

namespace Stream

variable {π : Type}

/-- A stream with no pattern. -/
def unconfigured (operand : Operand) (direction : Direction) (beatBytes : Nat) : Stream :=
  ⟨operand, direction, beatBytes, .none, .origin, 0, .none⟩

/-- The stream at the beginning of a pattern. -/
def configure (s : Stream) (p : Pattern) : Stream :=
  { s with pattern := p, pos := .origin, done := 0, stats := .none }

/-- Whether the walk is at the end of its pattern. -/
def isDone (s : Stream) : Bool := s.done == s.pattern.total

/-- The address of the next beat. -/
def addr (s : Stream) : Checked Nat := s.pattern.addr s.pos

/-- The stream before a beat: at the end of a pattern the count starts over. -/
def rewind (s : Stream) : Stream := if s.isDone then { s with done := 0 } else s

/-- The stream past a beat. -/
def advance (s : Stream) : Checked Stream := do
  let done ← Word.add s.done 1
  if done = s.pattern.total then return { s with done, pos := .origin }
  else return { s with done, pos := ← s.pattern.next s.pos }

/-- The stream past a beat of the given cost, and all costs counted. -/
def complete (s : Stream) (latency : Nat) (strobe : Strobe) : Checked Stream := do
  let s ← s.advance
  let stats : StreamStats := {
    s.stats with
    transactions := ← Word.add s.stats.transactions 1
    bytes := ← Word.add s.stats.bytes (strobe.count s.beatBytes)
    latency := ← Word.add s.stats.latency latency }
  return { s with stats }

/-- The stream after a step without a beat. -/
def idle (s : Stream) : Checked Stream := do
  let stats : StreamStats := {
    s.stats with
    bubbles := ← Word.add s.stats.bubbles 1
    latency := ← Word.add s.stats.latency 1 }
  return { s with stats }

/-- A step without a beat. It takes one cycle. -/
def bubble : Run Failure (Stream × π) Nat := fun (s, port) =>
  match s.idle with
  | .ok s => .ok 1 (s, port)
  | .error t => .error (.trap t) (s, port)

/-- Moves one beat. It takes one cycle and the time of the port; the result
holds that time and the data after the access. -/
def beat [Port π] (data : Bytes) (strobe : Strobe) : Run Failure (Stream × π) (Nat × Bytes) :=
  fun (s, port) =>
    if data.length ≠ s.beatBytes then
      .error (.error (.slotWidth s.operand s.beatBytes data.length)) (s, port)
    else
      let s := s.rewind
      match s.addr with
      | .error t => .error (.trap t) (s, port)
      | .ok addr =>
        match Port.access ⟨s.direction, addr, data, strobe⟩ port with
        | .error .poisoned port => .error (.error .portPoisoned) (s, port)
        | .error (.trap t) port => .error (.trap t) (s, port)
        | .ok reply port =>
          if reply.status ≠ .ok then
            .error (.error (.transaction s.operand addr reply.status)) (s, port)
          else
            match Word.add reply.latency 1 >>= fun latency =>
                return (latency, ← s.complete latency strobe) with
            | .error t => .error (.trap t) (s, port)
            | .ok (latency, s) => .ok (latency, reply.data) (s, port)

end Stream

end SystolicGemm
