import SystolicGemm.Word

/-!
# Address patterns

A stream walks a loop nest of three counted levels, the innermost fastest, and
adds up the byte offsets of its levels. A level that reaches its length starts
over and carries into the next one; a fourth, uncounted offset grows each time
the outermost level starts over.
-/

namespace SystolicGemm

/-- One counted level: how often, and how many bytes further each time. A length
of zero counts as one. -/
structure Level where
  length : UInt32
  stride : Nat
  deriving DecidableEq, Repr, Inhabited

/-- A loop nest of beats. -/
structure Pattern where
  base : Nat
  /-- Beats after which the walk starts over. -/
  total : Nat
  inner : Level
  middle : Level
  outer : Level
  /-- Bytes further each time the outer level starts over. -/
  wrapStride : Nat
  deriving DecidableEq, Repr, Inhabited

/-- How far one level has come. -/
structure LevelPos where
  counter : Nat
  offset : Nat
  deriving DecidableEq, Repr, Inhabited

/-- How far a walk has come. -/
structure PatternPos where
  inner : LevelPos
  middle : LevelPos
  outer : LevelPos
  wrapOffset : Nat
  deriving DecidableEq, Repr, Inhabited

namespace Level

/-- Iterations of the level. -/
def count (d : Level) : Nat := max d.length.toNat 1

/-- The level one iteration on, and whether that made it start over. -/
def next (d : Level) (p : LevelPos) : Checked (LevelPos × Bool) := do
  let offset ← Word.add p.offset d.stride
  return if p.counter + 1 < d.count then (⟨p.counter + 1, offset⟩, false) else (⟨0, 0⟩, true)

end Level

namespace PatternPos

/-- Where every walk begins. -/
def origin : PatternPos := ⟨⟨0, 0⟩, ⟨0, 0⟩, ⟨0, 0⟩, 0⟩

/-- The sum of the offsets. -/
def offset (p : PatternPos) : Nat :=
  p.inner.offset + p.middle.offset + p.outer.offset + p.wrapOffset

end PatternPos

namespace Pattern

/-- No beats at all. -/
def none : Pattern := ⟨0, 0, ⟨0, 0⟩, ⟨0, 0⟩, ⟨0, 0⟩, 0⟩

/-- Beats after which the counted levels start over. -/
def period (p : Pattern) : Checked Nat := do
  Word.mul (← Word.mul p.inner.count p.middle.count) p.outer.count

/-- The address of the beat at a position. -/
def addr (p : Pattern) (pos : PatternPos) : Checked Nat :=
  Word.add p.base pos.offset

/-- The position of the next beat. -/
def next (p : Pattern) (pos : PatternPos) : Checked PatternPos := do
  let (inner, carry) ← p.inner.next pos.inner
  if !carry then return { pos with inner }
  let (middle, carry) ← p.middle.next pos.middle
  if !carry then return { pos with inner, middle }
  let (outer, carry) ← p.outer.next pos.outer
  if !carry then return { pos with inner, middle, outer }
  return { inner, middle, outer, wrapOffset := ← Word.add pos.wrapOffset p.wrapStride }

end Pattern

end SystolicGemm
