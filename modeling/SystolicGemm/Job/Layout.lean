import SystolicGemm.Word

/-!
# Problem shapes and buffer layouts

A problem is `Z = Y + X * W` with an `m x n` matrix X and an `n x k` matrix W.
The packed layout places the four matrices one after the other from a base
address on, each on a multiple of 64 bytes, with no gap between the rows except
a guard after every row of Y and Z.
-/

namespace SystolicGemm

/-- The size of a problem. -/
structure Shape where
  m : Nat
  n : Nat
  k : Nat
  deriving DecidableEq, Repr, Inhabited

/-- Where the matrices lie, and their row pitches in bytes. -/
structure Layout where
  xAddr : UInt32
  wAddr : UInt32
  yAddr : UInt32
  zAddr : UInt32
  xPitch : UInt32
  wPitch : UInt32
  yzPitch : UInt32
  deriving DecidableEq, Repr, Inhabited

namespace Layout

/-- The alignment of matrices in a packed layout. -/
def alignment : Nat := 64

/-- The next multiple of the alignment. -/
def align (addr : Nat) : Nat := (addr + (alignment - 1)) / alignment * alignment

theorem le_align (addr : Nat) : addr ≤ align addr := by
  unfold align alignment
  omega

theorem align_mod (addr : Nat) : align addr % alignment = 0 := Nat.mul_mod_left ..

/-- A number that fits a 64-bit word. -/
def word? (n : Nat) : Option Nat := if n < Word.limit then some n else none

/-- A number that fits a 32-bit word. -/
def word32? (n : Nat) : Option UInt32 := if n < Word.limit32 then some n.toUInt32 else none

/-- The next multiple of the alignment, if the way there fits a word. -/
def align? (addr : Nat) : Option Nat := (word? (addr + (alignment - 1))).map fun _ => align addr

/-- Where the next matrix starts after one of `rows` rows. -/
def after? (addr pitch rows : Nat) : Option Nat := do
  let len ← word? (pitch * rows)
  align? (← word? (addr + len))

/-- The record in messages. -/
def describe (l : Layout) : String :=
  String.join [
    "BufferLayout \x7b ",
    s!"x_addr: {l.xAddr}, w_addr: {l.wAddr}, y_addr: {l.yAddr}, z_addr: {l.zAddr}, ",
    s!"x_pitch: {l.xPitch}, w_pitch: {l.wPitch}, yz_pitch: {l.yzPitch} \x7d"]

/-- First byte past the Z matrix. -/
def finish (l : Layout) (shape : Shape) : Checked Nat := do
  Word.add l.zAddr.toNat (← Word.mul l.yzPitch.toNat shape.m)

/-- The packed layout before the check on its end: all addresses and pitches
have to be 32-bit words. -/
def place? (base : UInt32) (shape : Shape) (elementBytes : Nat) (guard : UInt32) :
    Option Layout := do
  let xPitch ← word? (shape.n * elementBytes)
  let wPitch ← word? (shape.k * elementBytes)
  let yzPitch ← word? (wPitch + guard.toNat)
  let xAddr ← align? base.toNat
  let wAddr ← after? xAddr xPitch shape.m
  let yAddr ← after? wAddr wPitch shape.n
  let zAddr ← after? yAddr yzPitch shape.m
  return {
    xAddr := ← word32? xAddr
    wAddr := ← word32? wAddr
    yAddr := ← word32? yAddr
    zAddr := ← word32? zAddr
    xPitch := ← word32? xPitch
    wPitch := ← word32? wPitch
    yzPitch := ← word32? yzPitch }

/-- The packed layout, if it fits a 32-bit address space. -/
def packed (base : UInt32) (shape : Shape) (elementBytes : Nat) (guard : UInt32) :
    Checked (Option Layout) :=
  match place? base shape elementBytes guard with
  | none => .ok none
  | some l => return if (← l.finish shape) ≤ Word.limit32 then some l else none

end Layout

end SystolicGemm
