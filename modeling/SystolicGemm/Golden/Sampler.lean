import SystolicGemm.Word

/-!
# The sampler

Seeded random words: the ChaCha key stream with twelve rounds, its key drawn
from the seed by a permuted congruential generator. Numbers in a range come from
words by taking the high half of a product and rejecting words whose low half
would favour some numbers.
-/

namespace SystolicGemm

/-- Four words, one per column. -/
structure Row where
  a : UInt32
  b : UInt32
  c : UInt32
  d : UInt32
  deriving DecidableEq, Repr, Inhabited

namespace Row

/-- Column by column. -/
def zip (f : UInt32 → UInt32 → UInt32) (x y : Row) : Row :=
  ⟨f x.a y.a, f x.b y.b, f x.c y.c, f x.d y.d⟩

/-- Bits rotated to the left, in each word. -/
def rotateBits (n : UInt32) (x : Row) : Row :=
  let rot (w : UInt32) := w <<< n ||| w >>> (32 - n)
  ⟨rot x.a, rot x.b, rot x.c, rot x.d⟩

/-- The columns moved one to the left. -/
def shift (x : Row) : Row := ⟨x.b, x.c, x.d, x.a⟩

/-- The words in order. -/
def toList (x : Row) : List UInt32 := [x.a, x.b, x.c, x.d]

instance : Add Row := ⟨zip (· + ·)⟩
instance : XorOp Row := ⟨zip (· ^^^ ·)⟩

end Row

/-- The state of the key stream, a square of words. -/
structure ChaCha where
  r0 : Row
  r1 : Row
  r2 : Row
  r3 : Row
  deriving DecidableEq, Repr, Inhabited

namespace ChaCha

/-- Half of a quarter round on all four columns. -/
def mix (turn turn' : UInt32) (s : ChaCha) : ChaCha :=
  let r0 := s.r0 + s.r1
  let r3 := (s.r3 ^^^ r0).rotateBits turn
  let r2 := s.r2 + r3
  let r1 := (s.r1 ^^^ r2).rotateBits turn'
  ⟨r0, r1, r2, r3⟩

/-- A round on the columns. -/
def columnRound (s : ChaCha) : ChaCha := (s.mix 16 12).mix 8 7

/-- The diagonals as columns. -/
def diagonals (s : ChaCha) : ChaCha :=
  ⟨s.r0, s.r1.shift, s.r2.shift.shift, s.r3.shift.shift.shift⟩

/-- The columns as diagonals. -/
def undiagonals (s : ChaCha) : ChaCha :=
  ⟨s.r0, s.r1.shift.shift.shift, s.r2.shift.shift, s.r3.shift⟩

/-- A round on the columns and one on the diagonals. -/
def doubleRound (s : ChaCha) : ChaCha := s.columnRound.diagonals.columnRound.undiagonals

/-- The key stream block of a state: twelve rounds, added to the state. -/
def block (s : ChaCha) : List UInt32 :=
  let t := Nat.repeat doubleRound 6 s
  (s.r0 + t.r0).toList ++ (s.r1 + t.r1).toList ++ (s.r2 + t.r2).toList ++ (s.r3 + t.r3).toList

/-- The state of block `counter` under a key. -/
def ofKey (low high : Row) (counter : UInt64) : ChaCha :=
  ⟨⟨0x61707865, 0x3320646E, 0x79622D32, 0x6B206574⟩, low, high,
    ⟨counter.toUInt32, (counter >>> 32).toUInt32, 0, 0⟩⟩

end ChaCha

/-- A key stream, and the words of its current block that are left. -/
structure Sampler where
  keyLow : Row
  keyHigh : Row
  counter : UInt64
  words : List UInt32
  deriving Repr, Inhabited

namespace Sampler

/-- The next word of the generator that spreads a seed over a key. -/
def keyWord (s : UInt64) : UInt32 × UInt64 :=
  let s := s * 6364136223846793005 + 11634580027462260723
  let x := (((s >>> 18) ^^^ s) >>> 27).toUInt32
  let turn := (s >>> 59).toUInt32
  (x >>> turn ||| x <<< ((32 - turn) % 32), s)

/-- Four words of the key. -/
def keyRow (s : UInt64) : Row × UInt64 :=
  let (a, s) := keyWord s
  let (b, s) := keyWord s
  let (c, s) := keyWord s
  let (d, s) := keyWord s
  (⟨a, b, c, d⟩, s)

/-- The sampler of a seed. -/
def ofSeed (seed : UInt64) : Sampler :=
  let (low, s) := keyRow seed
  let (high, _) := keyRow s
  ⟨low, high, 0, []⟩

/-- The next word. -/
def next (s : Sampler) : UInt32 × Sampler :=
  match s.words with
  | w :: words => (w, { s with words })
  | [] =>
    match (ChaCha.ofKey s.keyLow s.keyHigh s.counter).block with
    | w :: words => (w, { s with counter := s.counter + 1, words })
    | [] => (0, s)

/-- The words of a key stream before it starts over. -/
def period : Nat := 1 <<< 62

/-- The highest low half of a product that keeps the numbers below seventeen
equally likely. -/
def zone : Nat := 0x87FFFFFF

/-- A number below seventeen, each equally likely. -/
def below17 : (fuel : Nat) → Sampler → Nat × Sampler
  | 0, s => (0, s)
  | fuel + 1, s =>
    let (word, s) := s.next
    let p := word.toNat * 17
    if p % Word.limit32 ≤ zone then (p / Word.limit32, s) else below17 fuel s

/-- An integer between minus eight and eight. -/
def step (s : Sampler) : Int × Sampler :=
  let (n, s) := below17 period s
  ((n : Int) - 8, s)

end Sampler

end SystolicGemm
