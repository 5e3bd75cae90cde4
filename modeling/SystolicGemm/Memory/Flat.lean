import SystolicGemm.Block
import SystolicGemm.Memory.Port

/-!
# Flat memory

Byte-addressed memory from `base` on, answering every beat after the same time.

A beat is served if its enabled bytes lie inside, wherever the masked ones are:
the check takes the run from the first enabled byte to the last. A beat with no
enabled byte is served at any address. A write stores the enabled bytes; a read
returns them among zeros.
-/

namespace SystolicGemm

/-- A run of memory, and how many beats it has served. The program keeps these counts in
64-bit words, which no run is long enough to fill; here they have no bound. -/
structure Memory where
  base : Nat
  block : Block
  latency : Nat
  reads : Nat
  writes : Nat
  deriving Repr, Inhabited

namespace Memory

/-- Zeroed memory of `size` bytes. -/
def zeroed (base size latency : Nat) : Memory := ⟨base, .zeros size, latency, 0, 0⟩

/-- Bytes of memory. -/
def size (m : Memory) : Nat := m.block.size

/-- The byte at an address, zero outside. -/
def byte (m : Memory) (addr : Nat) : UInt8 :=
  if m.base ≤ addr then m.block.byte (addr - m.base) else 0

/-- Where `len` bytes from `addr` on start in the block, if they all lie inside. -/
def offset? (m : Memory) (addr len : Nat) : Option Nat :=
  if m.base ≤ addr ∧ addr - m.base + len ≤ m.size then some (addr - m.base) else none

/-- The memory with bytes written, if they lie inside. -/
def writeBytes? (m : Memory) (addr : Nat) (raw : Bytes) : Option Memory :=
  (m.offset? addr raw.length).map fun start => { m with block := m.block.write start raw }

/-- The bytes at an address, if they lie inside. -/
def readBytes? (m : Memory) (addr len : Nat) : Option Bytes :=
  (m.offset? addr len).map fun start => m.block.read start len

theorem offset?_eq_some_iff {m : Memory} {addr len start : Nat} :
    m.offset? addr len = some start ↔
      (m.base ≤ addr ∧ addr - m.base + len ≤ m.size) ∧ start = addr - m.base := by
  unfold offset?
  split
  · next h => simp [h, eq_comm]
  · next h => simp [h]

/-- What was written is read back. -/
theorem readBytes?_writeBytes? {m n : Memory} {addr : Nat} {raw : Bytes}
    (h : m.writeBytes? addr raw = some n) : n.readBytes? addr raw.length = some raw := by
  obtain ⟨start, hs, rfl⟩ := Option.map_eq_some_iff.mp h
  obtain ⟨⟨hle, hin⟩, rfl⟩ := offset?_eq_some_iff.mp hs
  have hn : offset? { m with block := m.block.write (addr - m.base) raw } addr raw.length =
      some (addr - m.base) :=
    offset?_eq_some_iff.mpr ⟨⟨hle, by rwa [size, Block.size_write]⟩, rfl⟩
  rw [readBytes?, hn, Option.map_some, Block.read_write hin]

/-- The enabled bytes of a request, in order. -/
def enabled (r : Request) : List Nat := (List.range r.data.length).filter r.strobe.enables

/-- The block with the enabled bytes of a write stored, for a beat whose byte
zero would lie at `start`. -/
def store (b : Block) (start : Int) (r : Request) : Block :=
  (enabled r).foldl (fun b (i : Nat) => b.set (start + i).toNat (r.data[i]?.getD 0)) b

/-- The data of a read: memory at the enabled bytes and zero at the others. -/
def load (b : Block) (start : Int) (r : Request) : Bytes :=
  (List.range r.data.length).map fun i =>
    if r.strobe.enables i then b.byte (start + i).toNat else 0

/-- The memory after a beat that it serves, and the data. -/
def serve (m : Memory) (r : Request) : Reply × Memory :=
  let start := (r.addr : Int) - m.base
  match r.direction with
  | .write =>
    (⟨.ok, m.latency, r.data⟩,
      { m with block := store m.block start r, writes := m.writes + 1 })
  | .read => (⟨.ok, m.latency, load m.block start r⟩, { m with reads := m.reads + 1 })

/-- Serves a beat. One whose enabled bytes leave the memory is refused at once
and changes nothing. -/
def access (r : Request) : EStateM PortFault Memory Reply := fun m =>
  match (enabled r).head?, (enabled r).getLast? with
  | some first, some last =>
    if r.addr + first < Word.limit then
      match m.offset? (r.addr + first) (last - first + 1) with
      | some _ => let (reply, m) := m.serve r; .ok reply m
      | none => .ok ⟨.invalid, 0, r.data⟩ m
    else .error (.trap .overflow) m
  | _, _ => let (reply, m) := m.serve r; .ok reply m

instance : Port Memory := ⟨access⟩

end Memory

end SystolicGemm
