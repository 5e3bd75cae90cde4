import SystolicGemm.Proofs.Memory.Beat

/-!
# The memory access primitive

What a flat memory makes of one beat, byte by byte and for every beat there is: one that
hangs over an end of the memory, one longer than its strobe, one with holes, one with no
enabled byte at all.

The memory checks the run from the first enabled byte to the last and looks at nothing in
between. Whether it serves the beat still depends on the enabled bytes alone, because a run
leaves an interval exactly if one of its two ends does.
-/

namespace SystolicGemm

/-- Whether a beat takes part in byte `i`: the beat reaches that far, the strobe has a bit
for it, and the bit is set. -/
def Request.Touches (r : Request) (i : Nat) : Prop :=
  i < r.data.length ∧ i < 64 ∧ r.strobe.bits.toNat.testBit i

namespace Memory

/-- What a write comes to: the bytes that it touches are those of the data, and nothing
else has changed. -/
structure Stored (m : Memory) (r : Request) (reply : Reply) (m' : Memory) : Prop where
  data : reply.data = r.data
  touched : ∀ i v, r.Touches i → r.data[i]? = some v → m'.byte (r.addr + i) = v
  others : ∀ a, (∀ i, r.Touches i → r.addr + i ≠ a) → m'.byte a = m.byte a
  extent : m'.base = m.base ∧ m'.size = m.size ∧ m'.latency = m.latency
  counted : m'.reads = m.reads ∧ m'.writes = m.writes + 1

/-- What a read comes to: the data is memory at the bytes that it touches and zero at the
others, and the memory has counted it. -/
structure Fetched (m : Memory) (r : Request) (reply : Reply) (m' : Memory) : Prop where
  length : reply.data.length = r.data.length
  touched : ∀ i, r.Touches i → reply.data[i]? = some (m.byte (r.addr + i))
  others : ∀ i < r.data.length, ¬ r.Touches i → reply.data[i]? = some 0
  counted : m' = { m with reads := m.reads + 1 }

/-- What a beat that was served comes to. -/
structure Served (m : Memory) (r : Request) (reply : Reply) (m' : Memory) : Prop where
  latency : reply.latency = m.latency
  write : r.direction = .write → m.Stored r reply m'
  read : r.direction = .read → m.Fetched r reply m'

variable {m : Memory} {r : Request}

/-- Shifting the strobe finds the bits of its number. -/
theorem mem_enabled_iff_touches {i : Nat} : i ∈ enabled r ↔ r.Touches i := by
  rw [mem_enabled]
  constructor
  · rintro ⟨hlt, hen⟩
    have hbyte : i < 64 := by
      unfold Strobe.enables at hen
      rw [Bool.and_eq_true, decide_eq_true_iff] at hen
      exact hen.1
    exact ⟨hlt, hbyte, by rwa [Strobe.enables_eq_testBit] at hen⟩
  · rintro ⟨hlt, -, hbit⟩
    exact ⟨hlt, by rwa [Strobe.enables_eq_testBit]⟩

theorem enables_iff_touches {i : Nat} (hi : i < r.data.length) :
    r.strobe.enables i = true ↔ r.Touches i := by
  rw [← mem_enabled_iff_touches, mem_enabled]
  exact ⟨fun hen => ⟨hi, hen⟩, And.right⟩

theorem contains_iff_touches :
    m.Contains r ↔ ∀ i, r.Touches i → m.Has (r.addr + i) := by
  constructor
  · intro hin i hi
    exact hin i (mem_enabled_iff_touches.mpr hi)
  · intro hin i hi
    exact hin i (mem_enabled_iff_touches.mp hi)

theorem stored_serve (hdir : r.direction = .write) (hin : m.Contains r) :
    m.Stored r (m.serve r).1 (m.serve r).2 := by
  obtain ⟨hvalue, hrest⟩ := byte_write hdir hin
  refine ⟨data_write hdir, ?_, ?_, ⟨base_serve .., size_serve .., latency_serve ..⟩, ?_⟩
  · intro i v hi hv
    rw [hvalue i (mem_enabled_iff_touches.mpr hi), hv, Option.getD_some]
  · intro a ha
    refine hrest a fun i hi => ?_
    exact ha i (mem_enabled_iff_touches.mp hi)
  · rw [serve, hdir]
    exact ⟨rfl, rfl⟩

theorem fetched_serve (hdir : r.direction = .read) (hin : m.Contains r) :
    m.Fetched r (m.serve r).1 (m.serve r).2 := by
  have hdata := data_read hdir hin
  have hbyte : ∀ i < r.data.length, (m.serve r).1.data[i]? =
      some (if r.strobe.enables i then m.byte (r.addr + i) else 0) := by
    intro i hi
    rw [hdata, List.getElem?_map, List.getElem?_range hi, Option.map_some]
  refine ⟨?_, ?_, ?_, ?_⟩
  · rw [hdata, List.length_map, List.length_range]
  · intro i hi
    rw [hbyte i hi.1, if_pos ((enables_iff_touches hi.1).mpr hi)]
  · intro i hlt hi
    rw [hbyte i hlt, if_neg fun hen => hi ((enables_iff_touches hlt).mp hen)]
  · rw [serve, hdir]

theorem served_serve (hin : m.Contains r) : m.Served r (m.serve r).1 (m.serve r).2 :=
  ⟨latency_reply .., fun hdir => stored_serve hdir hin, fun hdir => fetched_serve hdir hin⟩

/-- **Any beat on any memory.** A beat that ends below the last address of all is always
answered. The answer is that it was served exactly if every byte that it touches is the
memory's own, wherever its other bytes lie. Served, a write stores the bytes that it touches
and no others, a read returns those bytes among zeros, and one of the two counters goes up
by one. Any other beat is invalid, and nothing has changed. -/
theorem access_exact (m : Memory) (r : Request) (haddr : r.addr + r.data.length < Word.limit) :
    ∃ reply m', Port.access r m = .ok reply m' ∧
      (reply.status = .ok ↔ ∀ i, r.Touches i → m.Has (r.addr + i)) ∧
      (reply.status = .ok → m.Served r reply m') ∧
      (reply.status ≠ .ok → reply = ⟨.invalid, 0, r.data⟩ ∧ m' = m) := by
  rcases m.access_cases r with ⟨hin, hacc⟩ | ⟨hout, hacc⟩ | ⟨⟨i, hi, hlimit⟩, -⟩
  · refine ⟨_, _, hacc, ?_, fun _ => served_serve hin, ?_⟩
    · exact ⟨fun _ => contains_iff_touches.mp hin, fun _ => status_reply ..⟩
    · intro hne
      exact absurd (status_reply ..) hne
  · have hne : Status.invalid ≠ Status.ok := by decide
    refine ⟨_, _, hacc, ?_, fun hok => absurd hok hne, fun _ => ⟨rfl, rfl⟩⟩
    rw [← contains_iff_touches]
    exact ⟨fun hok => absurd hok hne, fun hin => absurd hin hout⟩
  · -- every byte of the beat has an address
    have hlt := (mem_enabled.mp hi).1
    omega

/-- A write of 72 bytes that begins below a memory of 16 and ends above it, of which the
bytes at the first and the fifth address are enabled. -/
def overhanging : Request := ⟨.write, 0xFF0, List.replicate 72 7, ⟨0x110000⟩⟩

theorem access_overhanging :
    overhanging.addr + overhanging.data.length < Word.limit ∧
      ∃ reply m', Port.access overhanging (zeroed 0x1000 16 3) = .ok reply m' ∧
        reply = ⟨.ok, 3, overhanging.data⟩ ∧ m'.byte 0x1004 = 7 ∧ m'.byte 0x1003 = 0 ∧
        m'.writes = 1 := by
  have haddr : overhanging.addr + overhanging.data.length < Word.limit := by decide
  obtain ⟨reply, m', hacc, hiff, hserved, -⟩ := access_exact (zeroed 0x1000 16 3) overhanging haddr
  have hbits : ∀ i < 64, (0x110000 : Nat).testBit i → i = 16 ∨ i = 20 := by decide
  have htouches : ∀ i, overhanging.Touches i → i = 16 ∨ i = 20 := by
    rintro i ⟨-, hlt, hbit⟩
    exact hbits i hlt hbit
  have hok : reply.status = .ok := hiff.mpr fun i hi => by
    rcases htouches i hi with rfl | rfl
    · exact ⟨by decide, by decide⟩
    · exact ⟨by decide, by decide⟩
  have hw := (hserved hok).write rfl
  refine ⟨haddr, reply, m', hacc, ?_, ?_, ?_, hw.counted.2⟩
  · cases reply
    cases hok
    cases (hserved rfl).latency
    cases hw.data
    rfl
  · exact hw.touched 20 7 ⟨by decide, by decide, by decide⟩ (by decide)
  · rw [hw.others 0x1003 fun i hi => by rcases htouches i hi with rfl | rfl <;> decide]
    decide

end Memory

end SystolicGemm
