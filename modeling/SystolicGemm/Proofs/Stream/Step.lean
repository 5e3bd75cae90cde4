import SystolicGemm.Proofs.Stream.Walk
import SystolicGemm.Stream.Basic

/-!
# What one step of a stream does

`beat_eq` and `bubble_eq` say everything that a step of a stream can do: which
request reaches the port, and for each answer what is left behind. All that they
need is where the stream is in its pattern, which is `Stream.Placed`.

The streams of a job never rewind, because they are asked for no more beats than
their pattern has; `Stream.Moved` says so by counting them.
-/

namespace SystolicGemm

/-! ## Strobes count no more than they can cover -/

namespace Strobe

theorem enables_of_le (s : Strobe) {i : Nat} (h : 64 ≤ i) : s.enables i = false := by
  unfold enables
  rw [decide_eq_false (Nat.not_lt.mpr h), Bool.false_and]

theorem count_succ (s : Strobe) (n : Nat) :
    s.count (n + 1) = s.count n + if s.enables n then 1 else 0 := by
  unfold count
  rw [List.range_succ, List.countP_append]
  simp [List.countP_singleton]

theorem count_le (s : Strobe) (n : Nat) : s.count n ≤ min n 64 := by
  induction n with
  | zero => exact Nat.zero_le _
  | succ n ih =>
    rw [count_succ]
    rcases Nat.lt_or_ge n 64 with h | h
    · split <;> omega
    · rw [s.enables_of_le h]
      simp only [Bool.false_eq_true, if_false]
      omega

end Strobe

namespace Stream

variable {π : Type}

/-- The stream past a beat of the given cost. -/
def past (s : Stream) (latency : Nat) (strobe : Strobe) : Stream :=
  { s with
    done := s.done + 1
    pos := s.pattern.posAt ((s.done + 1) % s.pattern.total)
    stats := {
      transactions := s.stats.transactions + 1
      bubbles := s.stats.bubbles
      bytes := s.stats.bytes + strobe.count s.beatBytes
      latency := s.stats.latency + latency } }

/-- The stream past a bubble. -/
def idled (s : Stream) : Stream :=
  { s with stats := {
      s.stats with
      bubbles := s.stats.bubbles + 1
      latency := s.stats.latency + 1 } }

/-- A stream of which the next beat is beat `u` of its pattern. -/
structure Placed (s : Stream) (p : Pattern) (u : Nat) : Prop where
  pattern : s.pattern = p
  lt : u < p.total
  done : s.done = u
  pos : s.pos = p.posAt u

/-- Every step costs a cycle. -/
def Paid (s : Stream) : Prop := s.stats.transactions + s.stats.bubbles ≤ s.stats.latency

theorem rewind_stats (s : Stream) : s.rewind.stats = s.stats := by
  unfold rewind
  split <;> rfl

theorem rewind_beatBytes (s : Stream) : s.rewind.beatBytes = s.beatBytes := by
  unfold rewind
  split <;> rfl

namespace Placed

variable {s : Stream} {p : Pattern} {u : Nat}

theorem advance_eq (h : s.Placed p u) (htotal : p.total < Word.limit) (hroom : p.Roomy u) :
    s.advance = .ok { s with done := s.done + 1, pos := p.posAt ((s.done + 1) % p.total) } := by
  have hlt := h.lt
  have hadd : Word.add s.done 1 = .ok (s.done + 1) := Word.add_of_lt (by rw [h.done]; omega)
  unfold advance
  rw [hadd, ok_bind, h.pattern, h.done]
  split
  · next he => rw [he, Nat.mod_self, Pattern.posAt_zero]; rfl
  · next he =>
    rw [h.pos, Pattern.next_posAt hroom, Nat.mod_eq_of_lt (by omega)]
    rfl

/-- Only its bytes and the time that it took can keep a beat from being counted. -/
theorem complete_eq (h : s.Placed p u) (htotal : p.total < Word.limit) (hroom : p.Roomy u)
    (hpaid : s.Paid) {latency : Nat} (hl : 0 < latency) (strobe : Strobe) :
    s.complete latency strobe =
      if s.stats.bytes + strobe.count s.beatBytes < Word.limit ∧
          s.stats.latency + latency < Word.limit then .ok (s.past latency strobe)
      else .error .overflow := by
  have hover : ∀ {a b}, ¬ a + b < Word.limit → Word.add a b = .error .overflow := fun hge => by
    rw [Word.add, Word.below, if_neg hge]
  unfold complete
  rw [h.advance_eq htotal hroom, ok_bind]
  by_cases hb : s.stats.bytes + strobe.count s.beatBytes < Word.limit
  · by_cases ht : s.stats.latency + latency < Word.limit
    · have hcount : s.stats.transactions + 1 < Word.limit := by
        unfold Paid at hpaid
        omega
      rw [if_pos ⟨hb, ht⟩, Word.add_of_lt hcount, ok_bind, Word.add_of_lt hb, ok_bind,
        Word.add_of_lt ht, Stream.past, h.pattern]
      rfl
    · rw [if_neg fun hfits => ht hfits.2, Word.add_of_lt hb, hover ht]
      unfold Word.add Word.below
      split <;> rfl
  · rw [if_neg fun hfits => hb hfits.1, hover hb]
    unfold Word.add Word.below
    split <;> rfl

end Placed

/-- A bubble is counted as long as its time is. -/
theorem idle_eq {s : Stream} (hpaid : s.Paid) :
    s.idle = if s.stats.latency + 1 < Word.limit then .ok s.idled else .error .overflow := by
  unfold Paid at hpaid
  unfold idle
  split
  · next hl =>
    rw [Word.add_of_lt (a := s.stats.bubbles) (by omega), ok_bind, Word.add_of_lt hl]
    rfl
  · next hl =>
    have he : Word.add s.stats.latency 1 = .error .overflow := by
      unfold Word.add Word.below
      rw [if_neg hl]
    rw [he]
    unfold Word.add Word.below
    split <;> rfl

/-- **A bubble costs one cycle and nothing else.** -/
theorem bubble_eq {s : Stream} (hpaid : s.Paid) (port : π) :
    bubble (s, port) =
      if s.stats.latency + 1 < Word.limit then .ok 1 (s.idled, port)
      else .error (.trap .overflow) (s, port) := by
  have hidle := idle_eq hpaid
  by_cases hl : s.stats.latency + 1 < Word.limit
  · rw [if_pos hl] at hidle ⊢
    simp only [bubble, hidle]
  · rw [if_neg hl] at hidle ⊢
    simp only [bubble, hidle]

/-- Data of another width reaches no port. -/
theorem beat_of_length_ne [Port π] {s : Stream} {data : Bytes} (hdata : data.length ≠ s.beatBytes)
    (strobe : Strobe) (port : π) :
    beat data strobe (s, port) =
      .error (.error (.slotWidth s.operand s.beatBytes data.length)) (s, port) := if_pos hdata

/-- **A beat is one access to the port.** What becomes of it is up to the port:
an answer other than `ok` leaves the stream where it was, and only an answer whose
bytes or whose time cannot be counted stops the program. -/
theorem Placed.beat_eq [Port π] {s : Stream} {p : Pattern} {u : Nat} (h : s.rewind.Placed p u)
    (htotal : p.total < Word.limit) (hroom : p.Roomy u) (hpaid : s.Paid) {a : Nat}
    (haddr : p.addr (p.posAt u) = .ok a) {data : Bytes} (hdata : data.length = s.beatBytes)
    (strobe : Strobe) (port : π) :
    beat data strobe (s, port) =
      match Port.access ⟨s.direction, a, data, strobe⟩ port with
      | .error .poisoned port => .error (.error .portPoisoned) (s.rewind, port)
      | .error (.trap t) port => .error (.trap t) (s.rewind, port)
      | .ok reply port =>
        if reply.status ≠ .ok then
          .error (.error (.transaction s.operand a reply.status)) (s.rewind, port)
        else if s.stats.bytes + strobe.count s.beatBytes < Word.limit ∧
            s.stats.latency + (reply.latency + 1) < Word.limit then
          .ok (reply.latency + 1, reply.data) (s.rewind.past (reply.latency + 1) strobe, port)
        else .error (.trap .overflow) (s.rewind, port) := by
  have hdirection : s.rewind.direction = s.direction := by unfold rewind; split <;> rfl
  have hoperand : s.rewind.operand = s.operand := by unfold rewind; split <;> rfl
  have haddr' : s.rewind.addr = .ok a := by rw [addr, h.pattern, h.pos, haddr]
  have hlen : ¬ data.length ≠ s.beatBytes := fun hne => hne hdata
  have hpaid' : s.rewind.Paid := by rw [Paid, rewind_stats]; exact hpaid
  unfold beat
  simp only [haddr', if_neg hlen, hdirection, hoperand]
  cases hacc : Port.access ⟨s.direction, a, data, strobe⟩ port with
  | error fault port' => cases fault <;> rfl
  | ok reply port' =>
    by_cases hok : reply.status ≠ .ok
    · simp only [if_pos hok]
    simp only [if_neg hok]
    have hcomplete := h.complete_eq htotal hroom hpaid' (Nat.succ_pos reply.latency) strobe
    rw [rewind_stats, rewind_beatBytes] at hcomplete
    by_cases hfits : s.stats.bytes + strobe.count s.beatBytes < Word.limit ∧
        s.stats.latency + (reply.latency + 1) < Word.limit
    · have hadd : Word.add reply.latency 1 = .ok (reply.latency + 1) :=
        Word.add_of_lt (by omega)
      simp only [hadd, hcomplete, if_pos hfits, ok_bind, pure_eq_ok]
    · simp only [Word.add, Word.below, if_neg hfits]
      by_cases hadd : reply.latency + 1 < Word.limit
      · simp only [if_pos hadd, hcomplete, if_neg hfits, ok_bind]
        rfl
      · simp only [if_neg hadd]
        rfl

/-- A stream that has moved `u` beats since it was configured, none of them past
the end of its pattern. -/
structure Moved (s : Stream) (p : Pattern) (u : Nat) : Prop where
  pattern : s.pattern = p
  le : u ≤ p.total
  done : s.done = u
  pos : s.pos = p.posAt (u % p.total)
  transactions : s.stats.transactions = u
  /-- Every step costs a cycle. -/
  cost : s.stats.transactions + s.stats.bubbles ≤ s.stats.latency
  bytes : s.stats.bytes ≤ 64 * s.stats.transactions

theorem moved_configure (s : Stream) (p : Pattern) : (s.configure p).Moved p 0 where
  pattern := rfl
  le := Nat.zero_le _
  done := rfl
  pos := by rw [Nat.zero_mod, Pattern.posAt_zero]; rfl
  transactions := rfl
  cost := Nat.le_refl _
  bytes := Nat.le_refl _

namespace Moved

variable {s : Stream} {p : Pattern} {u : Nat}

theorem isDone_iff (h : s.Moved p u) : s.isDone = true ↔ u = p.total := by
  unfold isDone
  rw [h.done, h.pattern, beq_iff_eq]

theorem past (h : s.Moved p u) (hu : u < p.total) {latency : Nat} (hl : 0 < latency)
    (strobe : Strobe) : (s.past latency strobe).Moved p (u + 1) where
  pattern := h.pattern
  le := hu
  done := congrArg (· + 1) h.done
  pos := by simp only [Stream.past, h.pattern, h.done]
  transactions := congrArg (· + 1) h.transactions
  cost := by
    have := h.cost
    simp only [Stream.past]
    omega
  bytes := by
    have := h.bytes
    have := strobe.count_le s.beatBytes
    simp only [Stream.past]
    omega

theorem idled (h : s.Moved p u) : s.idled.Moved p u where
  pattern := h.pattern
  le := h.le
  done := h.done
  pos := h.pos
  transactions := h.transactions
  cost := by
    have := h.cost
    simp only [Stream.idled]
    omega
  bytes := h.bytes

theorem placed (h : s.Moved p u) (hu : u < p.total) : s.Placed p u where
  pattern := h.pattern
  lt := hu
  done := h.done
  pos := by rw [h.pos, Nat.mod_eq_of_lt hu]

theorem rewind_eq (h : s.Moved p u) (hu : u < p.total) : s.rewind = s := by
  have hdone : s.isDone = false := by
    rw [Bool.eq_false_iff, Ne, h.isDone_iff]
    omega
  rw [rewind, hdone]
  rfl

/-- The bytes of so few beats can be counted. -/
theorem bytes_lt (h : s.Moved p u) (hu : u < p.total) (htotal : p.total < Word.limit32)
    (strobe : Strobe) : s.stats.bytes + strobe.count s.beatBytes < Word.limit := by
  have h1 := h.bytes
  have h2 := strobe.count_le s.beatBytes
  rw [h.transactions] at h1
  simp only [Word.limit, Word.limit32] at *
  omega

theorem bubble_eq (h : s.Moved p u) (port : π) :
    bubble (s, port) =
      if s.stats.latency + 1 < Word.limit then .ok 1 (s.idled, port)
      else .error (.trap .overflow) (s, port) := Stream.bubble_eq h.cost port

/-- A beat of a job leaves the stream as it was if the port answers other than `ok`. -/
theorem beat_eq [Port π] (h : s.Moved p u) (hu : u < p.total) (htotal : p.total < Word.limit32)
    (hroom : p.Roomy u) {a : Nat} (haddr : p.addr (p.posAt u) = .ok a) {data : Bytes}
    (hdata : data.length = s.beatBytes) (strobe : Strobe) (port : π) :
    beat data strobe (s, port) =
      match Port.access ⟨s.direction, a, data, strobe⟩ port with
      | .error .poisoned port => .error (.error .portPoisoned) (s, port)
      | .error (.trap t) port => .error (.trap t) (s, port)
      | .ok reply port =>
        if reply.status ≠ .ok then
          .error (.error (.transaction s.operand a reply.status)) (s, port)
        else if s.stats.latency + (reply.latency + 1) < Word.limit then
          .ok (reply.latency + 1, reply.data) (s.past (reply.latency + 1) strobe, port)
        else .error (.trap .overflow) (s, port) := by
  have hrewind := h.rewind_eq hu
  have hplaced : s.rewind.Placed p u := by rw [hrewind]; exact h.placed hu
  rw [hplaced.beat_eq (Nat.lt_trans htotal (by decide)) hroom h.cost haddr hdata strobe port,
    hrewind]
  simp only [h.bytes_lt hu htotal strobe, true_and]

end Moved

end Stream

end SystolicGemm
