import Mathlib.Algebra.GroupWithZero.Nat
import SystolicGemm.Memory.Gate
import SystolicGemm.Proofs.Memory.Recorded
import SystolicGemm.Proofs.Stream.Step

/-!
# A stream under any calls

A stream can be asked for beats without end, for bubbles in between and for beats of
the wrong width, and its port may refuse what it is asked. None of that makes a
difference to where it goes: the accesses that succeed are counted, and the next one
goes to where that count, less whole walks of the pattern, lies in the pattern.
-/

namespace SystolicGemm

/-! ## Addresses in closed form -/

namespace Pattern

/-- Beats after which the counted levels start over, if no word is too small for them. -/
def length (p : Pattern) : Nat := p.inner.count * p.middle.count * p.outer.count

/-- The address of beat `u`. -/
def addrAt (p : Pattern) (u : Nat) : Nat :=
  p.base + u % p.inner.count * p.inner.stride +
    u / p.inner.count % p.middle.count * p.middle.stride +
    u / (p.inner.count * p.middle.count) % p.outer.count * p.outer.stride +
    u / p.length * p.wrapStride

/-- Whether no address that a pattern could reach leaves its word. -/
def Bounded (p : Pattern) : Prop :=
  p.base + p.inner.count * p.inner.stride + p.middle.count * p.middle.stride +
    p.outer.count * p.outer.stride + (p.total / p.length + 1) * p.wrapStride < Word.limit

theorem wrapsAt_eq (p : Pattern) (u : Nat) : p.wrapsAt u = u / p.length := by
  rw [wrapsAt, length, Nat.div_div_eq_div_mul, Nat.div_div_eq_div_mul, Nat.mul_assoc]

namespace Bounded

variable {p : Pattern} {u : Nat} (h : p.Bounded) (hu : u < p.total)

include h hu

/-- There is room for one more step of every level. -/
theorem room : p.base + (p.innerAt u + 1) * p.inner.stride +
    (p.middleAt u + 1) * p.middle.stride + (p.outerAt u + 1) * p.outer.stride +
    (p.wrapsAt u + 1) * p.wrapStride < Word.limit := by
  have hinner : (p.innerAt u + 1) * p.inner.stride ≤ p.inner.count * p.inner.stride :=
    Nat.mul_le_mul_right _ (Nat.mod_lt _ (Level.count_pos _))
  have hmiddle : (p.middleAt u + 1) * p.middle.stride ≤ p.middle.count * p.middle.stride :=
    Nat.mul_le_mul_right _ (Nat.mod_lt _ (Level.count_pos _))
  have houter : (p.outerAt u + 1) * p.outer.stride ≤ p.outer.count * p.outer.stride :=
    Nat.mul_le_mul_right _ (Nat.mod_lt _ (Level.count_pos _))
  have hwrap : (p.wrapsAt u + 1) * p.wrapStride ≤ (p.total / p.length + 1) * p.wrapStride := by
    rw [wrapsAt_eq]
    exact Nat.mul_le_mul_right _ (Nat.succ_le_succ (Nat.div_le_div_right (Nat.le_of_lt hu)))
  unfold Bounded at h
  omega

/-- **No offset of a bounded pattern leaves a word.** -/
theorem roomy : p.Roomy u := by
  have hroom := h.room hu
  simp only [Nat.succ_mul] at hroom
  exact ⟨by omega, fun _ => by omega, fun _ _ => by omega, fun _ _ _ => by omega⟩

theorem addr_posAt : p.addr (p.posAt u) = .ok (p.addrAt u) := by
  have hroom := h.room hu
  simp only [Nat.succ_mul] at hroom
  rw [addr, offset_posAt, Word.add_of_lt (by omega), addrAt, ← wrapsAt_eq,
    ← Nat.div_div_eq_div_mul]
  simp only [innerAt, middleAt, outerAt, Nat.add_assoc]

end Bounded

end Pattern

namespace Strobe

/-- Byte `i` of a beat counts if bit `i` of the strobe is set, up to the 64th. -/
theorem count_eq_testBit (s : Strobe) (n : Nat) :
    s.count n = (List.range (min n 64)).countP s.bits.toNat.testBit := by
  have henables : s.enables = s.bits.toNat.testBit := funext s.enables_eq_testBit
  induction n with
  | zero => rfl
  | succ n ih =>
    rw [count_succ, ih]
    rcases Nat.lt_or_ge n 64 with h | h
    · rw [Nat.min_eq_left (Nat.le_of_lt h), Nat.min_eq_left h, List.range_succ,
        List.countP_append, henables]
      simp [List.countP_singleton]
    · rw [s.enables_of_le h, Nat.min_eq_right h, Nat.min_eq_right (Nat.le_succ_of_le h)]
      rfl

end Strobe

/-! ## Calls -/

namespace Stream

variable {π : Type}

/-- One call of a stream. -/
inductive Call where
  | bubble
  | beat (data : Bytes) (strobe : Strobe)
  deriving DecidableEq, Repr

namespace Call

variable [Port π]

/-- Makes the call. The result is what it costs. -/
def run : Call → Run Failure (Stream × π) Nat
  | .bubble => Stream.bubble
  | .beat data strobe => do return (← Stream.beat data strobe).1

theorem run_beat_ok {data : Bytes} {strobe : Strobe} {st st' : Stream × π} {l : Nat × Bytes}
    (h : Stream.beat data strobe st = .ok l st') : (beat data strobe).run st = .ok l.1 st' :=
  run_bind_ok h

theorem run_beat_error {data : Bytes} {strobe : Strobe} {st st' : Stream × π}
    {stop : Stop Failure} (h : Stream.beat data strobe st = .error stop st') :
    (beat data strobe).run st = .error stop st' :=
  run_bind_error h

/-- What a call leaves behind when it comes back, be it with a result or an error. -/
def after (c : Call) (st : Stream × π) : Checked (Stream × π) :=
  match c.run st with
  | .ok _ st => .ok st
  | .error (.error _) st => .ok st
  | .error (.trap t) _ => .error t

/-- Why a call does not come back: the port stops it, or what it has done can no longer be
counted. -/
inductive Stops (s : Stream) (port : π) : Call → Prop
  | bubble (hover : Word.limit ≤ s.stats.latency + 1) : Stops s port .bubble
  | port {data : Bytes} {strobe : Strobe} {a : Nat} {t : Trap} {port' : π}
      (haddr : s.addr = .ok a)
      (hacc : Port.access ⟨s.direction, a, data, strobe⟩ port = .error (.trap t) port') :
      Stops s port (.beat data strobe)
  | counts {data : Bytes} {strobe : Strobe} {a : Nat} {reply : Reply} {port' : π}
      (haddr : s.addr = .ok a)
      (hacc : Port.access ⟨s.direction, a, data, strobe⟩ port = .ok reply port')
      (hok : reply.status = .ok)
      (hover : Word.limit ≤ s.stats.latency + (reply.latency + 1) ∨
        Word.limit ≤ s.stats.bytes + strobe.count s.beatBytes) :
      Stops s port (.beat data strobe)

end Call

/-- What calls leave behind, one after the other. -/
def afterAll [Port π] : List Call → Stream × π → Checked (Stream × π)
  | [], st => .ok st
  | c :: rest, st => do afterAll rest (← c.after st)

/-- The accesses that succeeded. -/
def served (journal : List (Request × Reply)) : List (Request × Reply) :=
  journal.filter fun e => e.2.status = .ok

/-- The counts of calls: one transaction for each access that succeeded, with the bytes
of its strobe and with the time of its answer and one cycle more, and one cycle for each
bubble. -/
def counts (beatBytes : Nat) (calls : List Call) (journal : List (Request × Reply)) :
    StreamStats where
  transactions := (served journal).length
  bubbles := calls.count .bubble
  bytes := ((served journal).map fun e =>
    (List.range (min beatBytes 64)).countP e.1.strobe.bits.toNat.testBit).sum
  latency := calls.count .bubble + ((served journal).map fun e => e.2.latency + 1).sum

section

variable {journal : List (Request × Reply)} {r : Request} {reply : Reply}

theorem served_ok (h : reply.status = .ok) :
    served (journal ++ [(r, reply)]) = served journal ++ [(r, reply)] := by
  simp [served, List.filter_append, h]

theorem served_ne (h : reply.status ≠ .ok) :
    served (journal ++ [(r, reply)]) = served journal := by
  simp [served, List.filter_append, h]

theorem counts_bubble (n : Nat) (calls : List Call) :
    counts n (calls ++ [.bubble]) journal =
      { counts n calls journal with
        bubbles := (counts n calls journal).bubbles + 1
        latency := (counts n calls journal).latency + 1 } := by
  simp only [counts, List.count_append, List.count_singleton_self, Nat.add_right_comm]

theorem counts_beat (n : Nat) (calls : List Call) (data : Bytes) (strobe : Strobe) :
    counts n (calls ++ [.beat data strobe]) journal = counts n calls journal := by
  have hcount : (calls ++ [Call.beat data strobe]).count Call.bubble = calls.count .bubble := by
    rw [List.count_append, List.count_singleton]
    rfl
  rw [counts, hcount, counts]

theorem counts_ok (n : Nat) (calls : List Call) (h : reply.status = .ok) :
    counts n calls (journal ++ [(r, reply)]) = {
      transactions := (counts n calls journal).transactions + 1
      bubbles := (counts n calls journal).bubbles
      bytes := (counts n calls journal).bytes + r.strobe.count n
      latency := (counts n calls journal).latency + (reply.latency + 1) } := by
  simp only [counts, served_ok h, List.length_append, List.map_append, List.sum_append,
    List.map_singleton, List.sum_singleton, List.length_singleton, Strobe.count_eq_testBit,
    Nat.add_assoc]

end

/-- What all calls keep: where the stream is, and what it has counted. -/
structure Walked (p : Pattern) (n : Nat) (calls : List Call) (s : Stream) (q : Recorded π) :
    Prop where
  pattern : s.pattern = p
  beatBytes : s.beatBytes = n
  done : s.done = (served q.journal).length % p.total ∨
    s.done = p.total ∧ p.total ∣ (served q.journal).length
  pos : s.pos = p.posAt ((served q.journal).length % p.total)
  stats : s.stats = counts n calls q.journal
  went : ∀ i (hi : i < q.journal.length),
    q.journal[i].1.addr = p.addrAt ((served (q.journal.take i)).length % p.total)

theorem walked_configure (s : Stream) (p : Pattern) (port : π) :
    Walked p s.beatBytes [] (s.configure p) (Recorded.fresh port) where
  pattern := rfl
  beatBytes := rfl
  done := .inl (Nat.zero_mod _).symm
  pos := by
    show PatternPos.origin = p.posAt (0 % p.total)
    rw [Nat.zero_mod, Pattern.posAt_zero]
  stats := rfl
  went := fun i hi => absurd hi (Nat.not_lt_zero i)

namespace Walked

variable {p : Pattern} {n : Nat} {calls : List Call} {s : Stream} {q : Recorded π}

theorem paid (h : Walked p n calls s q) : s.Paid := by
  have hlength : ∀ l : List (Request × Reply), l.length ≤ (l.map fun e => e.2.latency + 1).sum := by
    intro l
    induction l with
    | nil => exact Nat.le_refl _
    | cons e l ih =>
      rw [List.length_cons, List.map_cons, List.sum_cons]
      omega
  have hle := hlength (served q.journal)
  unfold Paid
  rw [h.stats]
  simp only [counts]
  omega

/-- A stream at the end of its pattern goes on at the beginning. -/
theorem placed (h : Walked p n calls s q) (htotal : 0 < p.total) :
    s.rewind.Placed p ((served q.journal).length % p.total) := by
  have hlt := Nat.mod_lt (served q.journal).length htotal
  rcases h.done with hdone | ⟨hdone, hdvd⟩
  · have hrewind : s.rewind = s := by
      unfold rewind isDone
      rw [if_neg]
      rw [beq_iff_eq, h.pattern, hdone]
      omega
    rw [hrewind]
    exact ⟨h.pattern, hlt, hdone, h.pos⟩
  · have hrewind : s.rewind = { s with done := 0 } := by
      unfold rewind isDone
      rw [if_pos]
      rw [beq_iff_eq, h.pattern, hdone]
    rw [hrewind]
    exact ⟨h.pattern, hlt, (Nat.mod_eq_zero_of_dvd hdvd).symm, h.pos⟩

theorem rewind (h : Walked p n calls s q) (htotal : 0 < p.total) :
    Walked p n calls s.rewind q where
  pattern := (h.placed htotal).pattern
  beatBytes := (rewind_beatBytes s).trans h.beatBytes
  done := .inl (h.placed htotal).done
  pos := (h.placed htotal).pos
  stats := (rewind_stats s).trans h.stats
  went := h.went

theorem idled (h : Walked p n calls s q) : Walked p n (calls ++ [.bubble]) s.idled q where
  pattern := h.pattern
  beatBytes := h.beatBytes
  done := h.done
  pos := h.pos
  stats := by rw [counts_bubble, ← h.stats]; rfl
  went := h.went

/-- A beat that reaches no memory. -/
theorem missed (h : Walked p n calls s q) (data : Bytes) (strobe : Strobe) {q' : Recorded π}
    (hq : q'.journal = q.journal) : Walked p n (calls ++ [.beat data strobe]) s q' where
  pattern := h.pattern
  beatBytes := h.beatBytes
  done := hq ▸ h.done
  pos := hq ▸ h.pos
  stats := by rw [counts_beat, hq, ← h.stats]
  went := by rw [hq]; exact h.went

/-- The journal of a stream says where it went, also with one more access. -/
theorem went_note (h : Walked p n calls s q) {r : Request}
    (hr : r.addr = p.addrAt ((served q.journal).length % p.total)) (reply : Reply) (port : π) :
    ∀ i (hi : i < (q.note r reply port).journal.length),
      (q.note r reply port).journal[i].1.addr =
        p.addrAt ((served ((q.note r reply port).journal.take i)).length % p.total) := by
  intro i hi
  simp only [Recorded.note, List.length_append, List.length_singleton] at hi ⊢
  rcases Nat.lt_or_eq_of_le (Nat.le_of_lt_succ hi) with hlt | rfl
  · rw [List.getElem_append_left hlt, List.take_append_of_le_length (Nat.le_of_lt hlt)]
    exact h.went i hlt
  · rw [List.getElem_append_right (Nat.le_refl _), List.take_left']
    · simpa using hr
    · rfl

/-- A beat that the port did not serve. -/
theorem refused (h : Walked p n calls s q) (data : Bytes) (strobe : Strobe) {r : Request}
    (hr : r.addr = p.addrAt ((served q.journal).length % p.total)) {reply : Reply}
    (hne : reply.status ≠ .ok) (port : π) :
    Walked p n (calls ++ [.beat data strobe]) s (q.note r reply port) where
  pattern := h.pattern
  beatBytes := h.beatBytes
  done := by
    simp only [Recorded.note, served_ne hne]
    exact h.done
  pos := by
    simp only [Recorded.note, served_ne hne]
    exact h.pos
  stats := by
    rw [counts_beat, h.stats]
    simp only [counts, Recorded.note, served_ne hne]
  went := h.went_note hr reply port

/-- Where a stream is after a beat that was served. -/
theorem past_done (h : Walked p n calls s q) (htotal : 0 < p.total) (latency : Nat)
    (strobe : Strobe) :
    ((s.rewind.past latency strobe).isDone = true ↔ p.total ∣ (served q.journal).length + 1) ∧
      (s.rewind.past latency strobe).pos =
        p.posAt (((served q.journal).length + 1) % p.total) := by
  have hplaced := h.placed htotal
  constructor
  · unfold isDone Stream.past
    rw [beq_iff_eq]
    dsimp only
    rw [hplaced.done, hplaced.pattern, Nat.dvd_iff_mod_eq_zero]
    have hlt := hplaced.lt
    constructor
    · intro hend
      exact (succ_mod_div_of_eq hend).1
    · intro hzero
      rcases Nat.lt_or_eq_of_le (Nat.succ_le_of_lt hlt) with hlt | heq
      · have hsucc := (succ_mod_div_of_lt hlt).1
        omega
      · exact heq
  · unfold Stream.past
    dsimp only
    rw [hplaced.done, hplaced.pattern, Nat.mod_add_mod]

/-- A beat that was served. -/
theorem past (h : Walked p n calls s q) (htotal : 0 < p.total) (data : Bytes) {r : Request}
    (hr : r.addr = p.addrAt ((served q.journal).length % p.total)) {reply : Reply}
    (hok : reply.status = .ok) (port : π) :
    Walked p n (calls ++ [.beat data r.strobe]) (s.rewind.past (reply.latency + 1) r.strobe)
      (q.note r reply port) where
  pattern := (h.placed htotal).pattern
  beatBytes := (h.rewind htotal).beatBytes
  done := by
    have hplaced := h.placed htotal
    simp only [Recorded.note, served_ok hok, List.length_append, List.length_singleton]
    show s.rewind.done + 1 = _ ∨ s.rewind.done + 1 = _ ∧ _
    rw [hplaced.done]
    rcases Nat.lt_or_eq_of_le (Nat.succ_le_of_lt hplaced.lt) with hlt | heq
    · exact .inl (succ_mod_div_of_lt hlt).1.symm
    · exact .inr ⟨heq, Nat.dvd_of_mod_eq_zero (succ_mod_div_of_eq heq).1⟩
  pos := by
    simp only [Recorded.note, served_ok hok, List.length_append, List.length_singleton]
    exact (h.past_done htotal (reply.latency + 1) r.strobe).2
  stats := by
    have hstats := (h.rewind htotal).stats
    have hbeat := (h.rewind htotal).beatBytes
    rw [counts_beat]
    simp only [Recorded.note]
    rw [counts_ok n calls hok, ← hstats]
    simp only [Stream.past, hbeat]
  went := h.went_note hr reply port

section

variable (h : Walked p n calls s q) (htotal : 0 < p.total) (hword : p.total < Word.limit)
  (hbounded : p.Bounded)

include h htotal hbounded

theorem addr_eq : s.addr = .ok (p.addrAt ((served q.journal).length % p.total)) := by
  rw [addr, h.pattern, h.pos, hbounded.addr_posAt (Nat.mod_lt _ htotal)]

include hword

/-- **What becomes of a beat.** It fails and moves nothing, or it is served and the stream
is one beat further, or it stops. -/
theorem beat_cases [Port π] (data : Bytes) (strobe : Strobe) :
    (∃ failure s' q', Stream.beat data strobe (s, q) = .error (.error failure) (s', q') ∧
      Walked p n (calls ++ [.beat data strobe]) s' q') ∨
    (∃ l s' q', Stream.beat data strobe (s, q) = .ok l (s', q') ∧
      Walked p n (calls ++ [.beat data strobe]) s' q' ∧
      (s'.isDone = true ↔ p.total ∣ (served q'.journal).length) ∧
      (s'.isDone = true → s'.pos = .origin)) ∨
    ((∃ t st, Stream.beat data strobe (s, q) = .error (.trap t) st) ∧
      Call.Stops s q (.beat data strobe)) := by
  by_cases hdata : data.length = s.beatBytes
  case neg => exact .inl ⟨_, s, q, beat_of_length_ne hdata strobe q, h.missed data strobe rfl⟩
  have hlt := Nat.mod_lt (served q.journal).length htotal
  have haddr := h.addr_eq htotal hbounded
  rw [(h.placed htotal).beat_eq hword (hbounded.roomy hlt) h.paid (hbounded.addr_posAt hlt) hdata]
  generalize hr : (⟨s.direction, p.addrAt ((served q.journal).length % p.total), data, strobe⟩ :
    Request) = r
  have hra : r.addr = p.addrAt ((served q.journal).length % p.total) := by rw [← hr]
  have hrs : r.strobe = strobe := by rw [← hr]
  cases hacc : Port.access r q with
  | error fault q' =>
    obtain ⟨port', _, rfl⟩ := Recorded.access_error hacc
    cases fault with
    | poisoned => exact .inl ⟨_, _, _, rfl, (h.rewind htotal).missed _ _ rfl⟩
    | trap t => exact .inr (.inr ⟨⟨t, _, rfl⟩, .port haddr (by rw [hr]; exact hacc)⟩)
  | ok reply q' =>
    obtain ⟨port', _, rfl⟩ := Recorded.access_ok hacc
    by_cases hok : reply.status = .ok
    case neg =>
      refine .inl ⟨_, _, _, if_pos hok, ?_⟩
      exact (h.rewind htotal).refused data strobe hra hok port'
    simp only [hok, ne_eq, not_true_eq_false, if_false]
    by_cases hfits : s.stats.bytes + strobe.count s.beatBytes < Word.limit ∧
        s.stats.latency + (reply.latency + 1) < Word.limit
    · have hpast := h.past htotal data hra hok port'
      rw [hrs] at hpast
      rw [if_pos hfits]
      obtain ⟨hdone, hpos⟩ := h.past_done htotal (reply.latency + 1) strobe
      refine .inr (.inl ⟨_, _, _, rfl, hpast, ?_, fun hend => ?_⟩)
      · simp only [Recorded.note, served_ok hok, List.length_append, List.length_singleton]
        exact hdone
      · rw [hpos, Nat.mod_eq_zero_of_dvd (hdone.mp hend), Pattern.posAt_zero]
    · rw [if_neg hfits]
      exact .inr (.inr ⟨⟨_, _, rfl⟩, .counts haddr (by rw [hr]; exact hacc) hok (by omega)⟩)

/-- **A call comes back, or there is a reason why not.** -/
theorem after_cases [Port π] (c : Call) :
    (∃ s' q', c.after (s, q) = .ok (s', q') ∧ Walked p n (calls ++ [c]) s' q') ∨
      (∃ t, c.after (s, q) = .error t) ∧ c.Stops s q := by
  cases c with
  | bubble =>
    by_cases hl : s.stats.latency + 1 < Word.limit
    · have hrun : Call.bubble.run (s, q) = .ok 1 (s.idled, q) := by
        rw [Call.run, bubble_eq h.paid, if_pos hl]
      exact .inl ⟨_, _, by rw [Call.after, hrun], h.idled⟩
    · have hrun : Call.bubble.run (s, q) = .error (.trap .overflow) (s, q) := by
        rw [Call.run, bubble_eq h.paid, if_neg hl]
      exact .inr ⟨⟨_, by rw [Call.after, hrun]⟩, .bubble (Nat.le_of_not_lt hl)⟩
  | beat data strobe =>
    obtain ⟨failure, s', q', hbeat, hwalked⟩ | ⟨l, s', q', hbeat, hwalked, _⟩ |
      ⟨⟨t, st, hbeat⟩, hstops⟩ := h.beat_cases htotal hword hbounded data strobe
    · exact .inl ⟨s', q', by rw [Call.after, Call.run_beat_error hbeat], hwalked⟩
    · exact .inl ⟨s', q', by rw [Call.after, Call.run_beat_ok hbeat], hwalked⟩
    · exact .inr ⟨⟨t, by rw [Call.after, Call.run_beat_error hbeat]⟩, hstops⟩

/-- Calls all come back, or those before one that does not. -/
theorem afterAll_cases [Port π] (more : List Call) :
    (∃ s' q', afterAll more (s, q) = .ok (s', q') ∧ Walked p n (calls ++ more) s' q') ∨
      (∃ t, afterAll more (s, q) = .error t) ∧
        ∃ made c rest s' q', more = made ++ c :: rest ∧
          afterAll made (s, q) = .ok (s', q') ∧ c.Stops s' q' := by
  induction more generalizing calls s q with
  | nil => exact .inl ⟨s, q, rfl, by rw [List.append_nil]; exact h⟩
  | cons c more ih =>
    obtain ⟨s', q', hafter, hwalked⟩ | ⟨⟨t, hafter⟩, hstops⟩ :=
      h.after_cases htotal hword hbounded c
    · have hcons : ∀ cs, afterAll (c :: cs) (s, q) = afterAll cs (s', q') := fun cs => by
        rw [afterAll, hafter, ok_bind]
      obtain ⟨s'', q'', hall, hwalked'⟩ |
        ⟨⟨t, hall⟩, made, c', rest, s'', q'', rfl, hmade, hstops⟩ := ih hwalked
      · refine .inl ⟨s'', q'', (hcons more).trans hall, ?_⟩
        rw [List.append_assoc] at hwalked'
        exact hwalked'
      · exact .inr ⟨⟨t, (hcons _).trans hall⟩, c :: made, c', rest, s'', q'', rfl,
          (hcons made).trans hmade, hstops⟩
    · exact .inr ⟨⟨t, by rw [afterAll, hafter]; rfl⟩, [], c, more, s, q, rfl, rfl, hstops⟩

end

end Walked

/-- What is so of a stream after any calls. -/
structure Lawful [Port π] (p : Pattern) (n : Nat) (calls : List Call) (s : Stream)
    (q : Recorded π) : Prop where
  /-- Every access went where the accesses that had succeeded before it say. -/
  went : ∀ i (hi : i < q.journal.length),
    q.journal[i].1.addr = p.addrAt ((served (q.journal.take i)).length % p.total)
  /-- And so will the next one. -/
  next : s.addr = .ok (p.addrAt ((served q.journal).length % p.total))
  /-- If it succeeds, the stream is done if and only if it has walked whole patterns. -/
  finished : ∀ data strobe cost s' q',
    (Call.beat data strobe).run (s, q) = .ok cost (s', q') →
      (s'.isDone = true ↔ p.total ∣ (served q'.journal).length) ∧
      (s'.isDone = true → s'.pos = .origin)
  stats : s.stats = counts n calls q.journal

/-- **A stream goes where the number of its accesses that succeeded says**, whatever else
it has been asked for in between. Beat `u` of the pattern goes to `Pattern.addrAt p u`; after
`t` accesses that succeeded the next one is beat `t % p.total`, and the counts are those of
the calls. A call comes back unless the port stops it, or the cycles or the bytes of all
calls are more than a word can count. -/
theorem afterAll_lawful [Port π] {p : Pattern} (htotal : 1 ≤ p.total)
    (hword : p.total < Word.limit) (hbounded : p.Bounded) (s : Stream) (port : π)
    (calls : List Call) :
    (∀ s' q, afterAll calls (s.configure p, Recorded.fresh port) = .ok (s', q) →
      Lawful p s.beatBytes calls s' q) ∧
    ((∃ st, afterAll calls (s.configure p, Recorded.fresh port) = .ok st) ∨
      ∃ made c rest s' q, calls = made ++ c :: rest ∧
        afterAll made (s.configure p, Recorded.fresh port) = .ok (s', q) ∧ c.Stops s' q) := by
  obtain ⟨s₁, q₁, hall, hwalked⟩ | ⟨⟨t, hall⟩, hstopped⟩ :=
    (walked_configure s p port).afterAll_cases htotal hword hbounded calls
  · refine ⟨fun s' q hafter => ?_, .inl ⟨_, hall⟩⟩
    cases hall.symm.trans hafter
    rw [List.nil_append] at hwalked
    refine ⟨hwalked.went, hwalked.addr_eq htotal hbounded, ?_, hwalked.stats⟩
    intro data strobe cost s' q' hrun
    obtain ⟨failure, s₂, q₂, hbeat, _⟩ | ⟨l, s₂, q₂, hbeat, _, hdone⟩ | ⟨⟨t, st, hbeat⟩, _⟩ :=
      hwalked.beat_cases htotal hword hbounded data strobe
    · cases (Call.run_beat_error hbeat).symm.trans hrun
    · cases (Call.run_beat_ok hbeat).symm.trans hrun
      exact hdone
    · cases (Call.run_beat_error hbeat).symm.trans hrun
  · refine ⟨fun s' q hafter => ?_, .inr hstopped⟩
    cases hall.symm.trans hafter

end Stream

/-- A pattern of two levels with a length and one without, which starts over in the middle. -/
def Pattern.striped : Pattern := ⟨0, 5, ⟨2, 8⟩, ⟨0, 4⟩, ⟨2, 16⟩, 32⟩

namespace Stream

/-- A bubble, a beat, one of the wrong width, one that the gate denies and one of three bytes. -/
def mixedCalls : List Call :=
  [.bubble, .beat (List.replicate 8 0) .full, .beat [1] .full, .beat (List.replicate 8 0) .full,
    .beat (List.replicate 8 0) (.firstBytes 3)]

/-- A gate that denies the second beat. -/
def secondDenied : GatedMemory :=
  { GatedMemory.opened (.zeroed 0 64 3) with
    verdict := fun n => if n = 1 then some .denied else none }

/-- After those calls the next access goes to the third beat of the pattern. -/
theorem afterAll_lawful_striped : ∃ s q,
    afterAll mixedCalls
      ((unconfigured .x .read 8).configure .striped, Recorded.fresh secondDenied) = .ok (s, q) ∧
    Lawful .striped 8 mixedCalls s q ∧ s.addr = .ok 16 ∧ s.stats = ⟨2, 1, 11, 9⟩ := by
  have hbounded : Pattern.striped.Bounded := by
    unfold Pattern.Bounded
    decide
  have hlawful := (afterAll_lawful (by decide) (by decide) hbounded (unconfigured .x .read 8)
    secondDenied mixedCalls).1
  exact ⟨_, _, rfl, hlawful _ _ rfl, rfl, rfl⟩

end Stream

end SystolicGemm
