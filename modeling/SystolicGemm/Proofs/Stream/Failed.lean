import SystolicGemm.Proofs.Stream.Calls

/-!
# What a failed beat leaves behind

A beat fails in one of three places: its data has the wrong width, the port is poisoned,
or the port answers something other than `ok`. Position, address and statistics are then as
they were. The count of beats need not be: a stream at the end of its pattern starts over
before it asks the port, so where the port is at fault the stream no longer says that it is
done.

What comes later cannot tell. The next beat that reaches the port would have started over
all the same, so streams that differ in nothing else do the same from then on.
-/

namespace SystolicGemm

namespace Stream

variable {π : Type} {s s' t : Stream} {q q' : π} {data : Bytes} {strobe : Strobe}
  {failure : Failure}

/-! ## Starting over -/

theorem rewind_pos (s : Stream) : s.rewind.pos = s.pos := by
  unfold rewind
  split <;> rfl

theorem rewind_pattern (s : Stream) : s.rewind.pattern = s.pattern := by
  unfold rewind
  split <;> rfl

theorem rewind_addr (s : Stream) : s.rewind.addr = s.addr := by
  rw [addr, addr, rewind_pattern, rewind_pos]

theorem rewind_of_done (h : s.isDone = true) : s.rewind = { s with done := 0 } := by
  rw [rewind, if_pos h]

theorem rewind_of_not_done (h : ¬ s.isDone = true) : s.rewind = s := by
  rw [rewind, if_neg h]

/-- A stream that has started over does not do so again. -/
theorem rewind_rewind (s : Stream) : s.rewind.rewind = s.rewind := by
  by_cases h : s.isDone = true
  · rw [rewind_of_done h, rewind]
    split <;> rfl
  · rw [rewind_of_not_done h, rewind_of_not_done h]

/-! ## How a beat fails -/

/-- The ways in which a beat fails, with what each leaves of the stream and of its port. -/
inductive Fails [Port π] (s : Stream) (q : π) (data : Bytes) (strobe : Strobe) :
    Failure → Stream → π → Prop
  | width (hdata : data.length ≠ s.beatBytes) :
      Fails s q data strobe (.slotWidth s.operand s.beatBytes data.length) s q
  | poisoned {a : Nat} {q' : π} (hdata : data.length = s.beatBytes) (haddr : s.addr = .ok a)
      (hacc : Port.access ⟨s.direction, a, data, strobe⟩ q = .error .poisoned q') :
      Fails s q data strobe .portPoisoned s.rewind q'
  | refused {a : Nat} {reply : Reply} {q' : π} (hdata : data.length = s.beatBytes)
      (haddr : s.addr = .ok a)
      (hacc : Port.access ⟨s.direction, a, data, strobe⟩ q = .ok reply q')
      (hstatus : reply.status ≠ .ok) :
      Fails s q data strobe (.transaction s.operand a reply.status) s.rewind q'

/-- A beat of the right width, with what comes before the port taken out of the way. -/
theorem beat_eq_rewind [Port π] (hdata : data.length = s.beatBytes) (strobe : Strobe) (q : π) :
    beat data strobe (s, q) = beat data strobe (s.rewind, q) := by
  have hwidth : ¬ data.length ≠ s.beatBytes := not_not_intro hdata
  have hwidth' : ¬ data.length ≠ s.rewind.beatBytes := by rwa [rewind_beatBytes]
  unfold beat
  simp only [if_neg hwidth, if_neg hwidth', rewind_rewind]

/-- **A beat fails in one of the ways that `Fails` lists.** -/
theorem fails_of_beat [Port π] (h : beat data strobe (s, q) = .error (.error failure) (s', q')) :
    Fails s q data strobe failure s' q' := by
  by_cases hdata : data.length = s.beatBytes
  case neg =>
    rw [beat_of_length_ne hdata] at h
    cases h
    exact .width hdata
  have hdirection : s.rewind.direction = s.direction := by unfold rewind; split <;> rfl
  have hoperand : s.rewind.operand = s.operand := by unfold rewind; split <;> rfl
  unfold beat at h
  simp only [if_neg (not_not_intro hdata), rewind_addr, hdirection, hoperand] at h
  cases haddr : s.addr with
  | error t =>
    rw [haddr] at h
    cases h
  | ok a =>
    simp only [haddr] at h
    cases hacc : Port.access ⟨s.direction, a, data, strobe⟩ q with
    | error fault port =>
      simp only [hacc] at h
      cases fault with
      | poisoned =>
        cases h
        exact .poisoned hdata haddr hacc
      | trap t => cases h
    | ok reply port =>
      simp only [hacc] at h
      by_cases hstatus : reply.status = .ok
      · -- once the port has served the beat, it cannot fail any more
        rw [if_neg (not_not_intro hstatus)] at h
        split at h <;> cases h
      · rw [if_pos hstatus] at h
        cases h
        exact .refused hdata haddr hacc hstatus

/-! ## What comes later -/

/-- Streams that differ at most in that one of them has yet to start over. -/
def Alike (s t : Stream) : Prop := s.rewind = t.rewind

/-- The same answer, from the same port, by streams that stay alike. -/
inductive Agree {α : Type} :
    EStateM.Result (Stop Failure) (Stream × π) α →
      EStateM.Result (Stop Failure) (Stream × π) α → Prop
  | ok {s t : Stream} (a : α) (q : π) (h : s.Alike t) : Agree (.ok a (s, q)) (.ok a (t, q))
  | error {s t : Stream} (stop : Stop Failure) (q : π) (h : s.Alike t) :
      Agree (.error stop (s, q)) (.error stop (t, q))

theorem Agree.refl {α : Type} (r : EStateM.Result (Stop Failure) (Stream × π) α) : Agree r r := by
  cases r with
  | ok a st => exact .ok a st.2 rfl
  | error stop st => exact .error stop st.2 rfl

theorem rewind_operand (s : Stream) : s.rewind.operand = s.operand := by
  unfold rewind
  split <;> rfl

/-- Where a stream is in its pattern does not hang on what it has counted. -/
theorem rewind_withStats (s : Stream) (stats : StreamStats) :
    ({ s with stats } : Stream).rewind = { s.rewind with stats } := by
  unfold rewind isDone
  dsimp only
  split <;> rfl

namespace Alike

theorem stats_eq (h : s.Alike t) : s.stats = t.stats := by
  rw [← rewind_stats s, h, rewind_stats]

theorem withStats (h : s.Alike t) (stats : StreamStats) :
    ({ s with stats } : Stream).Alike { t with stats } := by
  rw [Alike, rewind_withStats s, rewind_withStats t, h]

theorem bubble (h : s.Alike t) (q : π) :
    Agree (Stream.bubble (s, q)) (Stream.bubble (t, q)) := by
  unfold Stream.bubble idle
  simp only [h.stats_eq]
  cases Word.add t.stats.bubbles 1 with
  | error e => exact .error _ q h
  | ok bubbles =>
    cases Word.add t.stats.latency 1 with
    | error e => exact .error _ q h
    | ok latency => exact .ok _ q (h.withStats _)

/-- A beat that reaches the port starts over first, so that nothing is left to differ in. -/
theorem beat [Port π] (h : s.Alike t) (data : Bytes) (strobe : Strobe) (q : π) :
    Agree (Stream.beat data strobe (s, q)) (Stream.beat data strobe (t, q)) := by
  have hwidth : s.beatBytes = t.beatBytes := by rw [← rewind_beatBytes s, h, rewind_beatBytes]
  have hoperand : s.operand = t.operand := by rw [← rewind_operand s, h, rewind_operand]
  by_cases hdata : data.length = t.beatBytes
  · rw [beat_eq_rewind (hdata.trans hwidth.symm), beat_eq_rewind hdata, h]
    exact .refl _
  · rw [beat_of_length_ne hdata, beat_of_length_ne (hwidth ▸ hdata), hwidth, hoperand]
    exact .error _ q h

/-- **Streams that are alike answer alike**, and stay so. -/
theorem run [Port π] (h : s.Alike t) (c : Call) (q : π) : Agree (c.run (s, q)) (c.run (t, q)) := by
  cases c with
  | bubble => exact h.bubble q
  | beat data strobe =>
    have hbeat := h.beat data strobe q
    generalize hs : Stream.beat data strobe (s, q) = rs at hbeat
    generalize ht : Stream.beat data strobe (t, q) = rt at hbeat
    cases hbeat with
    | ok l q' halike =>
      rw [Call.run_beat_ok hs, Call.run_beat_ok ht]
      exact .ok _ _ halike
    | error stop q' halike =>
      rw [Call.run_beat_error hs, Call.run_beat_error ht]
      exact .error _ _ halike

theorem after [Port π] (h : s.Alike t) (c : Call) (q : π) :
    (∃ s' t' q', c.after (s, q) = .ok (s', q') ∧ c.after (t, q) = .ok (t', q') ∧ s'.Alike t') ∨
      ∃ e, c.after (s, q) = .error e ∧ c.after (t, q) = .error e := by
  have hrun := h.run c q
  unfold Call.after
  generalize c.run (s, q) = rs at hrun
  generalize c.run (t, q) = rt at hrun
  cases hrun with
  | ok _ q' halike => exact .inl ⟨_, _, q', rfl, rfl, halike⟩
  | error stop q' halike =>
    cases stop with
    | error failure => exact .inl ⟨_, _, q', rfl, rfl, halike⟩
    | trap e => exact .inr ⟨e, rfl, rfl⟩

theorem afterAll [Port π] (h : s.Alike t) (calls : List Call) (q : π) :
    (∃ s' t' q', Stream.afterAll calls (s, q) = .ok (s', q') ∧
      Stream.afterAll calls (t, q) = .ok (t', q') ∧ s'.Alike t') ∨
    ∃ e, Stream.afterAll calls (s, q) = .error e ∧ Stream.afterAll calls (t, q) = .error e := by
  induction calls generalizing s t q with
  | nil => exact .inl ⟨s, t, q, rfl, rfl, h⟩
  | cons c calls ih =>
    rw [Stream.afterAll, Stream.afterAll]
    obtain ⟨s', t', q', hs, ht, halike⟩ | ⟨e, hs, ht⟩ := h.after c q
    · rw [hs, ht, ok_bind, ok_bind]
      exact ih halike q'
    · rw [hs, ht]
      exact .inr ⟨e, rfl, rfl⟩

end Alike

/-- Two streams that no calls tell apart, on one port: after any calls there is the same port,
and every next call has the same answer, or both have trapped. -/
def Interchangeable [Port π] (s t : Stream) (q : π) : Prop :=
  ∀ calls,
    (∃ s₁ t₁ q₁, afterAll calls (s, q) = .ok (s₁, q₁) ∧ afterAll calls (t, q) = .ok (t₁, q₁) ∧
      ∀ c, Agree (Call.run c (s₁, q₁)) (c.run (t₁, q₁))) ∨
    ∃ e, afterAll calls (s, q) = .error e ∧ afterAll calls (t, q) = .error e

/-- **Streams that are alike are interchangeable.** -/
theorem Alike.interchangeable [Port π] (h : s.Alike t) (q : π) : Interchangeable s t q := by
  intro calls
  obtain ⟨s₁, t₁, q₁, hs, ht, halike⟩ | ⟨e, hs, ht⟩ := h.afterAll calls q
  · exact .inl ⟨s₁, t₁, q₁, hs, ht, fun c => halike.run c q₁⟩
  · exact .inr ⟨e, hs, ht⟩

/-! ## Main result -/

/-- Whether a beat that the port does not serve makes the stream forget that it is done: it
reaches the port, at the end of a pattern that has beats. -/
structure Forgets (s : Stream) (data : Bytes) : Prop where
  width : data.length = s.beatBytes
  done : s.isDone = true
  total_pos : 0 < s.pattern.total

/-- At the end of a pattern without beats nothing changes. -/
theorem rewind_of_empty (h : s.pattern.total = 0) : s.rewind = s := by
  by_cases hdone : s.isDone = true
  · have hzero : s.done = 0 := (beq_iff_eq.mp hdone).trans h
    rw [rewind_of_done hdone, ← hzero]
  · exact rewind_of_not_done hdone

/-- **A beat that fails moves nothing and counts nothing.** It leaves the stream as it was,
but for one case: at the end of its pattern the port is asked after the count of beats has
started over, and then the stream is no longer done. Nothing that it does later shows the
difference. -/
theorem beat_failed_keeps [Port π]
    (h : beat data strobe (s, q) = .error (.error failure) (s', q')) :
    (s'.pattern = s.pattern ∧ s'.pos = s.pos ∧ s'.addr = s.addr ∧ s'.stats = s.stats) ∧
      (¬ s.Forgets data → s' = s) ∧
      (s.Forgets data → s' = { s with done := 0 } ∧ s'.isDone = false) ∧
      Interchangeable s' s q' := by
  -- what is left is the stream itself or the stream started over
  have hleft : (data.length ≠ s.beatBytes ∧ s' = s) ∨
      (data.length = s.beatBytes ∧ s' = s.rewind) := by
    cases fails_of_beat h with
    | width hdata => exact .inl ⟨hdata, rfl⟩
    | poisoned hdata | refused hdata => exact .inr ⟨hdata, rfl⟩
  have halike : s'.Alike s := by
    rcases hleft with ⟨-, rfl⟩ | ⟨-, rfl⟩
    · exact rfl
    · exact rewind_rewind s
  refine ⟨?_, fun hkeeps => ?_, fun hforgets => ?_, halike.interchangeable q'⟩
  · rcases hleft with ⟨-, rfl⟩ | ⟨-, rfl⟩
    · exact ⟨rfl, rfl, rfl, rfl⟩
    · exact ⟨rewind_pattern s, rewind_pos s, rewind_addr s, rewind_stats s⟩
  · rcases hleft with ⟨-, rfl⟩ | ⟨hdata, rfl⟩
    · rfl
    · by_cases hdone : s.isDone = true
      · have hempty : ¬ 0 < s.pattern.total := fun hpos => hkeeps ⟨hdata, hdone, hpos⟩
        exact rewind_of_empty (by omega)
      · exact rewind_of_not_done hdone
  · rcases hleft with ⟨hdata, -⟩ | ⟨-, rfl⟩
    · exact absurd hforgets.width hdata
    · rw [rewind_of_done hforgets.done]
      refine ⟨rfl, ?_⟩
      have hpos := hforgets.total_pos
      have hne : (0 : Nat) ≠ s.pattern.total := by omega
      exact beq_false_of_ne hne

/-! ## At the end of a pattern -/

/-- What patterns and calls make of a stream, whatever the port holds before each call. -/
inductive Reachable (π : Type) [Port π] : Stream → Prop
  | unconfigured (operand : Operand) (direction : Direction) (beatBytes : Nat) :
      Reachable π (.unconfigured operand direction beatBytes)
  | configured {s : Stream} (h : Reachable π s) (p : Pattern) : Reachable π (s.configure p)
  | called {s s' : Stream} {q q' : π} (h : Reachable π s) (c : Call)
      (hafter : c.after (s, q) = .ok (s', q')) : Reachable π s'

end Stream

/-- A pattern of one beat of four bytes. -/
def Pattern.single : Pattern := ⟨0, 1, ⟨1, 4⟩, ⟨1, 0⟩, ⟨1, 0⟩, 0⟩

namespace Stream

/-- A stream that has walked the whole of that pattern. -/
def walkedSingle : Stream :=
  { (unconfigured .x .read 4).configure .single with done := 1, stats := ⟨1, 0, 4, 4⟩ }

/-- The gate that denies the second beat, once it has served the first. -/
def denying : GatedMemory := { secondDenied with seen := 1 }

theorem reachable_walkedSingle : Reachable GatedMemory walkedSingle :=
  ((Reachable.unconfigured .x .read 4).configured .single).called (q := secondDenied)
    (.beat [0, 0, 0, 0] .full) rfl

/-- A beat after the last one is denied. The stream has its one beat behind it no longer, and
goes on like a stream that still has. -/
theorem beat_failed_keeps_single : ∃ (s' : Stream) (q' : GatedMemory),
    beat [0, 0, 0, 0] .full (walkedSingle, denying) =
      .error (.error (.transaction .x 0 .denied)) (s', q') ∧
    s' = { walkedSingle with done := 0 } ∧ s'.addr = .ok 0 ∧ s'.stats = ⟨1, 0, 4, 4⟩ ∧
    Interchangeable s' walkedSingle q' := by
  obtain ⟨s', q', hbeat⟩ : ∃ s' q', beat [0, 0, 0, 0] .full (walkedSingle, denying) =
      .error (.error (.transaction .x 0 .denied)) (s', q') := ⟨_, _, rfl⟩
  obtain ⟨⟨-, -, haddr, hstats⟩, -, hforgets, hlater⟩ := beat_failed_keeps hbeat
  exact ⟨s', q', hbeat, (hforgets ⟨rfl, rfl, Nat.one_pos⟩).1, haddr, hstats, hlater⟩

/-- So a beat that fails does not leave every count as it was: one beat was done, and then none
is. -/
theorem beat_failed_forgets : ∃ (s s' : Stream) (q q' : GatedMemory),
    Reachable GatedMemory s ∧
    beat [0, 0, 0, 0] .full (s, q) = .error (.error (.transaction .x 0 .denied)) (s', q') ∧
    s.done = 1 ∧ s.isDone = true ∧ s'.done = 0 ∧ s'.isDone = false :=
  ⟨walkedSingle, _, denying, _, reachable_walkedSingle, rfl, rfl, rfl, rfl, rfl⟩

end Stream

end SystolicGemm
