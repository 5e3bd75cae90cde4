import SystolicGemm.Engine.Basic
import SystolicGemm.Proofs.Checked

/-!
# The main loop goes round once

The main loop is to run subcycles until one of them takes time or leaves nothing to do, and
then to arm what comes next. Every beat takes the cycle that it is moved in, and so does a
step without one (`cost_pos_of_perform`). A subcycle that moves nothing at all is the last one
of its job and leaves nothing to do. So there is never a second round (`mainLoop_eq`), in
whatever state the engine is.
-/

namespace SystolicGemm

namespace Stream

variable {π : Type}

theorem cost_pos_of_bubble {s : Stream} {port : π} {cost : Nat} {st : Stream × π}
    (h : bubble (s, port) = .ok cost st) : 0 < cost := by
  simp only [bubble] at h
  split at h
  · cases h
    exact Nat.one_pos
  · cases h

theorem cost_pos_of_beat [Port π] {s : Stream} {port : π} {data reply : Bytes} {strobe : Strobe}
    {cost : Nat} {st : Stream × π} (h : beat data strobe (s, port) = .ok (cost, reply) st) :
    0 < cost := by
  simp only [beat] at h
  split at h
  · cases h
  split at h
  · cases h
  split at h
  · cases h
  · cases h
  split at h
  · cases h
  split at h
  · cases h
  next hcost =>
    cases h
    obtain ⟨latency, hadd, hrest⟩ := bind_eq_ok_iff.mp hcost
    obtain ⟨-, rfl⟩ := Word.add_eq_ok_iff.mp hadd
    obtain ⟨s', -, hpair⟩ := bind_eq_ok_iff.mp hrest
    cases hpair
    exact Nat.succ_pos _

end Stream

namespace Engine

variable {π : Type}

theorem runStream_eq_ok {α : Type} {o : Operand} {act : Run Failure (Stream × π) α} {e : Engine}
    {port : π} {a : α} {st : Engine × π} (h : runStream o act (e, port) = .ok a st) :
    ∃ st', act (e.stream o, port) = .ok a st' := by
  simp only [runStream] at h
  split at h
  · next hact =>
    cases h
    exact ⟨_, hact⟩
  · cases h

variable [Port π] {e e' : Engine} {port port' : π} {st st' : Engine × π} {cost : Nat}

/-- Whatever a subcycle moves takes time, and so does moving nothing on the time of a stream. -/
theorem cost_pos_of_perform {p : Plan} {pay : Payload} (h : perform p pay st = .ok cost st') :
    0 < cost := by
  cases pay with
  | transfer t =>
    obtain ⟨_, st₁, -, h⟩ := run_bind_eq_ok h
    obtain ⟨_, st₂, -, h⟩ := run_bind_eq_ok h
    obtain ⟨_, st₃, -, h⟩ := run_bind_eq_ok h
    obtain ⟨_, st₄, hstream, h⟩ := run_bind_eq_ok h
    obtain ⟨_, st₅, -, h⟩ := run_bind_eq_ok h
    cases h
    obtain ⟨_, hbeat⟩ := runStream_eq_ok hstream
    exact Stream.cost_pos_of_beat hbeat
  | paddingW =>
    obtain ⟨_, st₁, -, h⟩ := run_bind_eq_ok h
    obtain ⟨_, st₂, -, h⟩ := run_bind_eq_ok h
    obtain ⟨_, st₃, -, h⟩ := run_bind_eq_ok h
    obtain ⟨_, hbubble⟩ := runStream_eq_ok h
    exact Stream.cost_pos_of_bubble hbubble
  | bubble o =>
    obtain ⟨_, hbubble⟩ := runStream_eq_ok h
    exact Stream.cost_pos_of_bubble hbubble

/-- Only an idle and a finished engine move nothing. -/
theorem phase_of_payload_eq_none {g : Geometry} {p : Plan} {t : Tile} {phase : Phase}
    (h : payload? g p t phase = none) : phase = .idle ∨ phase = .finished := by
  cases phase with
  | idle => exact .inl rfl
  | finished => exact .inr rfl
  | starting step =>
    simp only [payload?] at h
    split at h
    · cases h
    · split at h <;> cases h
  | computing hyper cycle sub =>
    cases sub with
    | zero =>
      simp only [payload?] at h
      split at h <;> cases h
    | succ sub =>
      simp only [payload?] at h
      split at h <;> cases h
  | storing cycle sub queue =>
    cases sub with
    | zero => cases h
    | succ sub =>
      simp only [payload?] at h
      split at h <;> cases h

/-- A finished engine has nothing to do after its subcycle. -/
theorem phase_after_of_finished {p : Plan} (hphase : e.phase = .finished)
    (h : e.after p = .ok e') : e'.phase = .idle := by
  simp only [after, hphase] at h
  split at h
  · cases h
    rfl
  · cases h

/-- **A subcycle that leaves something to do takes time.** -/
theorem cost_pos_of_subcycle (hidle : st.1.phase ≠ .idle) (h : subcycle st = .ok cost st')
    (hidle' : st'.1.phase ≠ .idle) : 0 < cost := by
  obtain ⟨e, port⟩ := st
  cases hplan : e.plan with
  | none =>
    simp only [subcycle, run_get_bind, hplan] at h
    cases h
  | some p =>
    cases hpay : payload? e.geometry p e.tile e.phase with
    | some pay =>
      simp only [subcycle, run_get_bind, hplan, hpay] at h
      obtain ⟨latency, st₁, hperform, h⟩ := run_bind_eq_ok h
      obtain ⟨_, _, hget, h⟩ := run_bind_eq_ok h
      cases hget
      obtain ⟨e₂, st₂, hafter, h⟩ := run_bind_eq_ok h
      cases h
      exact cost_pos_of_perform hperform
    | none =>
      simp only [subcycle, run_get_bind, hplan, hpay] at h
      obtain ⟨latency, st₁, hpure, h⟩ := run_bind_eq_ok h
      cases hpure
      obtain ⟨_, _, hget, h⟩ := run_bind_eq_ok h
      cases hget
      obtain ⟨e₂, st₂, hafter, h⟩ := run_bind_eq_ok h
      cases h
      obtain ⟨hafter, -⟩ := run_liftM_eq_ok hafter
      rcases phase_of_payload_eq_none hpay with hphase | hphase
      · exact absurd hphase hidle
      · exact absurd (phase_after_of_finished hphase hafter) hidle'

omit [Port π] in
theorem phase_of_countCycles {latency : Nat} (h : countCycles latency st = .ok () st') :
    st'.1.phase = st.1.phase := by
  obtain ⟨e, port⟩ := st
  simp only [countCycles, run_get_bind] at h
  obtain ⟨cycles, st₁, hadd, h⟩ := run_bind_eq_ok h
  cases h
  rfl

/-- **The main loop goes round once.** Whatever would come after a subcycle that takes no time
and leaves something to do, there is no such subcycle. -/
theorem mainLoop_eq (again : Run Failure (Engine × π) Unit) :
    mainLoop = (do
      if (← get).1.phase = .idle then armEvent .completion 0
      else
        let latency ← subcycle
        countCycles latency
        if (← get).1.phase = .idle then armEvent .completion 0
        else if 0 < latency then armEvent .mainLoop latency
        else again : Run Failure (Engine × π) Unit) := by
  funext st
  simp only [mainLoop, run_get_bind]
  split
  · rfl
  next hidle =>
  cases hsub : subcycle st with
  | error stop st' => rw [run_bind_error hsub, run_bind_error hsub]
  | ok latency st₁ =>
    rw [run_bind_ok hsub, run_bind_ok hsub]
    cases hcount : countCycles latency st₁ with
    | error stop st' => rw [run_bind_error hcount, run_bind_error hcount]
    | ok u st₂ =>
      rw [run_bind_ok hcount, run_bind_ok hcount]
      simp only [run_get_bind]
      split
      · rfl
      next hidle' =>
      rw [phase_of_countCycles hcount] at hidle'
      rw [if_pos (cost_pos_of_subcycle hidle hsub hidle')]

end Engine

end SystolicGemm
