import SystolicGemm.Bench.Shell
import SystolicGemm.Proofs.Bench.Run

/-!
# Sessions cut a run into pieces

Both a run and a session look for the interrupt before every step that they make, and
both leave it to the step to say that the limit is reached or that nothing is left to
do. So a session makes the steps of the run, in their order, and its commands only say
how many: `Makes` is what the two have in common. A session that is left before the end
has made as many steps as were asked for, or all of them.

What a session writes is its own. Everything here is said apart from the journal, which
no step looks at.
-/

namespace SystolicGemm

namespace Bench

variable {π : Type} {α : Type} {s s₁ s' t : Bench × π}

/-! ## Apart from what is written -/

/-- The bench with nothing written. -/
def unwritten (b : Bench) : Bench := { b with journal := #[] }

/-- A bench and its memory, apart from what is written. -/
def bare (s : Bench × π) : Bench × π := (s.1.unwritten, s.2)

/-- What a computation comes to, apart from what is written. -/
def bareResult : EStateM.Result (Stop BenchError) (Bench × π) α →
    EStateM.Result (Stop BenchError) (Bench × π) α
  | .ok a s => .ok a (bare s)
  | .error stop s => .error stop (bare s)

theorem bareResult_ok_eq {a : α} {r : EStateM.Result (Stop BenchError) (Bench × π) α}
    (h : bareResult (.ok a s) = bareResult r) : ∃ t, r = .ok a t ∧ bare s = bare t := by
  cases r with
  | ok a' t =>
    obtain ⟨rfl, hbare⟩ := EStateM.Result.ok.inj h
    exact ⟨t, rfl, hbare⟩
  | error stop t => cases h

theorem bareResult_error_eq {stop : Stop BenchError}
    {r : EStateM.Result (Stop BenchError) (Bench × π) α}
    (h : bareResult (.error stop s) = bareResult r) :
    ∃ t, r = .error stop t ∧ bare s = bare t := by
  cases r with
  | ok a t => cases h
  | error stop' t =>
    obtain ⟨rfl, hbare⟩ := EStateM.Result.error.inj h
    exact ⟨t, rfl, hbare⟩

theorem maxSteps_eq_of_bare (h : bare s = bare t) : s.1.maxSteps = t.1.maxSteps :=
  congrArg (fun s => s.1.maxSteps) h

theorem steps_eq_of_bare (h : bare s = bare t) : s.1.steps = t.1.steps :=
  congrArg (fun s => s.1.steps) h

theorem simulation_eq_of_bare (h : bare s = bare t) : s.1.simulation = t.1.simulation :=
  congrArg (fun s => s.1.simulation) h

theorem unwritten_showMessages (b : Bench) : b.showMessages.unwritten = b.unwritten := by
  simp only [showMessages]
  cases b.watch.trace <;> rfl

theorem unwritten_stepped (b : Bench) (s : Simulation) :
    (b.stepped s).unwritten = { b.unwritten with simulation := s, steps := b.steps + 1 } :=
  congrArg (fun c : Bench => { c with simulation := s, steps := b.steps + 1 })
    (unwritten_showMessages b)

theorem unwritten_failed (b : Bench) (e : SimulationError) (s : Simulation) :
    (b.failed e s).unwritten = { b.unwritten with simulation := s } :=
  congrArg (fun c : Bench => { c with simulation := s }) (unwritten_showMessages b)

theorem unwritten_trapped (b : Bench) (s : Simulation) :
    (b.trapped s).unwritten = { b.unwritten with simulation := s } :=
  congrArg (fun c : Bench => { c with simulation := s }) (unwritten_showMessages b)

theorem readAside_ok (s : Bench × π) : ∃ t, readAside s = .ok () t ∧ bare s = bare t :=
  ⟨_, rfl, rfl⟩

theorem report_cases (s : Bench × π) :
    (∃ r, Bench.report s = .ok r s) ∨ ∃ stop, Bench.report s = .error stop s := by
  obtain ⟨b, q⟩ := s
  cases h : b.report? with
  | ok r => exact .inl ⟨r, by simp only [Bench.report, h]⟩
  | error e => exact .inr ⟨.error e, by simp only [Bench.report, h]⟩

/-- Looking for the interrupt does not depend on what is written. -/
theorem bareResult_report (h : bare s = bare t) :
    bareResult (Bench.report s) = bareResult (Bench.report t) := by
  have hsimulation := simulation_eq_of_bare h
  obtain ⟨b, q⟩ := s
  obtain ⟨b', q'⟩ := t
  dsimp only at hsimulation
  simp only [Bench.report, report?, hsimulation]
  split
  · exact congrArg (EStateM.Result.ok _) h
  · exact congrArg (EStateM.Result.error _) h

theorem report_none_of_bare (hbare : bare s = bare t) (h : Bench.report s = .ok none s) :
    Bench.report t = .ok none t := by
  have hreport := bareResult_report hbare
  rw [h] at hreport
  obtain ⟨r, ht⟩ | ⟨stop, ht⟩ := report_cases t
  · rw [ht] at hreport ⊢
    obtain ⟨rfl, -⟩ := EStateM.Result.ok.inj hreport
    rfl
  · rw [ht] at hreport
    cases hreport

theorem look_none (h : Bench.report s = .ok none s) : look s = .ok none s := by
  rw [look, run_bind_ok h]
  rfl

theorem look_reported {r : JobReport} (h : Bench.report s = .ok (some r) s) :
    ∃ t, look s = .ok (some r) t ∧ bare s = bare t := by
  rw [look, run_bind_ok h]
  exact ⟨_, rfl, rfl⟩

theorem look_unreadable {stop : Stop BenchError} (h : Bench.report s = .error stop s) :
    look s = .error stop s := by
  rw [look, run_bind_error h]

section

variable [Port π]

/-- A step does not depend on what is written. -/
theorem bareResult_step (h : bare s = bare t) : bareResult (step s) = bareResult (step t) := by
  have hmax := maxSteps_eq_of_bare h
  have hsteps := steps_eq_of_bare h
  have hsimulation := simulation_eq_of_bare h
  obtain ⟨b, q⟩ := s
  obtain ⟨b', q'⟩ := t
  obtain ⟨hb, rfl⟩ := Prod.mk.inj h
  dsimp only at hmax hsteps hsimulation hb
  by_cases hlimit : b.maxSteps ≤ b.steps
  · have hlimit' : b'.maxSteps ≤ b'.steps := by omega
    simp only [step, if_pos hlimit, if_pos hlimit']
    rw [hsteps]
    exact congrArg (EStateM.Result.error _) h
  · have hlimit' : ¬ b'.maxSteps ≤ b'.steps := by omega
    simp only [step, if_neg hlimit, if_neg hlimit', hsimulation]
    cases Simulation.step (b'.simulation, q) with
    | ok worked st =>
      obtain ⟨simulation, q'⟩ := st
      cases worked with
      | true => simp only [bareResult, bare, unwritten_stepped, hb, hsteps]
      | false =>
        exact congrArg (fun c : Bench =>
          EStateM.Result.ok false (({ c with simulation := simulation } : Bench), q')) hb
    | error stop st =>
      obtain ⟨simulation, q'⟩ := st
      cases stop with
      | error e => simp only [bareResult, bare, unwritten_failed, hb]
      | trap e => simp only [bareResult, bare, unwritten_trapped, hb]

theorem bareResult_runFor (fuel : Nat) (h : bare s = bare t) :
    bareResult (runFor fuel s) = bareResult (runFor fuel t) := by
  induction fuel generalizing s t with
  | zero => simp only [runFor, bareResult, steps_eq_of_bare h, h]
  | succ fuel ih =>
    have hreport := bareResult_report h
    cases hs : Bench.report s with
    | error stop s₁ =>
      rw [hs] at hreport
      obtain ⟨t₁, ht, -⟩ := bareResult_error_eq hreport
      simp only [runFor, hs, ht]
      rwa [ht] at hreport
    | ok r s₁ =>
      rw [hs] at hreport
      obtain ⟨t₁, ht, h₁⟩ := bareResult_ok_eq hreport
      cases r with
      | some r =>
        simp only [runFor, hs, ht]
        rwa [ht] at hreport
      | none =>
        have hstep := bareResult_step h₁
        cases hs' : step s₁ with
        | error stop s₂ =>
          rw [hs'] at hstep
          obtain ⟨t₂, ht', h₂⟩ := bareResult_error_eq hstep
          simp only [runFor, hs, ht, hs', ht', bareResult, h₂]
        | ok worked s₂ =>
          rw [hs'] at hstep
          obtain ⟨t₂, ht', h₂⟩ := bareResult_ok_eq hstep
          cases worked with
          | false => simp only [runFor, hs, ht, hs', ht', bareResult, h₂]
          | true =>
            simp only [runFor, hs, ht, hs', ht']
            exact ih h₂

/-- **A run does not depend on what is written.** -/
theorem bareResult_run (h : bare s = bare t) : bareResult (run s) = bareResult (run t) := by
  simp only [run, maxSteps_eq_of_bare h, steps_eq_of_bare h]
  exact bareResult_runFor _ h

/-! ## One step of a run -/

/-- **What a step does.** It is counted if it was made, and an idle one changes nothing. -/
theorem step_cases (s : Bench × π) :
    (∃ s₁, step s = .ok true s₁ ∧ s.1.steps < s.1.maxSteps ∧ s₁.1.steps = s.1.steps + 1 ∧
      s₁.1.maxSteps = s.1.maxSteps) ∨
    step s = .ok false s ∨ ∃ stop s₁, step s = .error stop s₁ ∧ s₁.1.steps = s.1.steps := by
  obtain ⟨b, q⟩ := s
  by_cases hlimit : b.maxSteps ≤ b.steps
  · have hstep : step (b, q) = .error (.error (.stepLimit b.steps)) (b, q) := by
      simp only [step, if_pos hlimit]
    exact .inr (.inr ⟨_, _, hstep, rfl⟩)
  have hlt := Nat.lt_of_not_le hlimit
  by_cases hwork : b.simulation.pendingWork = true
  · cases hadvance : Simulation.advance (b.simulation, q) with
    | ok u st =>
      have hstep := step_made hlt (Simulation.step_ok hwork hadvance)
      exact .inl ⟨_, hstep, hlt, rfl, maxSteps_stepped b st.1⟩
    | error stop st =>
      have hsim := Simulation.step_error hwork hadvance
      cases stop with
      | error e =>
        have hsteps := congrArg Bench.steps (unwritten_failed b e st.1)
        refine .inr (.inr ⟨.error (.simulation e), (b.failed e st.1, st.2), ?_, hsteps⟩)
        simp only [step, if_neg hlimit, hsim]
      | trap e =>
        have hsteps := congrArg Bench.steps (unwritten_trapped b st.1)
        refine .inr (.inr ⟨.trap e, (b.trapped st.1, st.2), ?_, hsteps⟩)
        simp only [step, if_neg hlimit, hsim]
  · have hsim := Simulation.step_idle (Bool.not_eq_true _ ▸ hwork) q
    refine .inr (.inl ?_)
    simp only [step, if_neg hlimit, hsim]

theorem step_true (h : step s = .ok true s₁) :
    s.1.steps < s.1.maxSteps ∧ s₁.1.steps = s.1.steps + 1 ∧ s₁.1.maxSteps = s.1.maxSteps := by
  obtain ⟨s₂, hstep, hcounts⟩ | hidle | ⟨stop, s₂, hstep, -⟩ := step_cases s
  · rw [h] at hstep
    cases hstep
    exact hcounts
  · rw [h] at hidle
    cases hidle
  · rw [h] at hstep
    cases hstep

theorem run_reported {r : JobReport} (h : Bench.report s = .ok (some r) s) :
    run s = .ok (some r) s := by
  simp only [run, runFor, h]

theorem run_unreadable {stop : Stop BenchError} (h : Bench.report s = .error stop s) :
    run s = .error stop s := by
  simp only [run, runFor, h]

theorem run_idle (h : Bench.report s = .ok none s) (hstep : step s = .ok false s) :
    run s = .ok none s := by
  simp only [run, runFor, h, hstep]

theorem run_failed {stop : Stop BenchError} (h : Bench.report s = .ok none s)
    (hstep : step s = .error stop s₁) : run s = .error stop s₁ := by
  simp only [run, runFor, h, hstep]

/-- A run goes on after a step with the fuel that it would have had there. -/
theorem run_made (h : Bench.report s = .ok none s) (hstep : step s = .ok true s₁) :
    run s = run s₁ := by
  obtain ⟨hlt, hsteps, hmax⟩ := step_true hstep
  have hfuel : s.1.maxSteps - s.1.steps = s₁.1.maxSteps - s₁.1.steps + 1 := by omega
  simp only [run, hfuel]
  simp only [runFor, h, hstep]

/-! ## The steps of a run -/

/-- The first so many steps of a run: before each of them the host has heard of no
interrupt, and each has something to do. -/
inductive Makes : Nat → Bench × π → Bench × π → Prop
  | refl {s : Bench × π} : Makes 0 s s
  | next {n : Nat} {s s₁ s' : Bench × π} (hunheard : Bench.report s = .ok none s)
      (hstep : step s = .ok true s₁) (hrest : Makes n s₁ s') : Makes (n + 1) s s'

/-- The run makes no further step. -/
def Ended (s : Bench × π) : Prop := ∀ s₁, Bench.report s = .ok none s → step s ≠ .ok true s₁

/-- The state that a run ends in. -/
def finish (s : Bench × π) : Bench × π :=
  match run s with
  | .ok _ s' => s'
  | .error _ s' => s'

/-- How many steps a run makes until the interrupt, until nothing is left to do, or until
it fails. -/
def left (s : Bench × π) : Nat := (finish s).1.steps - s.1.steps

variable {m n : Nat}

theorem Makes.trans (h : Makes m s s₁) (h' : Makes n s₁ s') : Makes (m + n) s s' := by
  induction h with
  | refl => rwa [Nat.zero_add]
  | @next m _ _ _ hunheard hstep _ ih =>
    rw [Nat.add_right_comm]
    exact .next hunheard hstep (ih h')

theorem Makes.steps_eq (h : Makes n s s') : s'.1.steps = s.1.steps + n := by
  induction h with
  | refl => rfl
  | next _ hstep _ ih =>
    obtain ⟨-, hsteps, -⟩ := step_true hstep
    omega

theorem makes_nothing (s : Bench × π) : Makes (min 0 (left s)) s s := by
  rw [Nat.zero_min]
  exact .refl

/-- A run goes on from any of its states to the same end. -/
theorem Makes.run_eq (h : Makes n s s') : run s = run s' := by
  induction h with
  | refl => rfl
  | next hunheard hstep _ ih => exact (run_made hunheard hstep).trans ih

/-- What is written makes no difference to the steps. -/
theorem Makes.exists_bare (h : Makes n s s') (hbare : bare s = bare t) :
    ∃ t', Makes n t t' ∧ bare s' = bare t' := by
  induction h generalizing t with
  | refl => exact ⟨t, .refl, hbare⟩
  | @next _ s _ _ hunheard hstep _ ih =>
    have hunheard' := report_none_of_bare hbare hunheard
    have hmade := bareResult_step hbare
    rw [hstep] at hmade
    obtain ⟨t₁, hstep', hbare₁⟩ := bareResult_ok_eq hmade
    obtain ⟨t', hrest', hbare'⟩ := ih hbare₁
    exact ⟨t', .next hunheard' hstep' hrest', hbare'⟩

/-- Every run ends, for the limit comes nearer with each step. -/
theorem exists_ended (s : Bench × π) : ∃ n s', Makes n s s' ∧ Ended s' := by
  induction hroom : s.1.maxSteps - s.1.steps generalizing s with
  | zero =>
    refine ⟨0, s, .refl, fun s₁ _ hstep => ?_⟩
    obtain ⟨hlt, -, -⟩ := step_true hstep
    omega
  | succ room ih =>
    by_cases hended : Ended s
    · exact ⟨0, s, .refl, hended⟩
    · simp only [Ended, not_forall, not_not] at hended
      obtain ⟨s₁, hunheard, hstep⟩ := hended
      obtain ⟨hlt, hsteps, hmax⟩ := step_true hstep
      obtain ⟨n, s', hmakes, hended⟩ := ih s₁ (by omega)
      exact ⟨n + 1, s', .next hunheard hstep hmakes, hended⟩

/-- Where a run makes no further step, its count stays. -/
theorem Ended.steps_eq (h : Ended s) : (finish s).1.steps = s.1.steps := by
  unfold finish
  obtain ⟨r, hreport⟩ | ⟨stop, hreport⟩ := report_cases s
  · cases r with
    | some r => rw [run_reported hreport]
    | none =>
      obtain ⟨s₁, hstep, -⟩ | hidle | ⟨stop, s₁, hfailed, hsteps⟩ := step_cases s
      · exact absurd hstep (h s₁ hreport)
      · rw [run_idle hreport hidle]
      · rw [run_failed hreport hfailed]
        exact hsteps
  · rw [run_unreadable hreport]

theorem Ended.left_eq (h : Ended s) : left s = 0 := by
  rw [left, h.steps_eq, Nat.sub_self]

theorem left_of_bare (h : bare s = bare t) : left s = left t := by
  have hrun := bareResult_run h
  have hsteps := steps_eq_of_bare h
  unfold left finish
  cases hs : run s with
  | ok r s' =>
    rw [hs] at hrun
    obtain ⟨t', ht, hbare⟩ := bareResult_ok_eq hrun
    simp only [ht, steps_eq_of_bare hbare, hsteps]
  | error stop s' =>
    rw [hs] at hrun
    obtain ⟨t', ht, hbare⟩ := bareResult_error_eq hrun
    simp only [ht, steps_eq_of_bare hbare, hsteps]

/-- What is left after some steps of a run. -/
theorem Makes.left_eq (h : Makes n s s') : left s = n + left s' := by
  obtain ⟨m, last, hrest, hended⟩ := exists_ended s'
  have hfinish : finish s = finish last := by
    rw [finish, (h.trans hrest).run_eq, ← finish]
  have hfinish' : finish s' = finish last := by
    rw [finish, hrest.run_eq, ← finish]
  have hsteps := h.steps_eq
  have hrests := hrest.steps_eq
  rw [left, left, hfinish, hfinish', hended.steps_eq]
  omega

/-- **A run makes so many steps, and then no further one.** -/
theorem makes_left (s : Bench × π) : ∃ s', Makes (left s) s s' ∧ Ended s' := by
  obtain ⟨n, s', hmakes, hended⟩ := exists_ended s
  have hleft : left s = n := by rw [hmakes.left_eq, hended.left_eq, Nat.add_zero]
  exact ⟨s', hleft ▸ hmakes, hended⟩

/-! ## A command to make steps -/

/-- **What a command to make steps comes to.** It makes the next steps of the run, no more
than there are, and where it fails the run fails as well. -/
theorem runSteps_cases (n : Nat) (h : Bench.report s = .ok none s) :
    (∃ s', runSteps n s = .ok () s' ∧ Makes (min n (left s)) s s') ∨
      ∃ stop s', runSteps n s = .error stop s' ∧ run s = .error stop s' := by
  induction n generalizing s with
  | zero => exact .inl ⟨s, rfl, makes_nothing s⟩
  | succ n ih =>
    obtain ⟨s₁, hstep, -⟩ | hidle | ⟨stop, s₁, hfailed, -⟩ := step_cases s
    · have hmakes : Makes 1 s s₁ := .next h hstep .refl
      have hleft := hmakes.left_eq
      obtain ⟨r, hreport⟩ | ⟨stop, hreport⟩ := report_cases s₁
      · cases r with
        | some r =>
          -- the interrupt is there, so that no step is left
          have hended : Ended s₁ := by
            intro s₂ hunheard
            rw [hreport] at hunheard
            cases hunheard
          have hone : min (n + 1) (left s) = 1 := by
            rw [hleft, hended.left_eq]
            omega
          refine .inl ⟨s₁, ?_, ?_⟩
          · simp only [runSteps, hstep, hreport]
          · rwa [hone]
        | none =>
          have hcount : min (n + 1) (left s) = 1 + min n (left s₁) := by omega
          obtain ⟨s', hrest, hmakes'⟩ | ⟨stop, s', hrest, hrun⟩ := ih hreport
          · refine .inl ⟨s', ?_, ?_⟩
            · simp only [runSteps, hstep, hreport, hrest]
            · rw [hcount]
              exact hmakes.trans hmakes'
          · refine .inr ⟨stop, s', ?_, (run_made h hstep).trans hrun⟩
            simp only [runSteps, hstep, hreport, hrest]
      · refine .inr ⟨stop, s₁, ?_, (run_made h hstep).trans (run_unreadable hreport)⟩
        simp only [runSteps, hstep, hreport]
    · have hended : Ended s := by
        intro s₁ _ hstep
        rw [hidle] at hstep
        cases hstep
      refine .inl ⟨s, ?_, ?_⟩
      · simp only [runSteps, hidle]
      · rw [hended.left_eq, Nat.min_zero]
        exact .refl
    · refine .inr ⟨stop, s₁, ?_, run_failed h hfailed⟩
      simp only [runSteps, hfailed]

/-! ## The lines of a session -/

/-- What a line says: a command, or nothing that can be read as one. -/
abbrev Line := Outcome CommandFlaw Command

/-- How many steps the lines ask for, up to the first that ends the session. A line that is
no command asks for none. -/
def asked : List Line → Nat
  | [] => 0
  | .ok (.steps n) :: rest => n + asked rest
  | .ok .proceed :: _ => 0
  | .ok .quit :: _ => 0
  | .error _ :: rest => asked rest

/-- The first line that ends a session says that the run is to go on to its end. -/
def Proceeds : List Line → Prop
  | [] => False
  | .ok (.steps _) :: rest => Proceeds rest
  | .ok .proceed :: _ => True
  | .ok .quit :: _ => False
  | .error _ :: rest => Proceeds rest

variable {lines rest : List Line} {r : JobReport}

/-- The interrupt ends a session before any further line is read. -/
theorem attendAll_reported (lines : List Line) (h : Bench.report s = .ok (some r) s) :
    ∃ t, attendAll lines s = .ok (some r) t ∧ bare s = bare t := by
  obtain ⟨t, hlook, hbare⟩ := look_reported h
  refine ⟨t, ?_, hbare⟩
  cases lines with
  | nil => exact run_bind_ok hlook
  | cons line rest => exact run_bind_ok hlook

theorem attendAll_unreadable {stop : Stop BenchError} (lines : List Line)
    (h : Bench.report s = .error stop s) : attendAll lines s = .error stop s := by
  have hlook := look_unreadable h
  cases lines with
  | nil => exact run_bind_error hlook
  | cons line rest => exact run_bind_error hlook

theorem attendAll_nil (h : Bench.report s = .ok none s) :
    ∃ t, attendAll [] s = .ok none t ∧ bare s = bare t :=
  ⟨_, run_bind_ok (look_none h), rfl⟩

/-- A line is taken where nothing has been heard, and decides whether more are read. -/
theorem attendAll_cons (h : Bench.report s = .ok none s) (line : Line) (rest : List Line) :
    attendAll (line :: rest) s = (do
      match ← attend (some line) with
      | some outcome => return outcome
      | none => attendAll rest) s := run_bind_ok (look_none h)

theorem attendAll_quit (h : Bench.report s = .ok none s) (rest : List Line) :
    ∃ t, attendAll (.ok .quit :: rest) s = .ok none t ∧ bare s = bare t := by
  rw [attendAll_cons h]
  exact ⟨_, rfl, rfl⟩

theorem attendAll_flawed (h : Bench.report s = .ok none s) (flaw : CommandFlaw)
    (rest : List Line) :
    ∃ t, attendAll (.error (.error flaw) :: rest) s = attendAll rest t ∧ bare s = bare t := by
  rw [attendAll_cons h]
  exact ⟨_, rfl, rfl⟩

theorem attendAll_proceed (h : Bench.report s = .ok none s) (rest : List Line) :
    ∃ t, attendAll (.ok .proceed :: rest) s = run t ∧ bare s = bare t := by
  obtain ⟨t, haside, hbare⟩ := readAside_ok s
  refine ⟨t, ?_, hbare⟩
  have hattend : attend (some (.ok .proceed)) s = (some <$> run) t := run_bind_ok haside
  rw [attendAll_cons h]
  cases hrun : run t with
  | ok r t' =>
    have hmap : (some <$> run) t = .ok (some r) t' := by
      rw [map_eq_pure_bind, run_bind_ok hrun]
      rfl
    rw [run_bind_ok (hattend.trans hmap)]
    rfl
  | error stop t' =>
    have hmap : (some <$> run) t = .error stop t' := by
      rw [map_eq_pure_bind, run_bind_error hrun]
    rw [run_bind_error (hattend.trans hmap)]

/-- A command to make steps is followed by the next line, or by nothing if it fails. -/
theorem attendAll_steps (h : Bench.report s = .ok none s) (n : Nat) (rest : List Line) :
    ∃ t, bare s = bare t ∧
      (∀ s', runSteps n t = .ok () s' →
        ∃ t', attendAll (.ok (.steps n) :: rest) s = attendAll rest t' ∧ bare s' = bare t') ∧
      ∀ stop s', runSteps n t = .error stop s' →
        attendAll (.ok (.steps n) :: rest) s = .error stop s' := by
  obtain ⟨t, haside, hbare⟩ := readAside_ok s
  have hattend : attend (some (.ok (.steps n))) s = obey (.steps n) t := run_bind_ok haside
  refine ⟨t, hbare, fun s' hmade => ?_, fun stop s' hfailed => ?_⟩
  · have hobey : ∃ t', obey (.steps n) t = .ok none t' ∧ bare s' = bare t' := by
      rw [obey, run_bind_ok hmade]
      exact ⟨_, rfl, rfl⟩
    obtain ⟨t', hobey, hbare'⟩ := hobey
    refine ⟨t', ?_, hbare'⟩
    rw [attendAll_cons h, run_bind_ok (hattend.trans hobey)]
  · have hobey : obey (.steps n) t = .error stop s' := by
      rw [obey, run_bind_error hfailed]
    rw [attendAll_cons h, run_bind_error (hattend.trans hobey)]

/-- How a session over some lines can end, seen from the run: as the run does, or left by
its lines after a part of it. -/
inductive Cuts (lines : List Line) (s : Bench × π) :
    EStateM.Result (Stop BenchError) (Bench × π) (Option JobReport) → Prop
  | whole {r : EStateM.Result (Stop BenchError) (Bench × π) (Option JobReport)}
      (hends : Proceeds lines ∨ ∀ s', r ≠ .ok none s')
      (hsame : bareResult r = bareResult (run s)) : Cuts lines s r
  | part {s' mid : Bench × π} (hleft : ¬ Proceeds lines)
      (hmakes : Makes (min (asked lines) (left s)) s mid) (hsame : bare s' = bare mid) :
      Cuts lines s (.ok none s')

/-- **A line that does not end the session only adds the steps it has made.** -/
theorem Cuts.after {r : EStateM.Result (Stop BenchError) (Bench × π) (Option JobReport)}
    (h : Cuts rest t r) (hmakes : Makes (min n (left s)) s s₁) (hbare : bare s₁ = bare t)
    (hasked : asked lines = n + asked rest) (hproceeds : Proceeds lines ↔ Proceeds rest) :
    Cuts lines s r := by
  have hleft := hmakes.left_eq
  have hleft₁ := left_of_bare hbare
  cases h with
  | whole hends hsame =>
    refine .whole (hends.imp_left hproceeds.mpr) ?_
    rw [hsame, hmakes.run_eq, bareResult_run hbare]
  | part hquit hrest hsame =>
    obtain ⟨mid, hrest', hmid⟩ := hrest.exists_bare hbare.symm
    have hcount : min (asked lines) (left s) = min n (left s) + min (asked rest) (left t) := by
      omega
    refine .part (mt hproceeds.mp hquit) ?_ (hsame.trans hmid)
    rw [hcount]
    exact hmakes.trans hrest'

theorem Cuts.of_bare {r : EStateM.Result (Stop BenchError) (Bench × π) (Option JobReport)}
    (h : Cuts lines t r) (hbare : bare s = bare t) : Cuts lines s r :=
  h.after (makes_nothing s) hbare (Nat.zero_add _).symm Iff.rfl

theorem cuts_heard (lines : List Line) (h : Bench.report s ≠ .ok none s) :
    Cuts lines s (attendAll lines s) := by
  obtain ⟨_ | r, hreport⟩ | ⟨stop, hreport⟩ := report_cases s
  · exact absurd hreport h
  · obtain ⟨t, hattend, hbare⟩ := attendAll_reported lines hreport
    rw [hattend]
    refine .whole (.inr fun s' heq => by cases heq) ?_
    rw [run_reported hreport, bareResult, bareResult, hbare]
  · rw [attendAll_unreadable lines hreport]
    refine .whole (.inr fun s' heq => by cases heq) ?_
    rw [run_unreadable hreport]

/-- **What a session comes to**, line by line: commands make the steps of the run. -/
theorem attendAll_cuts (hread : ∀ trap, .error (.trap trap) ∉ lines) (s : Bench × π) :
    Cuts lines s (attendAll lines s) := by
  induction lines generalizing s with
  | nil =>
    by_cases hreport : Bench.report s = .ok none s
    · obtain ⟨t, hattend, hbare⟩ := attendAll_nil hreport
      rw [hattend]
      exact .part id (makes_nothing s) hbare.symm
    · exact cuts_heard [] hreport
  | cons line rest ih =>
    have hread' : ∀ trap, .error (.trap trap) ∉ rest :=
      fun trap hmem => hread trap (List.mem_cons_of_mem _ hmem)
    by_cases hreport : Bench.report s = .ok none s
    · cases line with
      | error stop =>
        cases stop with
        | trap trap => exact absurd List.mem_cons_self (hread trap)
        | error flaw =>
          obtain ⟨t, hattend, hbare⟩ := attendAll_flawed hreport flaw rest
          rw [hattend]
          exact (ih hread' t).after (makes_nothing s) hbare (Nat.zero_add _).symm Iff.rfl
      | ok command =>
        cases command with
        | steps n =>
          obtain ⟨t, hbare, hmade, hfailed⟩ := attendAll_steps hreport n rest
          obtain ⟨s₁, hsteps, hmakes⟩ | ⟨stop, s₁, hsteps, hrun⟩ :=
            runSteps_cases n (report_none_of_bare hbare hreport)
          · obtain ⟨t₁, hattend, hbare₁⟩ := hmade s₁ hsteps
            have hcuts : Cuts (.ok (.steps n) :: rest) t (attendAll rest t₁) :=
              (ih hread' t₁).after hmakes hbare₁ rfl Iff.rfl
            rw [hattend]
            exact hcuts.of_bare hbare
          · rw [hfailed stop s₁ hsteps, ← hrun]
            refine .whole (.inr fun s' heq => ?_) (bareResult_run hbare).symm
            rw [hrun] at heq
            cases heq
        | proceed =>
          obtain ⟨t, hattend, hbare⟩ := attendAll_proceed hreport rest
          rw [hattend]
          exact .whole (.inl trivial) (bareResult_run hbare).symm
        | quit =>
          obtain ⟨t, hattend, hbare⟩ := attendAll_quit hreport rest
          rw [hattend]
          exact .part id (makes_nothing s) hbare.symm
    · exact cuts_heard (line :: rest) hreport

/-- **Step mode equals continuous mode.** A session that hears of the interrupt, fails, or is
told to proceed comes to what the run comes to: the same report or error, with the same
simulation, memory and count of steps. Any other session reports nothing and makes the first
steps of the run, as many as its commands ask for and no more than there are; the run goes on
from there to its end. -/
theorem session_cuts (hread : ∀ trap, .error (.trap trap) ∉ lines) (s : Bench × π) :
    ((Proceeds lines ∨ ∀ s', session lines s ≠ .ok none s') →
      bareResult (session lines s) = bareResult (run s)) ∧
    (¬ Proceeds lines → ∀ s', session lines s = .ok none s' →
      ∃ mid, Makes (min (asked lines) (left s)) s mid ∧ bare s' = bare mid ∧
        run s = run mid) ∧
    ∃ last, Makes (left s) s last ∧ Ended last := by
  obtain ⟨t, hgreet, hbare⟩ : ∃ t, greet s = .ok () t ∧ bare s = bare t := ⟨_, rfl, rfl⟩
  have hsession : session lines s = attendAll lines t := run_bind_ok hgreet
  have hcuts : Cuts lines s (session lines s) := by
    rw [hsession]
    exact (attendAll_cuts hread t).of_bare hbare
  generalize session lines s = r at hcuts
  cases hcuts with
  | whole hends hsame =>
    refine ⟨fun _ => hsame, fun hleft s' heq => ?_, makes_left s⟩
    obtain hproceeds | hnever := hends
    · exact absurd hproceeds hleft
    · exact absurd heq (hnever s')
  | @part s' mid hleft hmakes hsame =>
    refine ⟨fun hends => ?_, fun _ s'' heq => ?_, makes_left s⟩
    · obtain hproceeds | hnever := hends
      · exact absurd hproceeds hleft
      · exact absurd rfl (hnever s')
    · cases heq
      exact ⟨mid, hmakes, hsame, hmakes.run_eq⟩

end

/-- A bench whose host is about to read a register, which takes two steps and leaves
nothing to do. -/
def inquiring (maxSteps : Nat) : Checked (Bench × Memory) := do
  let s ← Simulation.create .narrow
  return ({
    workload := ⟨.narrow, ⟨1, 1, 1⟩, default, ⟨#[], #[], #[]⟩⟩
    maxSteps
    watch := .blind
    simulation := s.injectAccess (.reading Register.status.offset)
    steps := 0
    journal := #[] }, .zeroed 0 0x10 0)

theorem exists_inquiring (maxSteps : Nat) :
    ∃ s, inquiring maxSteps = .ok s ∧ s.1.steps = 0 := by
  have hg := Geometry.validate_eq_ok_iff.mp Geometry.validate_narrow
  obtain ⟨s, hcreate, -⟩ := Simulation.create_sound hg
  rw [inquiring, hcreate]
  exact ⟨_, rfl, rfl⟩

/-- How many steps a session has made, unless the interrupt was there, and whether it has
failed. -/
def inquired (maxSteps : Nat) (lines : List Line) : Option (Nat × Bool) :=
  match inquiring maxSteps with
  | .error _ => none
  | .ok s =>
    match session lines s with
    | .ok none s' => some (s'.1.steps, false)
    | .ok (some _) _ => none
    | .error _ s' => some (s'.1.steps, true)

theorem inquired_eq :
    inquired 5 [.ok (.steps 1), .error (.error .noSteps), .ok .quit] = some (1, false) ∧
    inquired 1 [.ok (.steps 7), .ok .quit] = some (1, true) := by
  decide +kernel

/-- A session is left after one of two steps, another is told to proceed, and where the
limit is one step, seven are too many for a session as they are for the run. -/
theorem session_cuts_inquiring :
    (∃ s s' mid, inquiring 5 = .ok s ∧
      session [.ok (.steps 1), .error (.error .noSteps), .ok .quit] s = .ok none s' ∧
      Makes 1 s mid ∧ bare s' = bare mid ∧ run s = run mid ∧
      bareResult (session [.ok (.steps 1), .ok .proceed] s) = bareResult (run s)) ∧
    ∃ s stop s', inquiring 1 = .ok s ∧
      session [.ok (.steps 7), .ok .quit] s = .error stop s' ∧
      bareResult (.error stop s') = bareResult (run s) := by
  obtain ⟨hpart, hfailed⟩ := inquired_eq
  constructor
  · obtain ⟨s, hs, hzero⟩ := exists_inquiring 5
    simp only [inquired, hs] at hpart
    split at hpart
    case h_1 s' hsession =>
      obtain ⟨hone, -⟩ := Prod.mk.inj (Option.some.inj hpart)
      have hquits : ∀ trap, (.error (.trap trap) : Line) ∉
          [.ok (.steps 1), .error (.error .noSteps), .ok .quit] := by simp
      have hgoes : ∀ trap, (.error (.trap trap) : Line) ∉
          [.ok (.steps 1), .ok .proceed] := by simp
      obtain ⟨-, hleaves, -⟩ := session_cuts hquits s
      obtain ⟨hproceeds, -⟩ := session_cuts hgoes s
      obtain ⟨mid, hmakes, hbare, hrun⟩ := hleaves id s' hsession
      -- what has been counted is what has been made
      have hcount := hmakes.steps_eq
      have hsteps := steps_eq_of_bare hbare
      have hmade : min (asked [.ok (.steps 1), .error (.error .noSteps), .ok .quit]) (left s) =
          1 := by omega
      exact ⟨s, s', mid, hs, hsession, hmade ▸ hmakes, hbare, hrun, hproceeds (.inl trivial)⟩
    case h_2 => cases hpart
    case h_3 =>
      obtain ⟨-, htrue⟩ := Prod.mk.inj (Option.some.inj hpart)
      cases htrue
  · obtain ⟨s, hs, -⟩ := exists_inquiring 1
    simp only [inquired, hs] at hfailed
    split at hfailed
    case h_1 =>
      obtain ⟨-, hfalse⟩ := Prod.mk.inj (Option.some.inj hfailed)
      cases hfalse
    case h_2 => cases hfailed
    case h_3 stop s' hsession =>
      have hread : ∀ trap, (.error (.trap trap) : Line) ∉ [.ok (.steps 7), .ok .quit] := by simp
      obtain ⟨hends, -⟩ := session_cuts hread s
      rw [hsession] at hends
      exact ⟨s, stop, s', hs, hsession, hends (.inr fun t heq => by cases heq)⟩

end Bench

end SystolicGemm
