import SystolicGemm.Proofs.Simulation.Launch

/-!
# A job under way is left alone

What the accelerator hears while a job is under way changes neither the accesses
of the job nor its report, nor when that is sent. The reason is that a run of the
simulation follows the deliveries of the engine, whatever is said in between: a
step either delivers the armed event, or it passes messages on and costs no time.

What is left of a job is told by `Engine.Reports`, as deliveries. A run up to the
interrupt reads it off (`attend_reports`), and any run that goes on for long enough
acts it out (`Sound.attended`).
-/

namespace SystolicGemm

namespace Simulation

variable {π : Type} [Port π] {g : Geometry} {s s' : Simulation} {q q' : π}
  {events : List (Event × Nat)} {report : JobReport}

/-! ## Attending a job -/

/-- Steps until there is an interrupt, with a batch of messages put in before each
step. -/
def attend : List (List Message) → Run SimulationError (Simulation × π) (Option Message)
  | [] => return none
  | batch :: batches => do
    modify fun (s, port) => ({ s with queue := s.queue ++ batch }, port)
    let _ ← step
    match (← get).1.emitted with
    | some m => return some m
    | none => attend batches

section

variable {batch : List Message} {batches : List (List Message)}

theorem attend_emitted {b : Bool} {m : Message}
    (h : step ({ s with queue := s.queue ++ batch }, q) = .ok b (s', q'))
    (hm : s'.emitted = some m) : attend (batch :: batches) (s, q) = .ok (some m) (s', q') := by
  show (step >>= _) ({ s with queue := s.queue ++ batch }, q) = _
  rw [run_bind_ok h]
  simp only [run_get_bind, hm]
  rfl

theorem attend_silent {b : Bool}
    (h : step ({ s with queue := s.queue ++ batch }, q) = .ok b (s', q'))
    (hm : s'.emitted = none) : attend (batch :: batches) (s, q) = attend batches (s', q') := by
  show (step >>= _) ({ s with queue := s.queue ++ batch }, q) = _
  rw [run_bind_ok h]
  simp only [run_get_bind, hm]

theorem attend_error {stop : Stop SimulationError} {st : Simulation × π}
    (h : step ({ s with queue := s.queue ++ batch }, q) = .error stop st) :
    attend (batch :: batches) (s, q) = .error stop st := by
  show (step >>= _) ({ s with queue := s.queue ++ batch }, q) = _
  rw [run_bind_error h]

end

/-! ## A run up to the interrupt reads off what is left -/

/-- The time after deliveries: each takes the delay of its event. -/
def elapsed (now : Double) (events : List (Event × Nat)) : Double :=
  events.foldl (fun now (_, l) => after now l) now

/-- Whatever is heard while a job is under way, as much of the job is left. -/
theorem Sound.reports_hears (hs : s.Sound g) (hbusy : s.device.engine.busy = true) {now : Double}
    {as : List (Option RegisterAccess)} {d : Device} (hhears : Device.Hears g now s.device as d) :
    Engine.Reports d.engine q events report q' ↔
      Engine.Reports s.device.engine q events report q' := by
  rw [(hhears.busy hbusy).1]
  split
  · exact hs.device.standing.reports_clearIrq
  · exact Iff.rfl

theorem heard_append {batch : List Message} :
    ({ s with queue := s.queue ++ batch } : Simulation).Heard ↔
      s.Heard ∧ ∀ m ∈ batch.filter (·.target == hostName), m.Heard := by
  simp only [Heard, List.filter_append, List.mem_append, or_imp, forall_and]

theorem Sound.working (hs : s.Sound g) (hbusy : s.device.engine.busy = true)
    (queue : List Message) : ({ s with queue := queue } : Simulation).pendingWork = true :=
  (hs.queued queue).pendingWork_iff.mpr (.inr (hs.device.busy_iff.mp hbusy))

/-- **A run up to the interrupt** has delivered what was left of the job. -/
theorem attend_reports (hg : g.Valid) {batches : List (List Message)} {m : Message}
    (hs : s.Sound g) (hbusy : s.device.engine.busy = true)
    (h : attend batches (s, q) = .ok (some m) (s', q')) :
    s.Heard ∧ ∃ events report, Engine.Reports s.device.engine q events report q' ∧
      s'.time = elapsed s.time events ∧ s'.device.engine.report = report ∧
      m = interrupt s'.time report := by
  induction batches generalizing s q with
  | nil => cases h
  | cons batch batches ih =>
    have hs₀ := hs.queued (s.queue ++ batch)
    have hwork := hs.working hbusy (s.queue ++ batch)
    obtain ⟨s₁, q₁, hstep, hadv⟩ | ⟨stop, st, hstep, -⟩ := hs₀.step_working hg hwork q
    · have hs₁ := hs₀.advanced hg hadv
      cases hadv with
      | waited hheard hhears hqueue hwait =>
        rw [attend_silent hstep (emitted_answers (hs₀.device.hears hg hhears) rfl)] at h
        obtain ⟨-, events, report, hrep, hend⟩ := ih hs₁ (hhears.still_busy hbusy) h
        exact ⟨(heard_append.mp hheard).1, events, report,
          (hs₀.reports_hears hbusy hhears).mp hrep, hend⟩
      | @continued d _ event l e _ hheard hhears hpend hdel =>
        have hd := hs₀.device.hears hg hhears
        obtain ⟨⟨event', l', harmed⟩, -⟩ := hd.standing.goesOn hg hpend hdel
        have hbusy₁ := hs₁.device.busy_of_armed harmed
        rw [attend_silent hstep (emitted_answers hd rfl)] at h
        obtain ⟨-, events, report, hrep, hend⟩ := ih hs₁ hbusy₁ h
        exact ⟨(heard_append.mp hheard).1, (event, l) :: events, report,
          (hs₀.reports_hears hbusy hhears).mp (.more hpend hdel hrep), hend⟩
      | @completed d _ event l e _ report hheard hhears hpend hdel =>
        have hd := hs₀.device.hears hg hhears
        obtain ⟨-, hreport, he, -, -⟩ := hd.standing.reported hg hpend hdel
        rw [attend_emitted hstep (emitted_interrupt hd rfl)] at h
        cases h
        refine ⟨(heard_append.mp hheard).1, [(event, l)], report,
          (hs₀.reports_hears hbusy hhears).mp (.last hpend hdel), rfl, ?_, rfl⟩
        rw [Device.complete_eq]
        show e.report = report
        rw [he, hreport]
    · rw [attend_error hstep] at h
      cases h

/-! ## A run acts out what is left -/

/-- How far a queue is from letting the armed event through: messages to the
accelerator make answers to the host, and those make nothing. -/
def load (s : Simulation) : Nat := if s.queue = [] then 0 else if s.requests = [] then 1 else 2

theorem load_le (s : Simulation) : s.load ≤ 2 := by
  unfold load
  split
  · decide
  · split <;> decide

/-- A step that only passes messages on lightens the queue. -/
theorem load_waited (hg : g.Valid) (hs : s.Sound g) {d : Device} {h : Host}
    (hhears : Device.Hears g s.time s.device s.requests d) (hqueue : s.queue ≠ []) (d' : Device) :
    (⟨d', h, answers s.time d, s.time⟩ : Simulation).load < s.load := by
  have hrequests : (⟨d', h, answers s.time d, s.time⟩ : Simulation).requests = [] :=
    requests_answers (hs.device.hears hg hhears) rfl
  by_cases hnone : s.requests = []
  · -- without a request there is no answer
    rw [hnone] at hhears
    cases hhears
    have hempty : answers s.time s.device = [] := by rw [answers, hs.empty, List.filterMap_nil]
    rw [load, load, if_pos hempty, if_neg hqueue, if_pos hnone]
    decide
  · rw [load, load, if_pos hrequests, if_neg hqueue, if_neg hnone]
    split <;> decide

/-- What a step makes of a job that ends in a report. -/
inductive Progress (s : Simulation) (q q' : π) (report : JobReport) :
    List (Event × Nat) → Simulation → π → Prop
  | waited {events : List (Event × Nat)} {s₁ : Simulation} (htime : s₁.time = s.time)
      (hsilent : s₁.emitted = none) (hheard : s₁.Heard) (hrequests : s₁.requests = [])
      (hload : s₁.load < s.load)
      (h : Engine.Reports s₁.device.engine q events report q') :
      Progress s q q' report events s₁ q
  | continued {event : Event} {l : Nat} {events : List (Event × Nat)} {s₁ : Simulation} {q₁ : π}
      (htime : s₁.time = after s.time l) (hsilent : s₁.emitted = none) (hheard : s₁.Heard)
      (hrequests : s₁.requests = [])
      (h : Engine.Reports s₁.device.engine q₁ events report q') :
      Progress s q q' report ((event, l) :: events) s₁ q₁
  | completed {event : Event} {l : Nat} {s₁ : Simulation} (htime : s₁.time = after s.time l)
      (hreport : s₁.device.engine.report = report)
      (hemitted : s₁.emitted = some (interrupt s₁.time report)) :
      Progress s q q' report [(event, l)] s₁ q'

/-- **A step of a job that ends in a report** makes progress towards it. -/
theorem Sound.progress (hs : s.Sound g) (hg : g.Valid) (hheard : s.Heard)
    (h : Engine.Reports s.device.engine q events report q') :
    ∃ s₁ q₁, step (s, q) = .ok true (s₁, q₁) ∧ s₁.Sound g ∧
      Progress s q q' report events s₁ q₁ := by
  have hbusy := hs.device.busy_iff.mpr h.armed.1
  have hwork : s.pendingWork = true := hs.working hbusy s.queue
  obtain ⟨s₁, q₁, hstep, hadv⟩ | ⟨stop, st, -, hadv⟩ := hs.step_working hg hwork q
  · refine ⟨s₁, q₁, hstep, hs.advanced hg hadv, ?_⟩
    cases hadv with
    | waited _ hhears hqueue =>
      have hd := hs.device.hears hg hhears
      exact .waited rfl (emitted_answers hd rfl) (heard_answers hd rfl) (requests_answers hd rfl)
        (load_waited hg hs hhears hqueue _) ((hs.reports_hears hbusy hhears).mpr h)
    | continued _ hhears hpend hdel =>
      have hd := hs.device.hears hg hhears
      have hrep := (hs.reports_hears hbusy hhears).mpr h
      obtain ⟨e', hd', -⟩ | ⟨e', q₂, rest, hd', rfl, hrest⟩ := hrep.next hpend <;>
        cases hdel.symm.trans hd'
      exact .continued rfl (emitted_answers hd rfl) (heard_answers hd rfl) (requests_answers hd rfl)
        hrest
    | @completed d _ event l e _ report' _ hhears hpend hdel =>
      have hd := hs.device.hears hg hhears
      have hrep := (hs.reports_hears hbusy hhears).mpr h
      obtain ⟨-, hreport, he, -, -⟩ := hd.standing.reported hg hpend hdel
      obtain ⟨e', hd', rfl⟩ | ⟨e', q₂, rest, hd', -⟩ := hrep.next hpend <;>
        cases hdel.symm.trans hd'
      refine .completed rfl ?_ (emitted_interrupt hd rfl)
      rw [Device.complete_eq]
      show e.report = _
      rw [he, hreport]
  · cases hadv with
    | refused hrefused => exact absurd hheard hrefused
    | failed _ hhears hpend hdel =>
      have hrep := (hs.reports_hears hbusy hhears).mpr h
      obtain ⟨e', hd, -⟩ | ⟨e', q₁, rest, hd, -⟩ := hrep.next hpend <;> cases hdel.symm.trans hd

/-- A run that ends at the interrupt of a job, after the delays of its events. -/
def Attended (s : Simulation) (q q' : π) (events : List (Event × Nat)) (report : JobReport)
    (batches : List (List Message)) : Prop :=
  ∃ s', attend batches (s, q) = .ok (some (interrupt s'.time report)) (s', q') ∧
    s'.time = elapsed s.time events ∧ s'.device.engine.report = report

section

variable {batch : List Message} {batches : List (List Message)} {s₁ : Simulation} {q₁ : π}
  {b : Bool}

theorem Attended.of_emitted {event : Event} {l : Nat}
    (h : step ({ s with queue := s.queue ++ batch }, q) = .ok b (s', q'))
    (htime : s'.time = after s.time l) (hreport : s'.device.engine.report = report)
    (hm : s'.emitted = some (interrupt s'.time report)) :
    Attended s q q' [(event, l)] report (batch :: batches) :=
  ⟨s', attend_emitted h hm, htime, hreport⟩

theorem Attended.of_waited
    (h : step ({ s with queue := s.queue ++ batch }, q) = .ok b (s₁, q₁))
    (hm : s₁.emitted = none) (htime : s₁.time = s.time)
    (hrest : Attended s₁ q₁ q' events report batches) :
    Attended s q q' events report (batch :: batches) := by
  obtain ⟨s', hrun, hend, hreport⟩ := hrest
  exact ⟨s', (attend_silent h hm).trans hrun, htime ▸ hend, hreport⟩

theorem Attended.of_continued {event : Event} {l : Nat}
    (h : step ({ s with queue := s.queue ++ batch }, q) = .ok b (s₁, q₁))
    (hm : s₁.emitted = none) (htime : s₁.time = after s.time l)
    (hrest : Attended s₁ q₁ q' events report batches) :
    Attended s q q' ((event, l) :: events) report (batch :: batches) := by
  obtain ⟨s', hrun, hend, hreport⟩ := hrest
  refine ⟨s', (attend_silent h hm).trans hrun, ?_, hreport⟩
  rw [hend, htime]
  rfl

end

/-- Without messages every job gets to its interrupt: each event takes at most
three steps, two of them to empty the queue. -/
theorem Sound.attended_quiet (hs : s.Sound g) (hg : g.Valid) (hheard : s.Heard) {n : Nat}
    (h : Engine.Reports s.device.engine q events report q')
    (hn : 3 * events.length + s.load ≤ n) :
    Attended s q q' events report (List.replicate n []) := by
  induction n generalizing s q events with
  | zero =>
    have hpos := h.armed.2
    omega
  | succ n ih =>
    obtain ⟨s₁, q₁, hstep, hs₁, hprogress⟩ := hs.progress hg hheard h
    have hquiet : ({ s with queue := s.queue ++ [] } : Simulation) = s := by
      rw [List.append_nil]
    rw [← hquiet] at hstep
    have hload := s₁.load_le
    rw [List.replicate_succ]
    cases hprogress with
    | waited htime hsilent hheard₁ _ hless h₁ =>
      exact .of_waited hstep hsilent htime (ih hs₁ hheard₁ h₁ (by omega))
    | continued htime hsilent hheard₁ _ h₁ =>
      rw [List.length_cons] at hn
      exact .of_continued hstep hsilent htime (ih hs₁ hheard₁ h₁ (by omega))
    | completed htime hreport hemitted => exact .of_emitted hstep htime hreport hemitted

/-- **With any messages to the accelerator in between** it gets there all the
same. -/
theorem Sound.attended (hs : s.Sound g) (hg : g.Valid) (hheard : s.Heard)
    {batches : List (List Message)}
    (hbatches : ∀ batch ∈ batches, ∀ m ∈ batch, m.target = deviceName)
    (h : Engine.Reports s.device.engine q events report q') {n : Nat}
    (hn : 3 * events.length + 2 ≤ n) :
    Attended s q q' events report (batches ++ List.replicate n []) := by
  induction batches generalizing s q events with
  | nil =>
    have hload := s.load_le
    exact hs.attended_quiet hg hheard h (by omega)
  | cons batch batches ih =>
    have hs₀ := hs.queued (s.queue ++ batch)
    have hheard₀ : ({ s with queue := s.queue ++ batch } : Simulation).Heard :=
      heard_append.mpr ⟨hheard, heard_of_target (hbatches batch List.mem_cons_self)⟩
    obtain ⟨s₁, q₁, hstep, hs₁, hprogress⟩ := hs₀.progress hg hheard₀ h
    have hrest : ∀ batch ∈ batches, ∀ m ∈ batch, m.target = deviceName :=
      fun b hb => hbatches b (List.mem_cons_of_mem _ hb)
    cases hprogress with
    | waited htime hsilent hheard₁ _ _ h₁ =>
      exact .of_waited hstep hsilent htime (ih hs₁ hheard₁ hrest h₁ hn)
    | continued htime hsilent hheard₁ _ h₁ =>
      rw [List.length_cons] at hn
      exact .of_continued hstep hsilent htime (ih hs₁ hheard₁ hrest h₁ (by omega))
    | completed htime hreport hemitted => exact .of_emitted hstep htime hreport hemitted

/-! ## Two runs of one job -/

/-- **A running job cannot be disturbed.** If one run gets from a job under way
to its interrupt, then so does every other one that goes on for long enough,
whatever messages to the accelerator come in between. The interrupt is the same,
report and time included, and so is the port, with all that was asked of it and
answered. -/
theorem attend_undisturbed {ρ : Type} [Port ρ] {g : Geometry} (hg : g.validate = .ok ())
    {s : Simulation} (hs : Reachable (Recorded ρ) g s) (hbusy : s.device.engine.busy = true)
    (q : Recorded ρ) {batches others : List (List Message)}
    (hothers : ∀ batch ∈ others, ∀ m ∈ batch, m.target = deviceName) {m : Message}
    {s₁ : Simulation} {q₁ : Recorded ρ}
    (hrun : attend batches (s, q) = .ok (some m) (s₁, q₁)) :
    m = interrupt s₁.time s₁.device.engine.report ∧
      ∃ steps, ∀ n, steps ≤ n → ∃ s₂,
        attend (others ++ List.replicate n []) (s, q) = .ok (some m) (s₂, q₁) ∧
        s₂.time = s₁.time ∧ s₂.device.engine.report = s₁.device.engine.report := by
  have hvalid := Geometry.validate_eq_ok_iff.mp hg
  have hsound := hs.sound hvalid
  obtain ⟨hheard, events, report, hrep, htime, hreport, rfl⟩ :=
    attend_reports hvalid hsound hbusy hrun
  refine ⟨by rw [hreport], 3 * events.length + 2, fun n hn => ?_⟩
  obtain ⟨s₂, hrun₂, htime₂, hreport₂⟩ := hsound.attended hvalid hheard hothers hrep hn
  have heq : s₂.time = s₁.time := htime₂.trans htime.symm
  rw [heq] at hrun₂
  exact ⟨s₂, hrun₂, heq, hreport₂.trans hreport.symm⟩

/-- Requests of every kind, one of them malformed and one on no known port. -/
def chatter : List Message :=
  [request (.zero .double) (.writing Register.trigger.offset 1),
    request (.zero .double) (.writing Register.softClear.offset 1),
    request (.zero .double) (.writing Register.irqClear.offset 1),
    request (.zero .double) (.writing JobRegister.zAddr.offset 0),
    request (.zero .double) (.reading Register.status.offset),
    ⟨hostName, Device.requestPort, deviceName, Device.requestPort, .zero .double, "offset"⟩,
    ⟨hostName, Device.requestPort, deviceName, Device.irqPort, .zero .double, ""⟩]

/-- The job of `exists_underWay`, left alone and with requests of every kind in
between. -/
theorem attend_undisturbed_ragged : ∃ (s : Simulation) (q : Recorded Memory) (k : Nat)
    (m : Message) (s₁ : Simulation) (q₁ : Recorded Memory),
    Reachable (Recorded Memory) .narrow s ∧ s.device.engine.busy = true ∧
    attend (List.replicate k []) (s, q) = .ok (some m) (s₁, q₁) ∧
    m = interrupt s₁.time s₁.device.engine.report ∧
    ∃ steps, ∀ n, steps ≤ n → ∃ s₂,
      attend ([chatter, [], chatter] ++ List.replicate n []) (s, q) = .ok (some m) (s₂, q₁) ∧
      s₂.time = s₁.time ∧ s₂.device.engine.report = s₁.device.engine.report := by
  obtain ⟨s, q, events, report, q', hs, hheard, -, hrep⟩ := exists_underWay
  have hsound := hs.sound (Geometry.validate_eq_ok_iff.mp Geometry.validate_narrow)
  have hbusy := hsound.device.busy_iff.mpr hrep.armed.1
  obtain ⟨s₁, hrun, -⟩ := hsound.attended_quiet
    (Geometry.validate_eq_ok_iff.mp Geometry.validate_narrow) hheard hrep (Nat.le_refl _)
  have hothers : ∀ batch ∈ [chatter, [], chatter], ∀ m ∈ batch, m.target = deviceName := by
    decide
  exact ⟨s, q, _, _, s₁, q', hs, hbusy, hrun,
    attend_undisturbed Geometry.validate_narrow hs hbusy q hothers hrun⟩

end Simulation

end SystolicGemm
