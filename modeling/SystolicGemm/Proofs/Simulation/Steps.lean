import SystolicGemm.Proofs.Floating.Exact
import SystolicGemm.Proofs.Simulation.Undisturbed

/-!
# The simulation does what the engine does

A job that is left to itself is carried out step by step: the step that takes its
launch delivers its first event, every event after that is a step of its own, one
more step brings the interrupt to the host, and then there is nothing left to do.
So a simulation ends where delivering the events of the engine directly ends, and
the delays add up to the time that has passed.
-/

namespace SystolicGemm

/-- The host that has heard of a finished job. -/
def Host.interrupted (h : Host) (now : Double) (report : JobReport) : Host :=
  { h with reports := h.reports ++ [report] }.record now (.irq report.render)

theorem Host.receive_interrupt {report : JobReport} (hfits : report.Fits) (h : Host)
    (now : Double) : h.receive now irqPort report.render = .ok (h.interrupted now report) := by
  rw [receive, if_pos rfl, JobReport.ofText?_render hfits]
  rfl

namespace Simulation

/-! ## Time -/

/-- **The clock adds up what the events take**, as long as it stays below `2 ^ 53`. -/
theorem elapsed_ofNat {t : Nat} {events : List (Event × Nat)}
    (hlt : t + (events.map (·.2)).sum < 2 ^ 53) :
    elapsed (.ofNat .double t) events = .ofNat .double (t + (events.map (·.2)).sum) := by
  induction events generalizing t with
  | nil => rfl
  | cons event events ih =>
    obtain ⟨event, l⟩ := event
    rw [List.map_cons, List.sum_cons, ← Nat.add_assoc] at hlt ⊢
    have hafter : after (.ofNat .double t) l = .ofNat .double (t + l) :=
      Binary.ofNat_add (by omega)
    rw [← ih hlt, ← hafter]
    rfl

variable {π : Type} [Port π] {g : Geometry} {s s' : Simulation} {q q' : π}
  {events : List (Event × Nat)} {report : JobReport} {event : Event} {l : Nat} {e : Engine}

/-! ## Steps without messages -/

/-- The simulation when the armed event has become due. -/
def atEvent (s : Simulation) (l : Nat) : Simulation :=
  { s with device := { s.device with untilEvent := .zero .double }, time := after s.time l }

/-- Nothing is queued: all the time until the armed event passes. -/
theorem Sound.advance_armed (hs : s.Sound g) (hqueue : s.queue = [])
    (hpend : s.device.engine.pending = some (event, l)) (q : π) :
    advance (s, q) = fire (s.atEvent l, q) := by
  have hdeliver : deliver (s, q) = .ok () (s, q) := by
    rw [deliver_eq, hqueue]
    rfl
  have hu : s.device.untilEvent = .ofNat .double l :=
    hs.device.synced.trans (Device.sync_armed hpend)
  have hdelay : s.delay = .ofNat .double l := by
    rw [delay, hqueue, ← hu, ← Device.untilNext_nil hs.empty]
    rfl
  have hlt := hs.device.standing.delay_lt hpend
  rw [advance_ok hdeliver, hdelay, elapse, Device.elapse, hu, Binary.sub_self_ofNat hlt]
  rfl

theorem Sound.pendingWork_armed (hs : s.Sound g)
    (hpend : s.device.engine.pending = some (event, l)) : s.pendingWork = true :=
  hs.pendingWork_iff.mpr (.inr fun hnone => absurd (hpend.symm.trans hnone) nofun)

/-- An event of a job is a step. -/
theorem Sound.step_continued (hs : s.Sound g) (hqueue : s.queue = [])
    (hpend : s.device.engine.pending = some (event, l))
    (hd : Engine.deliver event (s.device.engine, q) = .ok none (e, q')) :
    step (s, q) = .ok true ({ s with
      device := { s.device with engine := e, outbox := [] }.sync
      queue := []
      time := after s.time l }, q') := by
  have hdue : (Binary.zero .double).lt (s.atEvent l).device.untilEvent = false := by
    show (Binary.zero .double).lt (.zero .double) = false
    decide
  have hfire : Device.fire (s.atEvent l).time ((s.atEvent l).device, q) = _ :=
    Device.fire_due hdue hpend hd
  have hempty : (s.atEvent l).device.outbox = [] := hs.empty
  rw [hempty] at hfire
  refine step_ok (hs.pendingWork_armed hpend) ?_
  rw [hs.advance_armed hqueue hpend, fire_due_ok rfl hfire]
  rfl

/-- The completion of a job is a step, and sends the interrupt. -/
theorem Sound.step_completed (hs : s.Sound g) (hqueue : s.queue = [])
    (hpend : s.device.engine.pending = some (event, l))
    (hd : Engine.deliver event (s.device.engine, q) = .ok (some report) (e, q')) :
    step (s, q) = .ok true ({ s with
      device := ({ s.device with engine := e, outbox := [] }.complete (after s.time l) report).sync
      queue := [interrupt (after s.time l) report]
      time := after s.time l }, q') := by
  have hdue : (Binary.zero .double).lt (s.atEvent l).device.untilEvent = false := by
    show (Binary.zero .double).lt (.zero .double) = false
    decide
  have hfire : Device.fire (s.atEvent l).time ((s.atEvent l).device, q) = _ :=
    Device.fire_completing hdue hpend hd
  have hempty : (s.atEvent l).device.outbox = [] := hs.empty
  rw [hempty] at hfire
  -- the clock is armed anew, whatever it shows
  have hsync := Device.sync_complete { s.device with engine := e, outbox := [] } (.zero .double)
    (after s.time l) report
  refine step_ok (hs.pendingWork_armed hpend) ?_
  rw [hs.advance_armed hqueue hpend, fire_due_ok rfl hfire, ← hsync]
  rfl

/-- The interrupt reaches the host in a step that takes no time. -/
theorem Sound.step_interrupt (hs : s.Sound g) (hpend : s.device.engine.pending = none)
    {now : Double} (hqueue : s.queue = [interrupt now report]) (hfits : report.Fits) (q : π) :
    step (s, q) =
      .ok true ({ s with host := s.host.interrupted s.time report, queue := [] }, q) := by
  have hwork : s.pendingWork = true := by
    refine hs.pendingWork_iff.mpr (.inl ?_)
    rw [hqueue]
    exact List.cons_ne_nil _ _
  have htake : s.host.receive s.time (interrupt now report).targetPort
      (interrupt now report).content = .ok (s.host.interrupted s.time report) :=
    Host.receive_interrupt hfits s.host s.time
  have hhost : hostReceive (interrupt now report) (s, q) =
      .ok () ({ s with host := s.host.interrupted s.time report }, q) := hostReceive_ok htake q
  have hdevice : s.queue.filter (·.target == deviceName) = [] := by
    have hne : (hostName == deviceName) = false := by decide
    rw [hqueue]
    exact List.filter_cons_of_neg (by rw [Bool.not_eq_true]; exact hne)
  have htarget : s.queue.filter (·.target == hostName) = [interrupt now report] := by
    rw [hqueue]
    exact List.filter_cons_of_pos (beq_self_eq_true hostName)
  have hdeliver : deliver (s, q) =
      .ok () ({ s with host := s.host.interrupted s.time report }, q) := by
    have hnone : each (deviceReceive s.time) [] (s, q) = .ok () (s, q) := rfl
    rw [deliver_eq, hdevice, htarget, run_bind_ok hnone, each_cons_ok hhost]
    rfl
  have hu : s.device.untilEvent = .infinity .double :=
    hs.device.synced.trans (Device.sync_idle hpend)
  have hdelay : ({ s with host := s.host.interrupted s.time report } : Simulation).delay =
      .zero .double := by
    rw [delay, hqueue]
    rfl
  have hlt : (Binary.zero .double).lt s.device.untilEvent = true := by
    rw [hu]
    decide
  have hzero : s.device.untilEvent.isZero = false := by
    rw [hu]
    decide
  have hfire := fire_waiting (s := { s with host := s.host.interrupted s.time report }) (q := q)
    hlt hzero
  have hself : ({ s.device with outbox := [] } : Device) = s.device := by rw [← hs.empty]
  rw [answers, hs.empty] at hfire
  refine step_ok hwork ?_
  rw [advance_ok hdeliver, hdelay, elapse, Device.elapse]
  dsimp only at hfire ⊢
  rw [hs.device.until_regular.sub_zero, hs.regular.add_zero, hfire, hself]
  rfl

/-! ## Steps one after the other -/

/-- Some steps, with what each of them says: whether there was anything to do. -/
def steps : Nat → Run SimulationError (Simulation × π) (List Bool)
  | 0 => return []
  | n + 1 => do
    let worked ← step
    return worked :: (← steps n)

theorem steps_succ_ok {st st' st'' : Simulation × π} {b : Bool} {bs : List Bool} {n : Nat}
    (h : step st = .ok b st') (hrest : steps n st' = .ok bs st'') :
    steps (n + 1) st = .ok (b :: bs) st'' := by
  rw [steps, run_bind_ok h, run_bind_ok hrest]
  rfl

/-- So many steps have something to do, and the host hears of none of them. -/
inductive Unheard : Nat → Simulation × π → Simulation × π → Prop
  | none {st : Simulation × π} : Unheard 0 st st
  | next {n : Nat} {st st₁ st' : Simulation × π} (h : step st = .ok true st₁)
      (hhost : st₁.1.host = st.1.host) (hrest : Unheard n st₁ st') : Unheard (n + 1) st st'

theorem Unheard.host_eq {n : Nat} {st st' : Simulation × π} (h : Unheard n st st') :
    st'.1.host = st.1.host := by
  induction h with
  | none => rfl
  | next _ hhost _ ih => exact ih.trans hhost

/-- The first of several steps. -/
theorem Unheard.take {n r : Nat} {st st' : Simulation × π} (h : Unheard n st st') (hle : r ≤ n) :
    ∃ mid, Unheard r st mid := by
  induction h generalizing r with
  | none =>
    obtain rfl := Nat.le_zero.mp hle
    exact ⟨_, .none⟩
  | next hstep hhost _ ih =>
    cases r with
    | zero => exact ⟨_, .none⟩
    | succ r =>
      obtain ⟨mid, hmid⟩ := ih (Nat.le_of_succ_le_succ hle)
      exact ⟨mid, .next hstep hhost hmid⟩

/-- After so many steps of which the host hears nothing, one brings it the interrupt
of a job, and then there is nothing left to do. -/
structure Notifies (n : Nat) (report : JobReport) (st st₁ st' : Simulation × π) : Prop where
  unheard : Unheard n st st₁
  heard : step st₁ = .ok true st'
  host : st'.1.host = st.1.host.interrupted st'.1.time report
  quiet : st'.1.pendingWork = false

theorem Notifies.next {n : Nat} {st st₁ st₂ st' : Simulation × π} (h : step st = .ok true st₁)
    (hhost : st₁.1.host = st.1.host) (hrest : Notifies n report st₁ st₂ st') :
    Notifies (n + 1) report st st₂ st' :=
  ⟨.next h hhost hrest.unheard, hrest.heard, hhost ▸ hrest.host, hrest.quiet⟩

theorem Notifies.steps {n : Nat} {st st₁ st' : Simulation × π}
    (h : Notifies n report st st₁ st') :
    steps (n + 2) st = .ok (List.replicate (n + 1) true ++ [false]) st' := by
  obtain ⟨hunheard, hheard, -, hquiet⟩ := h
  induction hunheard with
  | none => exact steps_succ_ok hheard (steps_succ_ok (step_idle hquiet _) rfl)
  | next hstep _ _ ih => exact steps_succ_ok hstep (ih hheard)

/-- **What is left of a job is carried out event by event**, and then the host hears
of it. -/
theorem Sound.notifies (hs : s.Sound g) (hg : g.Valid) (hqueue : s.queue = []) {fuel : Nat}
    {st : Engine × π}
    (hdel : Engine.deliveries fuel (s.device.engine, q) = .ok (events, some report) st)
    (hfits : report.Fits) :
    ∃ st₁ s', Notifies events.length report (s, q) st₁ (s', st.2) ∧
      s'.device.engine = st.1 ∧ s'.time = elapsed s.time events := by
  -- induction on the deliveries: each of them is a step
  induction fuel generalizing s q events with
  | zero => cases hdel
  | succ fuel ih =>
    obtain ⟨event, l, hpend, ⟨hd, rfl⟩ | ⟨e, q₁, rest, hd, rfl, hrest⟩⟩ :=
      Engine.deliveries_succ_some hdel
    · have hstep := hs.step_completed hqueue hpend hd
      generalize hnext : ({ s with
        device := ({ s.device with engine := st.1, outbox := [] }.complete (after s.time l)
          report).sync
        queue := [interrupt (after s.time l) report]
        time := after s.time l } : Simulation) = s₁ at hstep
      have hs₁ : s₁.Sound g := hs.continues hg (.stepped .refl hstep)
      have hengine : s₁.device.engine = st.1 := by
        rw [← hnext, Device.complete_eq]
        rfl
      have hidle : s₁.device.engine.pending = none := by
        obtain ⟨-, -, -, hidle, -⟩ := hs.device.standing.reported hg hpend hd
        rw [hengine, (Engine.busy_eq_false_iff.mp hidle).2]
      have hqueue₁ : s₁.queue = [interrupt (after s.time l) report] := by rw [← hnext]
      have htime : s₁.time = after s.time l := by rw [← hnext]
      have hhost : s₁.host = s.host := by rw [← hnext]
      have hheard := hs₁.step_interrupt hidle hqueue₁ hfits st.2
      have hs₂ := hs₁.continues hg (.stepped .refl hheard)
      have hdone : pendingWork { s₁ with
          host := s₁.host.interrupted s₁.time report, queue := [] } = false := by
        rw [← Bool.not_eq_true, hs₂.pendingWork_iff]
        rintro (hne | hne)
        · exact hne rfl
        · exact hne hidle
      have hnotified : s₁.host.interrupted s₁.time report = s.host.interrupted s₁.time report := by
        rw [hhost]
      exact ⟨(s₁, st.2), _, ⟨.next hstep hhost .none, hheard, hnotified, hdone⟩, hengine, htime⟩
    · have hstep := hs.step_continued hqueue hpend hd
      have hs₁ := hs.continues hg (.stepped .refl hstep)
      obtain ⟨st₁, s', hnotifies, hengine, htime⟩ := ih hs₁ rfl hrest
      exact ⟨st₁, s', hnotifies.next hstep rfl, hengine, htime⟩

/-! ## Whole jobs -/

/-- Nothing left to do means an empty queue and an idle engine. -/
theorem Sound.idle_of_quiet (hs : s.Sound g) (hquiet : s.pendingWork = false) :
    s.queue = [] ∧ s.device.engine.busy = false := by
  have hnothing := hs.pendingWork_iff.not.mp (by rw [hquiet]; decide)
  rw [not_or, not_not, not_not] at hnothing
  obtain ⟨hqueue, hnone⟩ := hnothing
  exact ⟨hqueue, Engine.busy_eq_false_iff.mpr ⟨hs.device.unstuck hnone, hnone⟩⟩

/-- **A job that is launched is carried out**, if the port serves it and its clock
holds: the step that takes the launch delivers its first event. -/
theorem Sound.carried (hs : s.Sound g) (hg : g.Valid) (hqueue : s.queue = [])
    (hidle : s.device.engine.busy = false) {job : JobImage} {p : Plan}
    (hjob : (s.device.registers.writeAll job.writes).job = job) (hp : p.Sound g)
    (htaken : e.Taken g p) (hstart : Engine.start job (s.device.engine, q) = .ok () (e, q))
    (hport : Engine.Obliges (e, q)) (hclock : ¬ Engine.Overruns g p (e, q)) :
    ∃ events report e' q' st₁ s',
      Engine.deliveries (p.subcycles g + 2) (e, q) = .ok (events, some report) (e', q') ∧
      Notifies (p.subcycles g + 2) report ((s.injectJob job).injectTrigger, q) st₁ (s', q') ∧
      report.Fits ∧ s'.device.engine = e' ∧ report.cycles = (events.map (·.2)).sum ∧
      s'.time = elapsed s.time events := by
  obtain ⟨events, report, ⟨e', q'⟩, hdel, hevents, hcycles, hfits⟩ :=
    htaken.completes hg hp hport hclock (Nat.le_refl _)
  have hlength : events.length = p.subcycles g + 2 := by
    rw [← List.length_map (f := (·.1)), hevents, List.length_append, List.length_replicate]
    rfl
  obtain ⟨event, l, hpend, ⟨-, rfl⟩ | ⟨e₁, q₁, rest, hd, rfl, hrest⟩⟩ :=
    Engine.deliveries_succ_some hdel
  · exact absurd hlength (by simp)
  cases htaken.pending.symm.trans hpend
  have hlaunch := hs.launched hqueue hidle hjob hstart hpend hd
  have hreach : Continues π s _ _ := .stepped (.queued .refl (launch s.time job)) (by
    rw [← injectTrigger_injectJob]
    exact hlaunch)
  have hs₁ := hs.continues hg hreach
  obtain ⟨st₁, s', hnotifies, hengine, htime⟩ := hs₁.notifies hg rfl hrest hfits
  have hrest_length : rest.length = p.subcycles g + 1 := by
    rw [List.length_cons] at hlength
    omega
  rw [hrest_length] at hnotifies
  have hhost : (s.injectJob job).injectTrigger.host = s.host := by rw [injectTrigger_injectJob]
  -- the first event is due at once
  have helapsed : elapsed s.time ((.mainLoop, 0) :: rest) = elapsed s.time rest := by
    show elapsed (after s.time 0) rest = _
    rw [after_zero hs.regular]
  refine ⟨_, report, e', q', st₁, s', hdel, hnotifies.next hlaunch hhost.symm, hfits, hengine,
    hcycles, ?_⟩
  rw [htime, helapsed]

/-- **The simulation does what the engine does.** A job that the registers can hold
is launched in a simulation with nothing left to do. If the port serves it and its
clock holds, every step of it but the last two is a delivery to the engine, from
the one that takes the launch on; then one brings the interrupt to the host, and
the next finds nothing to do. Engine and memory end where they end if the events
are delivered directly, with the same report. The host has one interrupt more, and
the time is that of the launch and the cycles of the job. -/
theorem steps_follow_deliveries {ρ : Type} [Port ρ] (hg : g.validate = .ok ())
    (hs : Reachable ρ g s) (hquiet : s.pendingWork = false) {job : JobImage} {p : Plan}
    (hv : job.validate g = .ok p) (hx : p.xRowTiles < 0x10000) (hc : p.colTiles < 0x10000)
    (hw : p.wColTiles < 0x10000) (q : π) :
    ∃ e, Engine.start job (s.device.engine, q) = .ok () (e, q) ∧
      (Engine.Obliges (e, q) → ¬ Engine.Overruns g p (e, q) → ∃ events report e' q' s',
        Engine.deliveries (p.subcycles g + 2) (e, q) = .ok (events, some report) (e', q') ∧
        steps (p.subcycles g + 4) ((s.injectJob job).injectTrigger, q) =
          .ok (List.replicate (p.subcycles g + 3) true ++ [false]) (s', q') ∧
        s'.device.engine = e' ∧
        s'.host.reports = s.host.reports ++ [report] ∧
        s'.host.records = s.host.records ++ [⟨s'.time, .irq report.render⟩] ∧
        ∀ t, s.time = .ofNat .double t → t + report.cycles < 2 ^ 53 →
          s'.time = .ofNat .double (t + report.cycles)) := by
  have hvalid := Geometry.validate_eq_ok_iff.mp hg
  have hsound := hs.sound hvalid
  have haccepted := JobImage.accepted_of_validate hv
  have hp := haccepted.sound hvalid
  have hjob : (s.device.registers.writeAll job.writes).job = job :=
    s.device.registers.job_writeAll (haccepted.packed hvalid hx hc hw)
  obtain ⟨hqueue, hidle⟩ := hsound.idle_of_quiet hquiet
  obtain ⟨e, htaken, hstart⟩ := hsound.device.standing.taken (π := π) hvalid hidle hv
  refine ⟨e, hstart q, fun hport hclock => ?_⟩
  obtain ⟨events, report, e', q', st₁, s', hdel, hnotifies, -, hengine, hcycles, htime⟩ :=
    hsound.carried hvalid hqueue hidle hjob hp htaken (hstart q) hport hclock
  have hhost := hnotifies.host
  dsimp only at hhost
  rw [injectTrigger_injectJob] at hhost
  refine ⟨events, report, e', q', s', hdel, hnotifies.steps, hengine, ?_, ?_, ?_⟩
  · rw [hhost]
    rfl
  · rw [hhost]
    rfl
  · intro t ht hlt
    rw [hcycles] at hlt ⊢
    rw [htime, ← elapsed_ofNat hlt, ← ht]

/-- A job with a leftover on every axis: 213 steps have something to do, and it
takes 486 cycles on a memory that takes three to answer. -/
theorem steps_follow_deliveries_ragged : ∃ (s s' : Simulation) (q' : Memory) (report : JobReport),
    create .narrow = .ok s ∧
      steps 214 ((s.injectJob (.ragged 0x200 0x300)).injectTrigger, Memory.zeroed 0 0x400 3) =
        .ok (List.replicate 213 true ++ [false]) (s', q') ∧
      s'.host.reports = [report] ∧ s'.host.records = [⟨s'.time, .irq report.render⟩] ∧
      s'.time = .ofNat .double 486 := by
  have hg := Geometry.validate_eq_ok_iff.mp Geometry.validate_narrow
  have hv : (JobImage.ragged 0x200 0x300).validate .narrow = .ok (.ragged 0x200 0x300) :=
    JobImage.validate_ragged 0x200 0x300
  have hp := (JobImage.accepted_of_validate hv).sound hg
  have hin : (Plan.ragged 0x200 0x300).Inside .narrow (Memory.zeroed 0 0x400 3) :=
    Plan.inside_ragged rfl rfl (by decide) (by decide)
  obtain ⟨s, hs, hsound, hidle, hqueue, -⟩ := create_sound hg
  obtain ⟨hhost, htime⟩ := create_fresh hs
  have hquiet : s.pendingWork = false := by
    rw [← Bool.not_eq_true, hsound.pendingWork_iff, hqueue]
    exact fun hwork => hwork.elim (absurd rfl) (absurd (Engine.busy_eq_false_iff.mp hidle).2)
  obtain ⟨e, hstart, hfollow⟩ := steps_follow_deliveries (ρ := Memory) Geometry.validate_narrow
    ⟨s, [], hs, .refl⟩ hquiet hv (by decide) (by decide) (by decide) (Memory.zeroed 0 0x400 3)
  obtain ⟨e₀, htaken, hstart₀⟩ := hsound.device.standing.taken (π := Memory) hg hidle hv
  cases (hstart₀ _).symm.trans hstart
  obtain ⟨events, report, e', q', s', hdel, hsteps, -, hreports, hrecords, hclock⟩ :=
    hfollow (htaken.obliges_of_inside Engine.backed_self hg hp hin)
      (htaken.not_overruns_of_lt Engine.backed_self hg hp hin (by decide))
  have hdrain := Engine.drain_eq_deliveries ((Plan.ragged 0x200 0x300).subcycles .narrow + 2)
    (e, Memory.zeroed 0 0x400 3)
  rw [hdel] at hdrain
  have hcycles : report.cycles = 486 := htaken.cycles_eq Engine.backed_self hg hp hin hdrain
  have hzero : s.time = .ofNat .double 0 := by
    rw [htime]
    decide
  have hend := hclock 0 hzero (by rw [hcycles]; decide)
  rw [hcycles] at hend
  rw [hhost] at hreports hrecords
  exact ⟨s, s', q', report, hs, hsteps, hreports, hrecords, hend⟩

end Simulation

end SystolicGemm
