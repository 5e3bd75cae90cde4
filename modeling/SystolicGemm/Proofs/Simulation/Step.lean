import SystolicGemm.Proofs.Simulation.Device
import SystolicGemm.Proofs.Wire.Access
import SystolicGemm.Simulation.Basic

/-!
# What one step of the simulation does

A step delivers the messages in the queue and then runs the armed event of the
accelerator if it is due. `Advances` lists what can come of that. The armed event
is due if nothing was in the queue, or if its delay is zero; otherwise the step
only passes messages on, and neither the clock nor the event moves.

`Reachable` is every state that messages and steps lead to.
-/

namespace SystolicGemm

/-! ## What the host takes -/

theorem Host.receive_cases (port content : String) :
    (∀ h now, ∃ h', receive h now port content = .ok h') ∨
      ∀ h now, receive h now port content = .error .invalidModelState := by
  unfold receive
  by_cases hirq : port = irqPort
  · simp only [hirq, if_true]
    cases JobReport.ofText? content with
    | some report => exact .inl fun h now => ⟨_, rfl⟩
    | none => exact .inr fun h now => rfl
  · by_cases hresp : port = responsePort
    · simp only [hresp, if_true]
      cases RegisterAccess.ofText? content with
      | some access => exact .inl fun h now => ⟨_, rfl⟩
      | none => exact .inr fun h now => rfl
    · simp only [hirq, hresp, if_false]
      exact .inl fun h now => ⟨h, rfl⟩

namespace Message

/-- The register access that a message asks the accelerator for. -/
def access? (m : Message) : Option RegisterAccess := Device.access? m.targetPort m.content

/-- The host can make sense of a message. -/
def Heard (m : Message) : Prop := ∀ h now, ∃ h', Host.receive h now m.targetPort m.content = .ok h'

end Message

namespace Simulation

variable {π : Type} {g : Geometry}

/-! ## Delivering the queue -/

/-- What the queue asks the accelerator for. -/
def requests (s : Simulation) : List (Option RegisterAccess) :=
  (s.queue.filter (·.target == deviceName)).map Message.access?

/-- The host can make sense of all that the queue has for it. -/
def Heard (s : Simulation) : Prop := ∀ m ∈ s.queue.filter (·.target == hostName), m.Heard

/-- Messages to the accelerator are no concern of the host. -/
theorem heard_of_target {ms : List Message} (h : ∀ m ∈ ms, m.target = deviceName) :
    ∀ m ∈ ms.filter (·.target == hostName), m.Heard := by
  intro m hm
  obtain ⟨hmem, hhost⟩ := List.mem_filter.mp hm
  rw [h m hmem] at hhost
  exact absurd hhost (by decide)

theorem runDevice_ok {α : Type} {act : Run SimulationError (Device × π) α} {s : Simulation}
    {q q' : π} {a : α} {d : Device} (h : act (s.device, q) = .ok a (d, q')) :
    runDevice act (s, q) = .ok a ({ s with device := d }, q') := by
  simp only [runDevice, h]

theorem runDevice_error {α : Type} {act : Run SimulationError (Device × π) α} {s : Simulation}
    {q : π} {stop : Stop SimulationError} {st : Device × π}
    (h : act (s.device, q) = .error stop st) :
    ∃ st', runDevice act (s, q) = .error stop st' := by
  obtain ⟨d, q'⟩ := st
  simp only [runDevice, h]
  exact ⟨_, rfl⟩

/-- Lets the accelerator take a message. -/
def deviceReceive (now : Double) (m : Message) : Run SimulationError (Simulation × π) Unit :=
  runDevice (Device.receive now m.targetPort m.content)

theorem each_deviceReceive (hg : g.Valid) (now : Double) (ms : List Message) {s : Simulation}
    (hs : s.device.Sound g) (q : π) :
    ∃ d, Device.Hears g now s.device (ms.map Message.access?) d ∧
      each (deviceReceive now) ms (s, q) = .ok () ({ s with device := d }, q) := by
  induction ms generalizing s with
  | nil => exact ⟨s.device, .nil, rfl⟩
  | cons m ms ih =>
    obtain ⟨d, ht, hrun⟩ := Device.receive_takes (π := π) hg hs now m.targetPort m.content
    have hm : deviceReceive now m (s, q) = .ok () ({ s with device := d }, q) :=
      runDevice_ok (hrun q)
    have hd : ({ s with device := d } : Simulation).device.Sound g := hs.takes hg ht
    obtain ⟨d', hs', hrest⟩ := ih hd
    exact ⟨d', .cons ht hs', (each_cons_ok hm ms).trans hrest⟩

theorem hostReceive_ok {m : Message} {s : Simulation} {h : Host}
    (hh : s.host.receive s.time m.targetPort m.content = .ok h) (q : π) :
    hostReceive m (s, q) = .ok () ({ s with host := h }, q) := by
  simp only [hostReceive, run_get_bind, hh]
  rfl

theorem hostReceive_error {m : Message} {s : Simulation}
    (hh : s.host.receive s.time m.targetPort m.content = .error .invalidModelState) (q : π) :
    hostReceive m (s, q) = .error (.error .invalidModelState) (s, q) := by
  simp only [hostReceive, run_get_bind, hh]
  rfl

theorem each_hostReceive {ms : List Message} (h : ∀ m ∈ ms, m.Heard) (s : Simulation) (q : π) :
    ∃ h', each hostReceive ms (s, q) = .ok () ({ s with host := h' }, q) := by
  induction ms generalizing s with
  | nil => exact ⟨s.host, rfl⟩
  | cons m ms ih =>
    obtain ⟨h', hh'⟩ := h m List.mem_cons_self s.host s.time
    rw [each_cons_ok (hostReceive_ok hh' q)]
    exact ih (fun m' hm' => h m' (List.mem_cons_of_mem _ hm')) _

theorem each_hostReceive_error {ms : List Message} (h : ¬ ∀ m ∈ ms, m.Heard) (s : Simulation)
    (q : π) : ∃ stop st, each hostReceive ms (s, q) = .error stop st := by
  induction ms generalizing s with
  | nil => exact absurd (fun m hm => absurd hm List.not_mem_nil) h
  | cons m ms ih =>
    obtain hok | herror := Host.receive_cases m.targetPort m.content
    · obtain ⟨h', hh'⟩ := hok s.host s.time
      rw [each_cons_ok (hostReceive_ok hh' q)]
      refine ih (fun hall => h fun m' hm' => ?_) _
      rcases List.mem_cons.mp hm' with rfl | hm'
      · exact hok
      · exact hall m' hm'
    · rw [each_cons_error (hostReceive_error (herror _ _) q)]
      exact ⟨_, _, rfl⟩

theorem deliver_eq (s : Simulation) (q : π) :
    deliver (s, q) = (do
      each (deviceReceive s.time) (s.queue.filter fun m => m.target == deviceName)
      each hostReceive (s.queue.filter fun m => m.target == hostName)) (s, q) := by
  simp only [deliver, run_get_bind, each, deviceReceive, bind_pure_unit]

/-- **What delivering the queue does.** Only the host can refuse a message. -/
theorem deliver_cases (hg : g.Valid) {s : Simulation} (hs : s.device.Sound g) (q : π) :
    (s.Heard ∧ ∃ d h, Device.Hears g s.time s.device s.requests d ∧
      deliver (s, q) = .ok () ({ s with device := d, host := h }, q)) ∨
    ¬ s.Heard ∧ ∃ stop st, deliver (s, q) = .error stop st := by
  obtain ⟨d, hd, hrun⟩ :=
    each_deviceReceive hg s.time (s.queue.filter (·.target == deviceName)) hs q
  rw [deliver_eq, run_bind_ok hrun]
  by_cases hheard : s.Heard
  · obtain ⟨h, hh⟩ := each_hostReceive hheard { s with device := d } q
    exact .inl ⟨hheard, d, h, hd, hh⟩
  · exact .inr ⟨hheard, each_hostReceive_error hheard _ q⟩

/-! ## Running the armed event -/

/-- The time some cycles later. -/
def after (now : Double) (l : Nat) : Double := now + .ofNat .double l

/-- The answers in the outbox, as messages to the host. -/
def answers (now : Double) (d : Device) : List Message := d.outbox.filterMap (route now)

/-- The message that reports the completion of a job. -/
def interrupt (now : Double) (report : JobReport) : Message :=
  ⟨deviceName, Device.irqPort, hostName, Host.irqPort, now, report.render⟩

/-- Everything that one step can do to a simulation of array `g`. -/
inductive Advances [Port π] (g : Geometry) (s : Simulation) (q : π) :
    EStateM.Result (Stop SimulationError) (Simulation × π) Unit → Prop
  | refused {stop : Stop SimulationError} {st : Simulation × π}
      (h : ¬ s.Heard) : Advances g s q (.error stop st)
  | waited {d : Device} {h : Host} (hheard : s.Heard)
      (hhears : Device.Hears g s.time s.device s.requests d) (hqueue : s.queue ≠ [])
      (hwait : ∀ event, d.engine.pending ≠ some (event, 0)) :
      Advances g s q (.ok ()
        (⟨{ d with outbox := [] }, h, answers s.time d, s.time⟩, q))
  | continued {d : Device} {h : Host} {event : Event} {l : Nat} {e : Engine} {q' : π}
      (hheard : s.Heard) (hhears : Device.Hears g s.time s.device s.requests d)
      (hpend : d.engine.pending = some (event, l))
      (hd : Engine.deliver event (d.engine, q) = .ok none (e, q')) :
      Advances g s q (.ok () (⟨{ d with engine := e, outbox := [] }.sync, h,
        answers (after s.time l) d, after s.time l⟩, q'))
  | completed {d : Device} {h : Host} {event : Event} {l : Nat} {e : Engine} {q' : π}
      {report : JobReport} (hheard : s.Heard) (hhears : Device.Hears g s.time s.device s.requests d)
      (hpend : d.engine.pending = some (event, l))
      (hd : Engine.deliver event (d.engine, q) = .ok (some report) (e, q')) :
      Advances g s q (.ok ()
        (⟨({ d with engine := e, outbox := [] }.complete (after s.time l) report).sync, h,
          answers (after s.time l) d ++ [interrupt (after s.time l) report],
          after s.time l⟩, q'))
  | failed {d : Device} {event : Event} {l : Nat} {stop : Stop Failure} {st : Engine × π}
      {stop' : Stop SimulationError} {st' : Simulation × π} (hheard : s.Heard)
      (hhears : Device.Hears g s.time s.device s.requests d)
      (hpend : d.engine.pending = some (event, l))
      (hd : Engine.deliver event (d.engine, q) = .error stop st) :
      Advances g s q (.error stop' st')

theorem after_zero {now : Double} (h : now.Regular) : after now 0 = now := by
  have hzero : Binary.ofNat .double 0 = .zero .double := by decide
  rw [after, hzero, h.add_zero]

theorem regular_after {now : Double} (h : now.Regular) (l : Nat) : (after now l).Regular :=
  h.add (Binary.regular_ofNat l)

section

variable [Port π] {s s₁ : Simulation} {q : π}

theorem advance_ok {q₁ : π} (h : deliver (s, q) = .ok () (s₁, q₁)) :
    advance (s, q) = fire (s₁.elapse s₁.delay, q₁) := by
  rw [advance, run_bind_ok h]
  rfl

theorem advance_error {stop : Stop SimulationError} {st : Simulation × π}
    (h : deliver (s, q) = .error stop st) : advance (s, q) = .error stop st := by
  rw [advance, run_bind_error h]

/-- An event that is not due lets the outbox go out, if there is anything in it. -/
theorem fire_waiting (hlt : (Binary.zero .double).lt s.device.untilEvent = true)
    (hzero : s.device.untilEvent.isZero = false) :
    fire (s, q) = .ok () ({ s with
      device := { s.device with outbox := [] }
      queue := answers s.time s.device }, q) := by
  by_cases hempty : s.device.outbox = []
  · have hnext : s.device.untilNext.isZero = false := by rw [Device.untilNext_nil hempty, hzero]
    obtain ⟨⟨registers, engine, untilEvent, outbox, records⟩, h, queue, time⟩ := s
    obtain rfl : outbox = [] := hempty
    simp only [fire, run_get_bind, hnext, Bool.false_eq_true, if_false]
    rfl
  · have hnext : s.device.untilNext.isZero = true := by
      rw [Device.untilNext_of_ne_nil hempty]
      decide
    simp only [fire, run_get_bind, hnext, if_true]
    rw [run_bind_ok (runDevice_ok (Device.fire_waiting hlt))]
    rfl

theorem isZero_of_due (hdue : s.device.untilEvent = .zero .double) :
    s.device.untilNext.isZero = true := by
  rw [Device.untilNext, hdue, ite_self]
  decide

theorem fire_due_ok {sent : List PortMessage} {d : Device} {q' : π}
    (hdue : s.device.untilEvent = .zero .double)
    (h : Device.fire s.time (s.device, q) = .ok sent (d, q')) :
    fire (s, q) = .ok () ({ s with device := d, queue := sent.filterMap (route s.time) }, q') := by
  simp only [fire, run_get_bind, isZero_of_due hdue, if_true]
  rw [run_bind_ok (runDevice_ok h)]
  rfl

theorem fire_due_error {stop : Stop SimulationError} {st : Device × π}
    (hdue : s.device.untilEvent = .zero .double)
    (h : Device.fire s.time (s.device, q) = .error stop st) :
    ∃ st', fire (s, q) = .error stop st' := by
  obtain ⟨st', hst'⟩ := runDevice_error h
  simp only [fire, run_get_bind, isZero_of_due hdue, if_true]
  rw [run_bind_error hst']
  exact ⟨st', rfl⟩

/-- An event that is due is delivered. -/
theorem advances_due {d : Device} {h : Host} {event : Event} {l : Nat} (hheard : s.Heard)
    (hhears : Device.Hears g s.time s.device s.requests d)
    (hpend : d.engine.pending = some (event, l)) (queue : List Message) :
    Advances g s q
      (fire (⟨{ d with untilEvent := .zero .double }, h, queue, after s.time l⟩, q)) := by
  generalize hdue : ({ d with untilEvent := .zero .double } : Device) = due
  have hengine : due.engine = d.engine := by rw [← hdue]
  have huntil : due.untilEvent = .zero .double := by rw [← hdue]
  have hnow : (Binary.zero .double).lt due.untilEvent = false := by
    rw [huntil]
    decide
  rw [← hengine] at hpend
  cases hd : Engine.deliver event (due.engine, q) with
  | ok r st =>
    obtain ⟨e, q'⟩ := st
    cases r with
    | none =>
      have hfire := fire_due_ok (s := ⟨due, h, queue, after s.time l⟩) huntil
        (Device.fire_due hnow hpend hd)
      rw [hfire]
      subst hdue
      exact .continued (d := d) hheard hhears hpend hd
    | some report =>
      have hfire := fire_due_ok (s := ⟨due, h, queue, after s.time l⟩) huntil
        (Device.fire_completing hnow hpend hd)
      have hsync := Device.sync_complete { d with engine := e, outbox := [] } (.zero .double)
        (after s.time l) report
      subst hdue
      rw [hfire, List.filterMap_append]
      dsimp only at hsync ⊢
      rw [hsync]
      exact .completed (d := d) hheard hhears hpend hd
  | error stop st =>
    obtain ⟨stop', st', hfire⟩ := Device.fire_failing hnow hpend (after s.time l) hd
    obtain ⟨st'', hst⟩ := fire_due_error (s := ⟨due, h, queue, after s.time l⟩) huntil hfire
    rw [hst]
    subst hdue
    exact .failed (d := d) hheard hhears hpend hd

end

/-! ## The invariant -/

/-- A simulation between two steps. -/
structure Sound (g : Geometry) (s : Simulation) : Prop where
  device : s.device.Sound g
  /-- All answers have gone out. -/
  empty : s.device.outbox = []
  regular : s.time.Regular
  /-- The completion of a job finds its interrupt, unless a message comes first. -/
  raised : s.device.engine.pending = some (.completion, 0) → s.device.engine.irq = true

/-- There is work as long as something is queued or an event is armed. -/
theorem Sound.pendingWork_iff {s : Simulation} (h : s.Sound g) :
    s.pendingWork = true ↔ s.queue ≠ [] ∨ s.device.engine.pending ≠ none := by
  rw [pendingWork, Device.untilNext_nil h.empty, Bool.or_eq_true, Bool.not_eq_true',
    List.isEmpty_eq_false_iff]
  refine or_congr_right ?_
  obtain ⟨hpend, hu⟩ | ⟨event, l, hpend, hlt, hu⟩ := h.device.until_cases
  · rw [hu, hpend]
    decide
  · rw [hu, hpend]
    exact ⟨fun _ => nofun, fun _ => Binary.ofNat_lt_infinity hlt⟩

/-- **One step does one of the things that `Advances` lists.** -/
theorem Sound.advances [Port π] {s : Simulation} (hs : s.Sound g) (hg : g.Valid)
    (hwork : s.pendingWork = true) (q : π) : Advances g s q (advance (s, q)) := by
  obtain ⟨hheard, d, h, hhears, hrun⟩ | ⟨hrefused, stop, st, hrun⟩ := deliver_cases hg hs.device q
  · rw [advance_ok hrun]
    have hd := hs.device.hears hg hhears
    by_cases hqueue : s.queue = []
    · -- nothing is heard, and all the time until the armed event passes
      have hrequests : s.requests = [] := by rw [requests, hqueue, List.filter_nil, List.map_nil]
      rw [hrequests] at hhears
      cases hhears
      have hpend := (hs.pendingWork_iff.mp hwork).resolve_left (not_not_intro hqueue)
      obtain ⟨hnone, -⟩ | ⟨event, l, hpend, hlt, hu⟩ := hs.device.until_cases
      · exact absurd hnone hpend
      have hdelay : ({ s with host := h } : Simulation).delay = .ofNat .double l := by
        rw [delay, hqueue, ← hu, ← Device.untilNext_nil hs.empty]
        rfl
      rw [hdelay, elapse, Device.elapse, hu, Binary.sub_self_ofNat hlt]
      exact advances_due hheard (hrequests ▸ .nil) hpend s.queue
    · have hdelay : ({ s with device := d, host := h } : Simulation).delay = .zero .double := by
        rw [delay, List.isEmpty_eq_false_iff.mpr hqueue]
        rfl
      rw [hdelay, elapse, Device.elapse, hd.until_regular.sub_zero, hs.regular.add_zero]
      obtain ⟨hpend, hu⟩ | ⟨event, l, hpend, hlt, hu⟩ := hd.until_cases
      · rw [fire_waiting (by rw [hu]; decide) (by rw [hu]; decide)]
        exact .waited hheard hhears hqueue fun event h => by simp [hpend] at h
      · rcases Nat.eq_zero_or_pos l with rfl | hpos
        · have hdue := advances_due (q := q) (h := h) hheard hhears hpend s.queue
          rw [after_zero hs.regular] at hdue
          have hzero : Binary.zero .double = d.untilEvent := hu.symm
          rw [hzero] at hdue
          exact hdue
        · rw [fire_waiting (by rw [hu]; exact Binary.zero_lt_ofNat hpos hlt)
            (by rw [hu]; exact Binary.isZero_ofNat hpos hlt)]
          refine .waited hheard hhears hqueue fun event' h => ?_
          rw [hpend] at h
          cases h
          exact absurd hpos (by decide)
  · rw [advance_error hrun]
    exact .refused hrefused

/-- **One step leaves a simulation sound.** -/
theorem Sound.advanced [Port π] {s s' : Simulation} {q q' : π} (hs : s.Sound g) (hg : g.Valid)
    (h : Advances g s q (.ok () (s', q'))) : s'.Sound g := by
  cases h with
  | waited _ hhears _ hwait =>
    have hd := hs.device.hears hg hhears
    exact ⟨⟨hd.standing, hd.unstuck, hd.synced, fun m hm => absurd hm List.not_mem_nil, hd.packed⟩,
      rfl, hs.regular, fun hpend => absurd hpend (hwait _)⟩
  | continued _ hhears hpend hdel =>
    have hd := hs.device.hears hg hhears
    exact ⟨hd.continued hpend hg hdel, rfl, regular_after hs.regular _,
      (hd.standing.goesOn hg hpend hdel).2⟩
  | @completed d h event l e _ report _ hhears hpend hdel =>
    have hd := hs.device.hears hg hhears
    obtain ⟨-, -, -, hidle, -⟩ := hd.standing.reported hg hpend hdel
    have hnone := (Engine.busy_eq_false_iff.mp hidle).2
    have hsound := hd.completed hpend hg (after s.time l) hdel
    rw [Device.complete_eq] at hsound ⊢
    exact ⟨hsound, rfl, regular_after hs.regular l,
      fun harmed => absurd (hnone.symm.trans harmed) nofun⟩

theorem create_sound (hg : g.Valid) :
    ∃ s, create g = .ok s ∧ s.Sound g ∧ s.device.engine.busy = false ∧ s.queue = [] ∧
      s.device.registers = .reset := by
  obtain ⟨d, hd, hsound, hidle, hempty, hregisters⟩ := Device.create_sound hg
  unfold create
  rw [hd, ok_bind]
  obtain ⟨-, hnone⟩ := Engine.busy_eq_false_iff.mp hidle
  have hzero : (Binary.zero .double).Regular := by decide
  exact ⟨_, rfl, ⟨hsound, hempty, hzero, fun h => absurd (hnone.symm.trans h) nofun⟩, hidle, rfl,
    hregisters⟩

/-- A simulation that has just been created has heard nothing, and no time has passed. -/
theorem create_fresh {s : Simulation} (h : create g = .ok s) :
    s.host = .create ∧ s.time = .zero .double := by
  obtain ⟨d, -, h⟩ := bind_eq_ok_iff.mp h
  cases h
  exact ⟨rfl, rfl⟩

/-- What is queued does not matter for that. -/
theorem Sound.queued {s : Simulation} (h : s.Sound g) (queue : List Message) :
    ({ s with queue := queue } : Simulation).Sound g := ⟨h.device, h.empty, h.regular, h.raised⟩

theorem step_idle [Port π] {s : Simulation} (h : s.pendingWork = false) (q : π) :
    step (s, q) = .ok false (s, q) := by
  simp only [step, run_get_bind, h, Bool.false_eq_true, if_false]
  rfl

theorem step_ok [Port π] {s s' : Simulation} {q q' : π} (hwork : s.pendingWork = true)
    (h : advance (s, q) = .ok () (s', q')) : step (s, q) = .ok true (s', q') := by
  simp only [step, run_get_bind, hwork, if_true]
  rw [run_bind_ok h]
  rfl

theorem step_error [Port π] {s : Simulation} {q : π} {stop : Stop SimulationError}
    {st : Simulation × π} (hwork : s.pendingWork = true) (h : advance (s, q) = .error stop st) :
    step (s, q) = .error stop st := by
  simp only [step, run_get_bind, hwork, if_true]
  rw [run_bind_error h]

/-- A step with something to do advances or fails. -/
theorem Sound.step_working [Port π] {s : Simulation} (hs : s.Sound g) (hg : g.Valid)
    (hwork : s.pendingWork = true) (q : π) :
    (∃ s' q', step (s, q) = .ok true (s', q') ∧ Advances g s q (.ok () (s', q'))) ∨
      ∃ stop st, step (s, q) = .error stop st ∧ Advances g s q (.error stop st) := by
  have hadv := hs.advances hg hwork q
  cases ha : advance (s, q) with
  | ok u st =>
    obtain ⟨s', q'⟩ := st
    exact .inl ⟨s', q', step_ok hwork ha, ha ▸ hadv⟩
  | error stop st => exact .inr ⟨stop, st, step_error hwork ha, ha ▸ hadv⟩

/-- A step that returns has advanced, or had nothing to do. -/
theorem Sound.step_cases [Port π] {s s' : Simulation} {q q' : π} {b : Bool} (hs : s.Sound g)
    (hg : g.Valid) (h : step (s, q) = .ok b (s', q')) :
    (s.pendingWork = true ∧ b = true ∧ Advances g s q (.ok () (s', q'))) ∨
      s.pendingWork = false ∧ b = false ∧ s' = s ∧ q' = q := by
  cases hwork : s.pendingWork with
  | false =>
    rw [step_idle hwork] at h
    cases h
    exact .inr ⟨rfl, rfl, rfl, rfl⟩
  | true =>
    obtain ⟨s₁, q₁, hstep, hadv⟩ | ⟨stop, st, hstep, -⟩ := hs.step_working hg hwork q
    · cases hstep.symm.trans h
      exact .inl ⟨rfl, rfl, hadv⟩
    · cases hstep.symm.trans h

section

/-! ## What a step sends -/

/-- An answer to a read, on its way to the host. -/
def answer (now : Double) (a : RegisterAccess) : Message :=
  ⟨deviceName, Device.responsePort, hostName, Host.responsePort, now, a.render⟩

/-- The interrupt among the messages of a step. -/
def emitted (s : Simulation) : Option Message := s.queue.find? (·.sourcePort == Device.irqPort)

theorem heard_answer (now : Double) (a : RegisterAccess) : (answer now a).Heard := by
  intro h t
  have hne : Host.responsePort ≠ Host.irqPort := by decide
  have hirq : (answer now a).targetPort ≠ Host.irqPort := hne
  have hresp : (answer now a).targetPort = Host.responsePort := rfl
  have hcontent : RegisterAccess.ofText? (answer now a).content = some a :=
    RegisterAccess.ofText?_render a
  simp only [Host.receive, if_neg hirq, if_pos hresp, hcontent]
  exact ⟨_, rfl⟩

theorem mem_answers {d : Device} (hd : d.Sound g) {now : Double} {m : Message}
    (hm : m ∈ answers now d) : ∃ a, m = answer now a := by
  obtain ⟨sent, hsent, hroute⟩ := List.mem_filterMap.mp hm
  obtain ⟨a, rfl⟩ := hd.answers sent hsent
  refine ⟨a, (Option.some.inj hroute).symm⟩

variable {s : Simulation} {now : Double} {d : Device}

/-- Answers are no interrupts, and they are for the host, which can read them. -/
theorem emitted_answers (hd : d.Sound g) (hqueue : s.queue = answers now d) :
    s.emitted = none := by
  rw [emitted, hqueue]
  refine List.find?_eq_none.mpr fun m hm => ?_
  obtain ⟨a, rfl⟩ := mem_answers hd hm
  have hport : (Device.responsePort == Device.irqPort) = false := by decide
  exact Bool.not_eq_true _ ▸ hport

theorem emitted_interrupt (hd : d.Sound g) {report : JobReport}
    (hqueue : s.queue = answers now d ++ [interrupt now report]) :
    s.emitted = some (interrupt now report) := by
  have hnone := emitted_answers (s := { s with queue := answers now d }) hd rfl
  rw [emitted] at hnone ⊢
  rw [hqueue, List.find?_append, hnone]
  rfl

theorem requests_answers (hd : d.Sound g) (hqueue : s.queue = answers now d) :
    s.requests = [] := by
  have hnone : (answers now d).filter (fun m => m.target == deviceName) = [] := by
    refine List.filter_eq_nil_iff.mpr fun m hm => ?_
    obtain ⟨a, rfl⟩ := mem_answers hd hm
    have htarget : (hostName == deviceName) = false := by decide
    exact Bool.not_eq_true _ ▸ htarget
  rw [requests, hqueue, hnone, List.map_nil]

theorem heard_answers (hd : d.Sound g) (hqueue : s.queue = answers now d) : s.Heard := by
  intro m hm
  rw [hqueue] at hm
  obtain ⟨a, rfl⟩ := mem_answers hd (List.mem_filter.mp hm).1
  exact heard_answer now a

end

/-! ## Histories -/

/-- What messages and steps lead to from a simulation, whatever the port holds
before each step, with the messages that have been put in. A step that fails
leads nowhere. -/
inductive Continues (π : Type) [Port π] (s : Simulation) : List Message → Simulation → Prop
  | refl : Continues π s [] s
  | queued {ms : List Message} {s' : Simulation} (h : Continues π s ms s')
      (batch : List Message) : Continues π s (ms ++ batch) { s' with queue := s'.queue ++ batch }
  | stepped {ms : List Message} {s' s'' : Simulation} {q q' : π} {b : Bool}
      (h : Continues π s ms s') (hstep : step (s', q) = .ok b (s'', q')) : Continues π s ms s''

theorem Continues.trans [Port π] {s s' s'' : Simulation} {ms ms' : List Message}
    (h : Continues π s ms s') (h' : Continues π s' ms' s'') : Continues π s (ms ++ ms') s'' := by
  induction h' with
  | refl => rwa [List.append_nil]
  | queued _ batch ih =>
    rw [← List.append_assoc]
    exact ih.queued batch
  | stepped _ hstep ih => exact ih.stepped hstep

/-- The simulations of an array that messages and steps lead to. -/
def Reachable (π : Type) [Port π] (g : Geometry) (s : Simulation) : Prop :=
  ∃ s₀ ms, create g = .ok s₀ ∧ Continues π s₀ ms s

theorem Sound.continues [Port π] {s s' : Simulation} {ms : List Message} (hs : s.Sound g)
    (hg : g.Valid) (h : Continues π s ms s') : s'.Sound g := by
  induction h with
  | refl => exact hs
  | queued _ _ ih => exact ih.queued _
  | stepped _ hstep ih =>
    obtain ⟨-, -, hadv⟩ | ⟨-, -, rfl, -⟩ := ih.step_cases hg hstep
    · exact ih.advanced hg hadv
    · exact ih

theorem Reachable.continues [Port π] {s s' : Simulation} {ms : List Message}
    (hs : Reachable π g s) (h : Continues π s ms s') : Reachable π g s' := by
  obtain ⟨s₀, ms₀, hs₀, hcont⟩ := hs
  exact ⟨s₀, ms₀ ++ ms, hs₀, hcont.trans h⟩

/-- **Every reachable simulation is sound.** -/
theorem Reachable.sound [Port π] {s : Simulation} (h : Reachable π g s) (hg : g.Valid) :
    s.Sound g := by
  obtain ⟨s₀, ms, hs₀, hcont⟩ := h
  obtain ⟨s₁, hs₁, hsound, -⟩ := create_sound hg
  cases hs₀.symm.trans hs₁
  exact hsound.continues hg hcont

end Simulation

end SystolicGemm
