import SystolicGemm.Proofs.Engine.Timing
import SystolicGemm.Proofs.Memory.Recorded
import SystolicGemm.Proofs.Simulation.Step

/-!
# Getting a job under way

The host programs a job register by register and triggers it. All of that is one
step of the simulation, and in the same step the job begins: its first event is
due at once, although messages were delivered.
-/

namespace SystolicGemm

namespace Device

variable {π : Type} {d : Device}

/-- The accelerator when its engine has taken the programmed job. -/
def engaged (now : Double) (d : Device) (e : Engine) : Device :=
  ((({ d with engine := e }.lower .rejected).lower .irq).raise .busy).sync
    |>.record now (.trigger d.registers.job)

/-- A write to a job register ends up in the register, and does nothing else. -/
theorem receive_writing (now : Double) (d : Device) (r : JobRegister) (word : UInt32) (q : π) :
    receive now requestPort (RegisterAccess.writing r.offset word).render (d, q) =
      .ok () ({ d with registers := (d.registers.write r.offset word).2 }, q) := by
  have hwrite : d.registers.write r.offset word = (.none, (d.registers.write r.offset word).2) := by
    rw [RegisterFile.write_job]
  rw [receive_eq, access?, if_pos rfl, RegisterAccess.ofText?_render]
  exact writeRegister_eq hwrite now q

/-- A trigger has the engine take the programmed job. -/
theorem receive_trigger {e : Engine} {q : π} (hidle : d.engine.busy = false)
    (hstart : Engine.start d.registers.job (d.engine, q) = .ok () (e, q)) (now : Double)
    (word : UInt32) :
    receive now requestPort (RegisterAccess.writing Register.trigger.offset word).render (d, q) =
      .ok () (d.engaged now e, q) := by
  have hwrite : d.registers.write Register.trigger.offset word = (.trigger, d.registers) := by
    rw [RegisterFile.write, Register.ofOffset_offset]
  have htrigger : trigger now (d, q) = .ok () (d.engaged now e, q) := by
    simp only [trigger, run_get_bind, hidle, Bool.false_eq_true, if_false]
    rw [run_bind_ok (runEngine_ok hstart)]
    rfl
  rw [receive_eq, access?, if_pos rfl, RegisterAccess.ofText?_render]
  exact (writeRegister_eq hwrite now q).trans htrigger

end Device

namespace Simulation

variable {π : Type} {g : Geometry} {s : Simulation} {job : JobImage}

/-- A register access, on its way to the accelerator. -/
def request (now : Double) (a : RegisterAccess) : Message :=
  ⟨hostName, Device.requestPort, deviceName, Device.requestPort, now, a.render⟩

theorem access?_request (now : Double) (a : RegisterAccess) :
    (request now a).access? = some a := by
  show Device.access? Device.requestPort a.render = some a
  rw [Device.access?, if_pos rfl, RegisterAccess.ofText?_render]

theorem injectJob_eq (s : Simulation) (job : JobImage) :
    s.injectJob job =
      { s with queue := s.queue ++ job.writes.map fun w => request s.time (.writing w.1 w.2) } := by
  unfold injectJob
  generalize job.writes = ws
  induction ws generalizing s with
  | nil =>
    rw [List.map_nil, List.append_nil]
    rfl
  | cons w ws ih =>
    rw [List.foldl_cons, ih, List.map_cons, List.append_cons]
    rfl

/-- The writes of a job and the trigger, as messages. -/
def launch (now : Double) (job : JobImage) : List Message :=
  (job.writes.map fun w => request now (.writing w.1 w.2)) ++
    [request now (.writing Register.trigger.offset 0)]

theorem injectTrigger_injectJob (s : Simulation) (job : JobImage) :
    (s.injectJob job).injectTrigger = { s with queue := s.queue ++ launch s.time job } := by
  rw [injectJob_eq, launch, ← List.append_assoc]
  rfl

theorem target_launch {now : Double} {m : Message} (hm : m ∈ launch now job) :
    m.target = deviceName := by
  rcases List.mem_append.mp hm with hm | hm
  · obtain ⟨w, -, rfl⟩ := List.mem_map.mp hm
    rfl
  · rw [List.mem_singleton.mp hm]
    rfl

/-- The accelerator takes a message as it is sent. -/
theorem deviceReceive_request {now : Double} {a : RegisterAccess} {q q' : π} {d : Device}
    (h : Device.receive now Device.requestPort a.render (s.device, q) = .ok () (d, q')) :
    deviceReceive now (request now a) (s, q) = .ok () ({ s with device := d }, q') :=
  runDevice_ok h

/-- Whatever comes after them, the writes of a job end up in the registers. -/
theorem each_programmed (now : Double) (job : JobImage) (rs : List JobRegister)
    (ms : List Message) (s : Simulation) (q : π) :
    each (deviceReceive now)
        ((rs.map fun r => request now (.writing r.offset (job.get r))) ++ ms) (s, q) =
      each (deviceReceive now) ms
        ({ s with device := { s.device with
          registers := s.device.registers.writeAll (rs.map fun r => (r.offset, job.get r)) } },
          q) := by
  induction rs generalizing s with
  | nil => rfl
  | cons r rs ih =>
    have hr := deviceReceive_request (Device.receive_writing now s.device r (job.get r) q)
    rw [List.map_cons, List.cons_append, each_cons_ok hr, ih]
    rfl

/-- The accelerator when a job has been programmed and its engine has taken it. -/
def launched (s : Simulation) (job : JobImage) (e : Engine) : Device :=
  ({ s.device with registers := s.device.registers.writeAll job.writes } : Device).engaged s.time e

/-- The messages of a launch, delivered. -/
theorem deliver_launch {e : Engine} {q : π} (hidle : s.device.engine.busy = false)
    (hjob : (s.device.registers.writeAll job.writes).job = job)
    (hstart : Engine.start job (s.device.engine, q) = .ok () (e, q)) :
    deliver ({ s with queue := launch s.time job }, q) =
      .ok () ({ s with device := s.launched job e, queue := launch s.time job }, q) := by
  have hdevice : (launch s.time job).filter (·.target == deviceName) = launch s.time job :=
    List.filter_eq_self.mpr fun m hm => beq_iff_eq.mpr (target_launch hm)
  have hhost : (launch s.time job).filter (·.target == hostName) = [] := by
    refine List.filter_eq_nil_iff.mpr fun m hm => ?_
    rw [target_launch hm]
    decide
  have hwrites : launch s.time job =
      (JobRegister.all.map fun r => request s.time (.writing r.offset (job.get r))) ++
        [request s.time (.writing Register.trigger.offset 0)] := by
    rw [launch, JobImage.writes, List.map_map]
    rfl
  have hreceive := Device.receive_trigger
    (d := { s.device with registers := s.device.registers.writeAll job.writes }) hidle
    (by rw [hjob, hstart]) s.time 0
  have htrigger : deviceReceive s.time (request s.time (.writing Register.trigger.offset 0))
      ({ s with
        device := { s.device with registers := s.device.registers.writeAll job.writes }
        queue := launch s.time job }, q) =
      .ok () ({ s with device := s.launched job e, queue := launch s.time job }, q) :=
    deviceReceive_request hreceive
  have heach : each (deviceReceive s.time) (launch s.time job)
      ({ s with queue := launch s.time job }, q) =
      .ok () ({ s with device := s.launched job e, queue := launch s.time job }, q) := by
    nth_rewrite 1 [hwrites]
    rw [each_programmed]
    exact each_cons_ok htrigger []
  rw [deliver_eq, hdevice, hhost, run_bind_ok heach]
  rfl

/-- **A job that is programmed and triggered begins at once.** The step that takes
the messages delivers the first event of the job, and no time passes. -/
theorem Sound.launched [Port π] (hs : s.Sound g) (hqueue : s.queue = [])
    (hidle : s.device.engine.busy = false)
    (hjob : (s.device.registers.writeAll job.writes).job = job) {e e' : Engine} {q q' : π}
    (hstart : Engine.start job (s.device.engine, q) = .ok () (e, q))
    (hpend : e.pending = some (.mainLoop, 0))
    (hd : Engine.deliver .mainLoop (e, q) = .ok none (e', q')) :
    step ((s.injectJob job).injectTrigger, q) =
      .ok true ({ s with
        device := { s.launched job e with engine := e', outbox := [] }.sync
        queue := [] }, q') := by
  have hdeliver := deliver_launch hidle hjob hstart
  rw [injectTrigger_injectJob, hqueue, List.nil_append]
  have hne : (launch s.time job).isEmpty = false := by
    rw [List.isEmpty_eq_false_iff]
    exact List.append_ne_nil_of_right_ne_nil _ (List.cons_ne_nil _ _)
  have hwork : ({ s with queue := launch s.time job } : Simulation).pendingWork = true := by
    rw [pendingWork, hne]
    rfl
  have hpend' : (s.launched job e).engine.pending = some (.mainLoop, 0) := hpend
  have hdue : (s.launched job e).untilEvent = .zero .double := by
    have hsync : (s.launched job e).untilEvent = (s.launched job e).sync.untilEvent := rfl
    rw [hsync, Device.sync_armed hpend']
    decide
  have hzero : (Binary.zero .double).Regular := by decide
  have hadvance : advance ({ s with queue := launch s.time job }, q) =
      fire ({ s with device := s.launched job e, queue := launch s.time job }, q) := by
    have hdelay : ({ s with device := s.launched job e, queue := launch s.time job } :
        Simulation).delay = .zero .double := by
      rw [delay, hne]
      rfl
    rw [advance_ok hdeliver, hdelay, elapse, Device.elapse, hs.regular.add_zero]
    dsimp only
    rw [hdue, hzero.sub_zero, ← hdue]
  have hlt : (Binary.zero .double).lt (s.launched job e).untilEvent = false := by
    rw [hdue]
    decide
  have hfire : Device.fire s.time (s.launched job e, q) = _ := Device.fire_due hlt hpend' hd
  have hempty : (s.launched job e).outbox = [] := hs.empty
  rw [hempty] at hfire
  have hfired := fire_due_ok
    (s := { s with device := s.launched job e, queue := launch s.time job }) hdue hfire
  refine step_ok hwork ?_
  rw [hadvance, hfired]
  rfl

/-- A job with a leftover on every axis, on a recorded memory that takes three
cycles to answer, right after its first event. -/
theorem exists_underWay : ∃ (s : Simulation) (q : Recorded Memory) (events : List (Event × Nat))
    (report : JobReport) (q' : Recorded Memory), Reachable (Recorded Memory) .narrow s ∧ s.Heard ∧
      s.requests = [] ∧ Engine.Reports s.device.engine q events report q' := by
  have hg := Geometry.validate_eq_ok_iff.mp Geometry.validate_narrow
  have hv := JobImage.validate_ragged 0x200 0x300
  have hp := (JobImage.accepted_of_validate hv).sound hg
  obtain ⟨s, hs, hsound, hidle, hqueue, hregisters⟩ := create_sound hg
  have hjob : (s.device.registers.writeAll (JobImage.ragged 0x200 0x300).writes).job =
      .ragged 0x200 0x300 := by
    rw [hregisters]
    decide
  obtain ⟨e, htaken, hstart⟩ := hsound.device.standing.taken hg hidle hv
  obtain ⟨hport, hclock⟩ := htaken.served_ragged Engine.backed_recorded
    (.fresh (.zeroed 0 0x400 3)) rfl rfl rfl
  obtain ⟨events, report, q', hreports⟩ := htaken.exists_reports hg hp hport hclock
  obtain ⟨e', hd, -⟩ | ⟨e', q, rest, hd, -, hrest⟩ := hreports.next htaken.pending
  · have hstanding : Engine.Standing .narrow e :=
      .running hp htaken.onTrack htaken.pending (by decide) htaken.irq
    obtain ⟨hpend, -⟩ := hstanding.reported hg htaken.pending hd
    cases htaken.pending.symm.trans hpend
  · have hstep := hsound.launched hqueue hidle hjob (hstart _) htaken.pending hd
    rw [injectTrigger_injectJob] at hstep
    have hreach := Continues.stepped (.queued .refl _) hstep
    exact ⟨_, q, rest, report, q', ⟨s, _, hs, hreach⟩, fun _ hm => (List.not_mem_nil hm).elim, rfl,
      hrest⟩

end Simulation

end SystolicGemm
