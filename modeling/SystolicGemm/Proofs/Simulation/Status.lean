import SystolicGemm.Proofs.Engine.Protocol
import SystolicGemm.Proofs.Simulation.Launch

/-!
# What the status register says

The status register repeats what the engine knows, and it is written in other
places than the engine is: where a trigger is accepted, where a completion is
delivered, where a write clears the interrupt. `Reachable` is whatever messages,
internal events and time make of an accelerator of any array, on a port that
behaves as it likes, and with it go two counts: of the triggers accepted and of
the interrupt messages sent. `Coherent` is what the register has to do with the
engine and with these counts.
-/

namespace SystolicGemm

/-! ## Histories of an accelerator -/

namespace Device

variable {π : Type} {g : Geometry} {d d' : Device}

/-- Whether the engine takes a job. -/
def engages (job : JobImage) (st : Engine × π) : Bool :=
  match Engine.start job st with
  | .ok _ _ => true
  | .error _ _ => false

/-- Whether a message is a trigger that the accelerator accepts. -/
def accepts (d : Device) (q : π) (port content : String) : Bool :=
  match access? port content with
  | some a => a.write && a.offset == Register.trigger.offset &&
      engages d.registers.job (d.engine, q)
  | none => false

/-- How many of the messages are interrupts. -/
def interrupts (ms : List PortMessage) : Nat := ms.countP (·.port == irqPort)

/-- What messages, internal events and time lead to, whatever the port holds before
each of them, with the number of triggers accepted and of interrupts sent. A call
that fails leads on from where it has failed, and what it would have sent is lost.
One that traps leads nowhere. -/
inductive Reachable (π : Type) [Port π] (g : Geometry) : Device → Nat → Nat → Prop
  | created {d : Device} (h : create g = .ok d) : Reachable π g d 0 0
  | received {d d' : Device} {accepted sent : Nat} {now : Double} {port content : String}
      {q q' : π} (h : Reachable π g d accepted sent)
      (hcall : receive now port content (d, q) = .ok () (d', q') ∨
        ∃ failure, receive now port content (d, q) = .error (.error failure) (d', q')) :
      Reachable π g d' (accepted + (d.accepts q port content).toNat) sent
  | fired {d d' : Device} {accepted sent : Nat} {now : Double} {ms : List PortMessage} {q q' : π}
      (h : Reachable π g d accepted sent) (hcall : fire now (d, q) = .ok ms (d', q')) :
      Reachable π g d' accepted (sent + interrupts ms)
  | failed {d d' : Device} {accepted sent : Nat} {now : Double} {failure : SimulationError}
      {q q' : π} (h : Reachable π g d accepted sent)
      (hcall : fire now (d, q) = .error (.error failure) (d', q')) :
      Reachable π g d' accepted sent
  | elapsed {d : Device} {accepted sent : Nat} (h : Reachable π g d accepted sent)
      (delta : Double) : Reachable π g (d.elapse delta) accepted sent

/-- What the status register has to do with the engine and with the history. -/
structure Coherent (g : Geometry) (d : Device) (accepted sent : Nat) : Prop where
  poised : Engine.Poised g d.engine
  busy : d.registers.shows .busy = d.engine.busy
  exclusive : d.engine.busy = true → d.registers.shows .irq = false
  irq : d.registers.shows .irq = true → d.engine.irq = true
  finished : d.registers.finishedJobs.toNat = sent % Word.limit32
  accounts : accepted = sent + d.engine.busy.toNat
  /-- Only answers wait in the outbox. -/
  quiet : interrupts d.outbox = 0

variable {accepted sent : Nat}

theorem create_coherent (h : create g = .ok d) : Coherent g d 0 0 := by
  obtain ⟨e, he, h⟩ := bind_eq_ok_iff.mp h
  cases h
  obtain ⟨hpoised, hidle⟩ := Engine.create_poised he
  have hreset : ∀ b, RegisterFile.reset.shows b = false := fun b => by cases b <;> rfl
  refine ⟨hpoised, (hreset .busy).trans hidle.symm, fun _ => hreset .irq, fun hirq => ?_, rfl, ?_,
    rfl⟩
  · exact absurd (hirq.symm.trans (hreset .irq)) (by decide)
  · rw [hidle]
    rfl

/-- Two accelerators that differ in nothing that the register or the engine says of
a job. -/
structure Alike (d d' : Device) : Prop where
  engine : d'.engine = d.engine
  busy : d'.registers.shows .busy = d.registers.shows .busy
  irq : d'.registers.shows .irq = d.registers.shows .irq
  finished : d'.registers.finishedJobs = d.registers.finishedJobs
  interrupts : interrupts d'.outbox = interrupts d.outbox

theorem Coherent.alike (h : Coherent g d accepted sent) (ha : Alike d d') :
    Coherent g d' accepted sent where
  poised := ha.engine ▸ h.poised
  busy := by rw [ha.busy, ha.engine, h.busy]
  exclusive := by rw [ha.irq, ha.engine]; exact h.exclusive
  irq := by rw [ha.irq, ha.engine]; exact h.irq
  finished := by rw [ha.finished, h.finished]
  accounts := by rw [ha.engine]; exact h.accounts
  quiet := by rw [ha.interrupts, h.quiet]

/-- Turning a trigger down shows in a bit of its own. -/
theorem alike_rejected (d : Device) (now : Double) (action : Action) :
    Alike d ((d.raise .rejected).record now action) where
  engine := rfl
  busy := RegisterFile.shows_raise_of_ne nofun
  irq := RegisterFile.shows_raise_of_ne nofun
  finished := rfl
  interrupts := rfl

/-! ## Messages -/

/-- A write leaves the count of finished jobs alone. -/
theorem finishedJobs_write (f : RegisterFile) (o v : UInt32) :
    (f.write o v).2.finishedJobs = f.finishedJobs := by
  unfold RegisterFile.write
  split <;> rfl

/-- What is lowered with the interrupt line. -/
theorem Coherent.lowered (h : Coherent g d accepted sent) {f : RegisterFile}
    (hbusy : f.shows .busy = d.registers.shows .busy) (hirq : f.shows .irq = false)
    (hfinished : f.finishedJobs = d.registers.finishedJobs) (records : List Record) :
    Coherent g { d with registers := f, engine := d.engine.clearIrq, records := records }
      accepted sent where
  poised := h.poised.clearIrq
  busy := hbusy.trans h.busy
  exclusive := fun _ => hirq
  irq := fun h => absurd (h.symm.trans hirq) (by decide)
  finished := by rw [hfinished, h.finished]
  accounts := h.accounts
  quiet := h.quiet

/-- A trigger that is accepted makes the accelerator busy and takes a finished job's
interrupt back. -/
theorem Coherent.engaged (h : Coherent g d accepted sent) (hidle : d.engine.busy = false)
    {e : Engine} (he : Engine.Poised g e) (hbusy : e.busy = true) (now : Double) :
    Coherent g (((({ d with engine := e }.lower .rejected).lower .irq).raise .busy).sync
      |>.record now (.trigger d.registers.job)) (accepted + 1) sent := by
  have hirq : (((d.registers.lower StatusBit.rejected.mask).lower StatusBit.irq.mask).raise
      StatusBit.busy.mask).shows .irq = false := by
    rw [RegisterFile.shows_raise_of_ne (by decide), RegisterFile.shows_lower_self]
  have haccounts := h.accounts
  rw [hidle] at haccounts
  refine ⟨he, ?_, fun _ => hirq, fun hshown => ?_, h.finished, ?_, h.quiet⟩
  · exact (RegisterFile.shows_raise_self _ .busy).trans hbusy.symm
  · exact absurd (hshown.symm.trans hirq) (by decide)
  · show accepted + 1 = sent + e.busy.toNat
    rw [hbusy, haccounts]
    rfl

/-- **What a trigger does**, accepted or not. -/
theorem Coherent.triggered (h : Coherent g d accepted sent) {now : Double} {q q' : π}
    (hcall : trigger now (d, q) = .ok () (d', q') ∨
      ∃ failure, trigger now (d, q) = .error (.error failure) (d', q')) :
    Coherent g d' (accepted + (engages d.registers.job (d.engine, q)).toNat) sent := by
  cases hbusy : d.engine.busy with
  | true =>
    have hengages : engages d.registers.job (d.engine, q) = false := by
      rw [engages, Engine.start_busy hbusy]
    rw [trigger_busy hbusy] at hcall
    obtain hcall | ⟨failure, hcall⟩ := hcall <;> cases hcall
    rw [hengages]
    exact h.alike (alike_rejected d now _)
  | false =>
    simp only [trigger, run_get_bind, hbusy, Bool.false_eq_true, if_false] at hcall
    cases hs : Engine.start d.registers.job (d.engine, q) with
    | ok u st =>
      obtain ⟨e, q₁⟩ := st
      have hengages : engages d.registers.job (d.engine, q) = true := by rw [engages, hs]
      rw [run_bind_ok (runEngine_ok hs)] at hcall
      obtain hcall | ⟨failure, hcall⟩ := hcall <;> cases hcall
      obtain ⟨he, hbusy'⟩ := h.poised.started hs
      rw [hengages]
      exact h.engaged hbusy he hbusy' now
    | error stop st =>
      obtain ⟨e, q₁⟩ := st
      have hengages : engages d.registers.job (d.engine, q) = false := by rw [engages, hs]
      obtain rfl := h.poised.start_failed hs
      rw [hengages]
      cases stop with
      | trap t =>
        rw [run_bind_error (runEngine_trapped hs)] at hcall
        obtain hcall | ⟨failure, hcall⟩ := hcall <;> cases hcall
      | error failure =>
        rw [run_bind_ok (runEngine_failed hs)] at hcall
        cases failure
        case job | geometry =>
          obtain hcall | ⟨failure, hcall⟩ := hcall <;> cases hcall
          exact h.alike (alike_rejected d now _)
        -- any other failure of a start is one of the model's, and changes nothing
        all_goals
          obtain hcall | ⟨failure, hcall⟩ := hcall <;> cases hcall
          exact h

/-- **What a write does.** -/
theorem Coherent.written (h : Coherent g d accepted sent) {now : Double} {o v : UInt32} {q q' : π}
    (hcall : writeRegister now o v (d, q) = .ok () (d', q') ∨
      ∃ failure, writeRegister now o v (d, q) = .error (.error failure) (d', q')) :
    Coherent g d' (accepted + (o == Register.trigger.offset &&
      engages d.registers.job (d.engine, q)).toNat) sent := by
  obtain ⟨heffect, hstatus, -⟩ | ⟨rfl, hf⟩ | ⟨rfl, hf⟩ | ⟨rfl, hf⟩ := d.registers.write_cases o v
  · have hne : (o == Register.trigger.offset) = false := by
      refine beq_false_of_ne fun ho => ?_
      rw [ho, RegisterFile.write, Register.ofOffset_offset] at heffect
      cases heffect
    have hf : d.registers.write o v = (.none, (d.registers.write o v).2) := by rw [← heffect]
    have hshows : ∀ b, (d.registers.write o v).2.shows b = d.registers.shows b := fun b => by
      rw [RegisterFile.shows, hstatus, RegisterFile.shows]
    rw [writeRegister_eq hf] at hcall
    rw [hne]
    obtain hcall | ⟨failure, hcall⟩ := hcall <;> cases hcall
    exact h.alike ⟨rfl, hshows .busy, hshows .irq, finishedJobs_write .., rfl⟩
  · rw [writeRegister_eq hf] at hcall
    exact h.triggered hcall
  · rw [writeRegister_eq hf] at hcall
    obtain hcall | ⟨failure, hcall⟩ := hcall <;> cases hcall
    exact h.lowered (RegisterFile.shows_lower_of_ne (by decide))
      (RegisterFile.shows_lower_self _ .irq) rfl d.records
  · rw [writeRegister_eq hf] at hcall
    obtain hcall | ⟨failure, hcall⟩ := hcall <;> cases hcall
    have hclear : Coherent g (softClear now d) accepted sent := by
      cases hbusy : d.engine.busy with
      | true =>
        rw [softClear_busy hbusy]
        exact h
      | false =>
        have hlow : ((d.registers.clearJob.lower StatusBit.irq.mask).lower
            StatusBit.rejected.mask).shows .irq = false := by
          rw [RegisterFile.shows_lower_of_ne (by decide), RegisterFile.shows_lower_self]
        have hkeeps : ((d.registers.clearJob.lower StatusBit.irq.mask).lower
            StatusBit.rejected.mask).shows .busy = d.registers.shows .busy := by
          rw [RegisterFile.shows_lower_of_ne (by decide),
            RegisterFile.shows_lower_of_ne (by decide)]
          rfl
        rw [softClear_idle hbusy]
        exact h.lowered hkeeps hlow rfl _
    exact hclear

/-- **What a message does.** -/
theorem Coherent.received (h : Coherent g d accepted sent) {now : Double} {port content : String}
    {q q' : π} (hcall : receive now port content (d, q) = .ok () (d', q') ∨
      ∃ failure, receive now port content (d, q) = .error (.error failure) (d', q')) :
    Coherent g d' (accepted + (d.accepts q port content).toNat) sent := by
  rw [receive_eq] at hcall
  cases ha : access? port content with
  | none =>
    simp only [ha] at hcall
    rw [accepts, ha]
    obtain hcall | ⟨failure, hcall⟩ := hcall <;> cases hcall
    exact h
  | some a =>
    simp only [ha] at hcall
    cases hw : a.write with
    | false =>
      simp only [hw, Bool.false_eq_true, if_false] at hcall
      have haccepts : d.accepts q port content = false := by simp [accepts, ha, hw]
      rw [haccepts]
      obtain hcall | ⟨failure, hcall⟩ := hcall <;> cases hcall
      refine h.alike ⟨rfl, rfl, rfl, rfl, ?_⟩
      have hport : (responsePort == irqPort) = false := by decide
      simp [readRegister, interrupts, List.countP_append, hport]
    | true =>
      simp only [hw, if_true] at hcall
      have haccepts : d.accepts q port content = (a.offset == Register.trigger.offset &&
          engages d.registers.job (d.engine, q)) := by simp [accepts, ha, hw]
      rw [haccepts]
      exact h.written hcall

/-! ## Internal events and time -/

theorem interrupts_append (ms ms' : List PortMessage) :
    interrupts (ms ++ ms') = interrupts ms + interrupts ms' := List.countP_append

section

variable [Port π] {now : Double} {q q' : π}

/-- An armed event that is delivered without a report leaves the accelerator busy. -/
theorem Coherent.continued (h : Coherent g d accepted sent) {e : Engine}
    (hbusy : d.engine.busy = true) (he : Engine.Poised g e) (hbusy' : e.busy = true) (u : Double)
    (records : List Record) :
    Coherent g { d with engine := e, untilEvent := u, outbox := [], records := records }
      accepted sent where
  poised := he
  busy := by rw [h.busy, hbusy, hbusy']
  exclusive := fun _ => h.exclusive hbusy
  irq := fun hshown => absurd (hshown.symm.trans (h.exclusive hbusy)) (by decide)
  finished := h.finished
  accounts := by rw [h.accounts, hbusy, hbusy']
  quiet := rfl

/-- The completion of a job shows its interrupt, if it is still there, and is counted. -/
theorem Coherent.completed (h : Coherent g d accepted sent) {e : Engine}
    (hbusy : d.engine.busy = true) (he : Engine.Poised g e) (hidle : e.busy = false)
    (now : Double) (report : JobReport) :
    Coherent g ({ d with engine := e, outbox := [] }.complete now report).sync accepted
      (sent + 1) := by
  have hlow : (d.registers.jobFinished.lower StatusBit.busy.mask).shows .busy = false :=
    RegisterFile.shows_lower_self _ .busy
  have hwrap : (d.registers.finishedJobs + 1).toNat = (sent + 1) % Word.limit32 := by
    rw [UInt32.toNat_add, h.finished]
    exact Nat.mod_add_mod ..
  have haccounts : accepted = sent + 1 + e.busy.toNat := by
    rw [h.accounts, hbusy, hidle]
    rfl
  rw [complete_eq]
  cases hirq : e.irq with
  | true =>
    refine ⟨he, ?_, fun hb => ?_, fun _ => hirq, hwrap, haccounts, rfl⟩
    · exact (RegisterFile.shows_raise_of_ne (by decide)).trans (hlow.trans hidle.symm)
    · exact absurd (hb.symm.trans hidle) (by decide)
  | false =>
    have hoff : ((d.registers.jobFinished.lower StatusBit.busy.mask).lower
        StatusBit.irq.mask).shows .irq = false := RegisterFile.shows_lower_self _ .irq
    refine ⟨he, ?_, fun _ => hoff, fun hshown => ?_, hwrap, haccounts, rfl⟩
    · exact (RegisterFile.shows_lower_of_ne (by decide)).trans (hlow.trans hidle.symm)
    · exact absurd (hshown.symm.trans hoff) (by decide)

theorem fire_fault {event : Event} {l : Nat}
    (hdue : (Binary.zero .double).lt d.untilEvent = false)
    (hpend : d.engine.pending = some (event, l)) {failure : Failure} {e : Engine}
    (hd : Engine.deliver event (d.engine, q) = .error (.error failure) (e, q')) :
    fire now (d, q) = .error (.error .invalidModelState)
      ({ d with engine := e, outbox := [] }.record now (.fault failure), q') := by
  simp only [fire, run_get_bind, modifyDevice_bind, hdue, hpend, Bool.false_eq_true, if_false]
  rw [run_bind_ok (runEngine_failed (d := { d with outbox := [] }) hd)]
  rfl

theorem fire_trapped (now : Double) {event : Event} {l : Nat}
    (hdue : (Binary.zero .double).lt d.untilEvent = false)
    (hpend : d.engine.pending = some (event, l)) {t : Trap} {e : Engine}
    (hd : Engine.deliver event (d.engine, q) = .error (.trap t) (e, q')) :
    ∃ st, fire now (d, q) = .error (.trap t) st := by
  simp only [fire, run_get_bind, modifyDevice_bind, hdue, hpend, Bool.false_eq_true, if_false]
  rw [run_bind_error (runEngine_trapped (d := { d with outbox := [] }) hd)]
  exact ⟨_, rfl⟩

/-- **What an internal event does**, whether it returns or fails. -/
theorem Coherent.fires (h : Coherent g d accepted sent) (now : Double) (q : π) :
    (∀ {ms d' q'}, fire now (d, q) = .ok ms (d', q') →
      Coherent g d' accepted (sent + interrupts ms)) ∧
    ∀ {failure d' q'}, fire now (d, q) = .error (.error failure) (d', q') →
      Coherent g d' accepted sent := by
  have hquiet : sent + interrupts d.outbox = sent := by rw [h.quiet, Nat.add_zero]
  cases hdue : (Binary.zero .double).lt d.untilEvent with
  | true =>
    rw [fire_waiting hdue]
    refine ⟨fun hcall => ?_, nofun⟩
    cases hcall
    rw [hquiet]
    exact h.alike ⟨rfl, rfl, rfl, rfl, h.quiet.symm⟩
  | false =>
    cases hpend : d.engine.pending with
    | none =>
      rw [fire_unarmed hdue hpend]
      refine ⟨fun hcall => ?_, nofun⟩
      cases hcall
      rw [hquiet]
      exact h.alike ⟨rfl, rfl, rfl, rfl, h.quiet.symm⟩
    | some armed =>
      obtain ⟨event, l⟩ := armed
      have hbusy := Engine.busy_of_armed hpend
      cases hd : Engine.deliver event (d.engine, q) with
      | ok r st =>
        obtain ⟨e, q₁⟩ := st
        cases r with
        | none =>
          obtain ⟨he, hbusy'⟩ := h.poised.continued hd
          rw [fire_due hdue hpend hd]
          refine ⟨fun hcall => ?_, nofun⟩
          cases hcall
          rw [hquiet]
          exact h.continued hbusy he hbusy' _ _
        | some report =>
          obtain ⟨he, hidle⟩ := h.poised.completed hd
          rw [fire_completing hdue hpend hd]
          refine ⟨fun hcall => ?_, nofun⟩
          cases hcall
          rw [interrupts_append, ← Nat.add_assoc, hquiet]
          exact h.completed hbusy he hidle now report
      | error stop st =>
        obtain ⟨e, q₁⟩ := st
        cases stop with
        | error failure =>
          obtain ⟨he, hbusy'⟩ := h.poised.failed (congrArg (Option.map (·.1)) hpend) hd
          rw [fire_fault hdue hpend hd]
          refine ⟨nofun, fun hcall => ?_⟩
          cases hcall
          exact h.continued hbusy he hbusy' d.untilEvent _
        | trap t =>
          obtain ⟨st, hfire⟩ := fire_trapped now hdue hpend hd
          rw [hfire]
          exact ⟨nofun, nofun⟩

end

/-- **Every history leaves the status register coherent.** -/
theorem Reachable.coherent [Port π] (h : Reachable π g d accepted sent) :
    Coherent g d accepted sent := by
  induction h with
  | created h => exact create_coherent h
  | received _ hcall ih => exact ih.received hcall
  | fired _ hcall ih => exact (ih.fires _ _).1 hcall
  | failed _ hcall ih => exact (ih.fires _ _).2 hcall
  | elapsed _ delta ih => exact ih.alike ⟨rfl, rfl, rfl, rfl, rfl⟩

/-! ## From a trigger to its interrupt -/

section

variable [Port π] {q q' : π}

/-- Messages program a job, and are no triggers. -/
theorem Reachable.programmed (h : Reachable π g d accepted sent) (job : JobImage)
    (rs : List JobRegister) (now : Double) (q : π) :
    Reachable π g { d with
      registers := d.registers.writeAll (rs.map fun r => (r.offset, job.get r)) }
      accepted sent := by
  induction rs generalizing d with
  | nil => exact h
  | cons r rs ih =>
    have haccess : access? requestPort (RegisterAccess.writing r.offset (job.get r)).render =
        some (.writing r.offset (job.get r)) := by
      rw [access?, if_pos rfl, RegisterAccess.ofText?_render]
    have htrigger : (r.offset == Register.trigger.offset) = false := by cases r <;> decide
    have haccepts :
        d.accepts q requestPort (RegisterAccess.writing r.offset (job.get r)).render = false := by
      rw [accepts, haccess]
      simp [RegisterAccess.writing, htrigger]
    have hnext := Reachable.received h (.inl (receive_writing now d r (job.get r) q))
    rw [haccepts] at hnext
    exact ih hnext

/-- **A job that is programmed and triggered** is one trigger accepted. -/
theorem Reachable.launched (h : Reachable π g d accepted sent) (hd : d.Sound g) (hg : g.Valid)
    (hidle : d.engine.busy = false) {job : JobImage} {p : Plan}
    (hv : (d.registers.writeAll job.writes).job.validate g = .ok p) (now : Double) (q : π) :
    ∃ d', Reachable π g d' (accepted + 1) sent ∧ d'.Sound g ∧ d'.engine.Taken g p := by
  have hprogrammed : Reachable π g { d with registers := d.registers.writeAll job.writes }
      accepted sent := h.programmed job JobRegister.all now q
  generalize hready : ({ d with registers := d.registers.writeAll job.writes } : Device) = ready
    at hprogrammed
  have hsound : ready.Sound g := by
    rw [← hready]
    exact ⟨hd.standing, hd.unstuck, hd.synced, hd.answers,
      RegisterFile.packed_writeAll hd.packed _⟩
  have hidle' : ready.engine.busy = false := by rw [← hready, hidle]
  have hjob : ready.registers.job.validate g = .ok p := by rw [← hready, hv]
  obtain ⟨e, htaken, hstart⟩ := hsound.standing.taken (π := π) hg hidle' hjob
  have haccess : access? requestPort (RegisterAccess.writing Register.trigger.offset 0).render =
      some (.writing Register.trigger.offset 0) := by
    rw [access?, if_pos rfl, RegisterAccess.ofText?_render]
  have haccepts : ready.accepts q requestPort
      (RegisterAccess.writing Register.trigger.offset 0).render = true := by
    rw [accepts, haccess]
    simp [RegisterAccess.writing, engages, hstart q]
  have hcall := receive_trigger hidle' (hstart q) now 0
  have htriggered := hprogrammed.received (.inl hcall)
  rw [haccepts] at htriggered
  obtain ⟨d', htakes, hcall'⟩ := receive_takes (π := π) hg hsound now requestPort
    (RegisterAccess.writing Register.trigger.offset 0).render
  cases (hcall' q).symm.trans hcall
  exact ⟨_, htriggered, hsound.takes hg htakes, htaken⟩

/-- The clock runs off when the delay of the armed event has passed. -/
theorem Sound.due (hd : d.Sound g) {event : Event} {l : Nat}
    (hpend : d.engine.pending = some (event, l)) :
    (Binary.zero .double).lt (d.elapse (.ofNat .double l)).untilEvent = false := by
  have hzero : (d.elapse (.ofNat .double l)).untilEvent = .zero .double := by
    show d.untilEvent - _ = _
    rw [hd.synced, sync_armed hpend, Binary.sub_self_ofNat (hd.standing.delay_lt hpend)]
  rw [hzero]
  decide

/-- **A job that the port serves is answered by its interrupt.** -/
theorem Reachable.reported (h : Reachable π g d accepted sent) (hd : d.Sound g) (hg : g.Valid)
    {events : List (Event × Nat)} {report : JobReport}
    (hreports : Engine.Reports d.engine q events report q') :
    ∃ d', Reachable π g d' accepted (sent + 1) := by
  generalize he : d.engine = e at hreports
  induction hreports generalizing d with
  | @last e e' q q' event l report hpend hdel =>
    subst he
    have hfire : fire (.zero .double) (d.elapse (.ofNat .double l), q) = _ :=
      fire_completing (hd.due hpend) hpend hdel
    have hquiet : interrupts (d.elapse (.ofNat .double l)).outbox = 0 := h.coherent.quiet
    have hone : interrupts [⟨irqPort, report.render⟩] = 1 := by simp [interrupts]
    have hcalled := (h.elapsed (.ofNat .double l)).fired hfire
    rw [interrupts_append, hquiet, hone] at hcalled
    exact ⟨_, hcalled⟩
  | @more e e' q q' q'' event l events report hpend hdel _ ih =>
    subst he
    have hfire : fire (.zero .double) (d.elapse (.ofNat .double l), q) = _ :=
      fire_due (hd.due hpend) hpend hdel
    have hquiet : interrupts (d.elapse (.ofNat .double l)).outbox = 0 := h.coherent.quiet
    have hcalled := (h.elapsed (.ofNat .double l)).fired hfire
    rw [hquiet] at hcalled
    -- the clock is armed anew, so that the time that has passed does not matter
    have hsound : ({ d with engine := e', outbox := [] } : Device).sync.Sound g :=
      hd.continued hpend hg hdel
    exact ih hcalled hsound rfl

end

/-- **The status register tells the truth.** Whatever an accelerator of any array has
been through, faults of the port included, it says that it is busy as long as its
engine is, it never shows an interrupt while it is, and it shows none that the
engine does not raise. It has counted the interrupts sent, in a word that wraps
around, and every trigger accepted has led to one of them but for that of the job
under way. -/
theorem status_coherent [Port π] (h : Reachable π g d accepted sent) :
    (d.registers.shows .busy = true ↔ d.engine.busy = true) ∧
      ¬ (d.registers.shows .busy = true ∧ d.registers.shows .irq = true) ∧
      (d.registers.shows .irq = true → d.engine.irq = true) ∧
      (d.registers.read Register.finishedJobs.offset).toNat = sent % Word.limit32 ∧
      accepted = sent + (if d.engine.busy then 1 else 0) := by
  have hc := h.coherent
  refine ⟨by rw [hc.busy], fun ⟨hbusy, hirq⟩ => ?_, hc.irq, ?_, ?_⟩
  · rw [hc.busy] at hbusy
    exact absurd (hirq.symm.trans (hc.exclusive hbusy)) (by decide)
  · have hread : d.registers.read Register.finishedJobs.offset = d.registers.finishedJobs := by
      rw [RegisterFile.read, Register.ofOffset_offset]
    rw [hread, hc.finished]
  · rw [hc.accounts]
    cases d.engine.busy <;> rfl

/-- A job with a leftover on every axis, from its trigger to its interrupt. -/
theorem status_coherent_ragged : ∃ d : Device, Reachable Memory .narrow d 1 1 ∧
    d.registers.shows .busy = false ∧
    (d.registers.read Register.finishedJobs.offset).toNat = 1 := by
  have hg := Geometry.validate_eq_ok_iff.mp Geometry.validate_narrow
  obtain ⟨d, hd, hsound, hidle, -, hregisters⟩ := create_sound hg
  have hjob : (d.registers.writeAll (JobImage.ragged 0x200 0x300).writes).job =
      .ragged 0x200 0x300 := by
    rw [hregisters]
    decide
  have hv : JobImage.validate
      (d.registers.writeAll (JobImage.ragged 0x200 0x300).writes).job .narrow =
        .ok (.ragged 0x200 0x300) := by
    rw [hjob]
    exact JobImage.validate_ragged 0x200 0x300
  have hp := (JobImage.accepted_of_validate hv).sound hg
  obtain ⟨d₁, hreach₁, hsound₁, htaken⟩ := (Reachable.created (π := Memory) hd).launched hsound hg
    hidle hv (.zero .double) (Memory.zeroed 0 0x400 3)
  obtain ⟨hport, hclock⟩ := htaken.served_ragged Engine.backed_self (.zeroed 0 0x400 3) rfl rfl rfl
  obtain ⟨events, report, q, hreports⟩ := htaken.exists_reports hg hp hport hclock
  obtain ⟨d₂, hreach₂⟩ := hreach₁.reported hsound₁ hg hreports
  obtain ⟨hbusy, -, -, hcount, haccounts⟩ := status_coherent hreach₂
  refine ⟨d₂, hreach₂, ?_, hcount⟩
  -- as many interrupts as triggers leave no job under way
  rw [← Bool.not_eq_true, hbusy]
  intro hstill
  rw [hstill] at haccounts
  cases haccounts

end Device

end SystolicGemm
