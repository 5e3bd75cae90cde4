import SystolicGemm.Proofs.Engine.History
import SystolicGemm.Proofs.Floating.Clock
import SystolicGemm.Proofs.Job.Packed
import SystolicGemm.Simulation.Device

/-!
# What the accelerator does with a message

`Takes` lists everything that a message can do to an accelerator. While a job is
under way that is little: registers are written and read, triggers and soft
clears are turned down, and the interrupt line is lowered. The armed event is
left alone, so the job cannot notice.
-/

namespace SystolicGemm

/-! ## Status bits -/

namespace RegisterFile

variable {f : RegisterFile} {b c : StatusBit}

/-- A bit that has been set shows. -/
theorem shows_raise_self (f : RegisterFile) (b : StatusBit) :
    (f.raise b.mask).shows b = true := by
  have h : (f.status ||| b.mask) &&& b.mask = b.mask := by
    rw [← UInt32.toBitVec_inj]
    ext i
    simp only [UInt32.toBitVec_and, UInt32.toBitVec_or, BitVec.getElem_and, BitVec.getElem_or]
    cases b.mask.toBitVec[i] <;> simp
  show ((f.status ||| b.mask) &&& b.mask != 0) = true
  rw [h]
  cases b <;> rfl

/-- Setting a bit leaves the others as they are. -/
theorem shows_raise_of_ne (h : b ≠ c) : (f.raise c.mask).shows b = f.shows b := by
  have hmask : c.mask &&& b.mask = 0 := by
    revert h
    cases b <;> cases c <;> decide
  have hword : (f.status ||| c.mask) &&& b.mask = f.status &&& b.mask ||| c.mask &&& b.mask := by
    rw [← UInt32.toBitVec_inj]
    ext i
    simp only [UInt32.toBitVec_and, UInt32.toBitVec_or, BitVec.getElem_and, BitVec.getElem_or,
      Bool.and_or_distrib_right]
  show ((f.status ||| c.mask) &&& b.mask != 0) = (f.status &&& b.mask != 0)
  rw [hword, hmask, UInt32.or_zero]

/-- A bit that has been cleared does not show. -/
theorem shows_lower_self (f : RegisterFile) (b : StatusBit) :
    (f.lower b.mask).shows b = false := by
  have hmask : ~~~b.mask &&& b.mask = 0 := by cases b <;> rfl
  show (f.status &&& ~~~b.mask &&& b.mask != 0) = false
  rw [UInt32.and_assoc, hmask, UInt32.and_zero]
  rfl

/-- Clearing a bit leaves the others as they are. -/
theorem shows_lower_of_ne (h : b ≠ c) : (f.lower c.mask).shows b = f.shows b := by
  have hmask : ~~~c.mask &&& b.mask = b.mask := by
    revert h
    cases b <;> cases c <;> decide
  show (f.status &&& ~~~c.mask &&& b.mask != 0) = (f.status &&& b.mask != 0)
  rw [UInt32.and_assoc, hmask]

/-- What a write asks for depends on its register alone, and it does not touch
the status word. -/
theorem write_cases (f : RegisterFile) (o v : UInt32) :
    ((f.write o v).1 = .none ∧ (f.write o v).2.status = f.status ∧
      o ≠ Register.irqClear.offset) ∨
    (o = Register.trigger.offset ∧ f.write o v = (.trigger, f)) ∨
    (o = Register.irqClear.offset ∧ f.write o v = (.irqClear, f)) ∨
    (o = Register.softClear.offset ∧ f.write o v = (.softClear, f)) := by
  have hclear : ∀ {r}, Register.ofOffset o = r → r ≠ some .irqClear →
      o ≠ Register.irqClear.offset := by
    rintro r rfl hr rfl
    exact hr (Register.ofOffset_offset _)
  unfold write
  split
  · next h => exact .inr (.inl ⟨(Register.offset_eq_of_ofOffset h).symm, rfl⟩)
  · next h => exact .inr (.inr (.inl ⟨(Register.offset_eq_of_ofOffset h).symm, rfl⟩))
  · next h => exact .inr (.inr (.inr ⟨(Register.offset_eq_of_ofOffset h).symm, rfl⟩))
  · next h => exact .inl ⟨rfl, rfl, hclear h nofun⟩
  · next h => exact .inl ⟨rfl, rfl, hclear h nofun⟩
  · next h => exact .inl ⟨rfl, rfl, hclear h nofun⟩
  · next r h => exact .inl ⟨rfl, rfl, hclear h nofun⟩

end RegisterFile

namespace Device

variable {π : Type}

/-! ## Messages -/

/-- The register access that a message on a port asks for. -/
def access? (port content : String) : Option RegisterAccess :=
  if port = requestPort then RegisterAccess.ofText? content else none

/-- Whether an access lowers the interrupt line. -/
def clearsIrq (a : RegisterAccess) : Bool := a.write && a.offset == Register.irqClear.offset

/-- Everything that a message can do to an accelerator of array `g`, by the
access that it asks for. -/
inductive Takes (g : Geometry) (now : Double) (d : Device) : Option RegisterAccess → Device → Prop
  | ignored : Takes g now d none d
  | read {a : RegisterAccess} (hread : a.write = false) :
      Takes g now d (some a) (d.readRegister a)
  | written {a : RegisterAccess} (hw : a.write = true)
      (heffect : (d.registers.write a.offset a.value).1 = .none)
      (hstatus : (d.registers.write a.offset a.value).2.status = d.registers.status)
      (hoffset : a.offset ≠ Register.irqClear.offset) :
      Takes g now d (some a) { d with registers := (d.registers.write a.offset a.value).2 }
  | rejected {a : RegisterAccess} (hw : a.write = true)
      (hoffset : a.offset = Register.trigger.offset) (hbusy : d.engine.busy = true) :
      Takes g now d (some a) ((d.raise .rejected).record now .triggerRejected)
  | started {a : RegisterAccess} {p : Plan} {s : TileStore} (hw : a.write = true)
      (hoffset : a.offset = Register.trigger.offset) (hidle : d.engine.busy = false)
      (hv : d.registers.job.validate g = .ok p) (hs : s.At g p.n p.colTiles .none) :
      Takes g now d (some a)
        ((((({ d with engine := d.engine.begun p s }.lower .rejected).lower .irq).raise .busy).sync
          |>.record now (.trigger d.registers.job)))
  | refused {a : RegisterAccess} {flaw : JobFlaw} (hw : a.write = true)
      (hoffset : a.offset = Register.trigger.offset) (hidle : d.engine.busy = false)
      (hv : d.registers.job.validate g = .error (.error flaw)) :
      Takes g now d (some a) ((d.raise .rejected).record now (.jobRejected (.job flaw)))
  | irqCleared {a : RegisterAccess} (hw : a.write = true)
      (hoffset : a.offset = Register.irqClear.offset) :
      Takes g now d (some a) ({ d with engine := d.engine.clearIrq }.lower .irq)
  | softCleared {a : RegisterAccess} (hw : a.write = true)
      (hoffset : a.offset = Register.softClear.offset) (hidle : d.engine.busy = false) :
      Takes g now d (some a) (({ d with
        registers := d.registers.clearJob
        engine := d.engine.clearIrq }.lower .irq).lower .rejected |>.record now .softClear)
  | softIgnored {a : RegisterAccess} (hw : a.write = true)
      (hoffset : a.offset = Register.softClear.offset) (hbusy : d.engine.busy = true) :
      Takes g now d (some a) d

/-! ## The invariant -/

/-- The accelerator as its messages and events leave it. -/
structure Sound (g : Geometry) (d : Device) : Prop where
  standing : Engine.Standing g d.engine
  /-- No job has failed. -/
  unstuck : d.engine.pending = none → d.engine.phase = .idle
  synced : d.untilEvent = d.sync.untilEvent
  answers : ∀ m ∈ d.outbox, ∃ a : RegisterAccess, m = ⟨responsePort, a.render⟩
  /-- What is in the registers fits them, so that no check of a job traps. -/
  packed : d.registers.job.Packed

variable {g : Geometry} {d d' : Device}

/-! ## What receiving a message does -/

theorem modifyDevice_bind {α : Type} (f : Device → Device)
    (k : Unit → Run SimulationError (Device × π) α) (d : Device) (q : π) :
    (modifyDevice f >>= k) (d, q) = k () (f d, q) := rfl

theorem runEngine_ok {α : Type} {act : Run Failure (Engine × π) α} {q q' : π} {a : α} {e : Engine}
    (h : act (d.engine, q) = .ok a (e, q')) :
    runEngine act (d, q) = .ok (.ok a) ({ d with engine := e }, q') := by
  simp only [runEngine, h]

theorem runEngine_failed {α : Type} {act : Run Failure (Engine × π) α} {q q' : π}
    {failure : Failure} {e : Engine} (h : act (d.engine, q) = .error (.error failure) (e, q')) :
    runEngine act (d, q) = .ok (.error failure) ({ d with engine := e }, q') := by
  simp only [runEngine, h]

theorem runEngine_trapped {α : Type} {act : Run Failure (Engine × π) α} {q q' : π} {t : Trap}
    {e : Engine} (h : act (d.engine, q) = .error (.trap t) (e, q')) :
    runEngine act (d, q) = .error (.trap t) ({ d with engine := e }, q') := by
  simp only [runEngine, h]

theorem receive_eq (now : Double) (port content : String) (d : Device) (q : π) :
    receive now port content (d, q) =
      match access? port content with
      | none => .ok () (d, q)
      | some a =>
        if a.write then writeRegister now a.offset a.value (d, q)
        else .ok () (d.readRegister a, q) := by
  unfold receive access?
  by_cases hport : port = requestPort
  · simp only [hport, ne_eq, not_true_eq_false, if_false, if_true]
    cases RegisterAccess.ofText? content with
    | none => rfl
    | some a => cases hw : a.write <;> simp only [hw] <;> rfl
  · simp only [hport, ne_eq, not_false_eq_true, if_true, if_false]
    rfl

theorem writeRegister_eq {effect : RegisterEffect} {f : RegisterFile} {o v : UInt32}
    (h : d.registers.write o v = (effect, f)) (now : Double) (q : π) :
    writeRegister now o v (d, q) =
      match effect with
      | .none => .ok () ({ d with registers := f }, q)
      | .trigger => trigger now ({ d with registers := f }, q)
      | .irqClear => .ok () ({ d with registers := f, engine := d.engine.clearIrq }.lower .irq, q)
      | .softClear => .ok () (softClear now { d with registers := f }, q) := by
  simp only [writeRegister, run_get_bind, h, modifyDevice_bind]
  cases effect <;> rfl

theorem trigger_busy (h : d.engine.busy = true) (now : Double) (q : π) :
    trigger now (d, q) = .ok () ((d.raise .rejected).record now .triggerRejected, q) := by
  simp only [trigger, run_get_bind, h, if_true]
  rfl

/-- A trigger of an idle accelerator starts the programmed job, or turns it down. -/
theorem trigger_idle (hg : g.Valid) (h : d.Sound g) (hidle : d.engine.busy = false)
    (now : Double) :
    (∃ p s, d.registers.job.validate g = .ok p ∧ s.At g p.n p.colTiles .none ∧ ∀ q : π,
      trigger now (d, q) = .ok ()
        ((((({ d with engine := d.engine.begun p s }.lower .rejected).lower .irq).raise .busy).sync
          |>.record now (.trigger d.registers.job)), q)) ∨
    ∃ flaw, d.registers.job.validate g = .error (.error flaw) ∧ ∀ q : π, trigger now (d, q) =
      .ok () ((d.raise .rejected).record now (.jobRejected (.job flaw)), q) := by
  have hfits := h.standing.fits hidle
  simp only [trigger, run_get_bind, hidle, Bool.false_eq_true, if_false]
  cases hv : d.registers.job.validate g with
  | ok p =>
    obtain ⟨s, hs, hstart⟩ := Engine.start_accepted hfits hidle hg hv
    refine .inl ⟨p, s, rfl, hs, fun q => ?_⟩
    rw [run_bind_ok (runEngine_ok (hstart q))]
    rfl
  | error stop =>
    cases stop with
    | error flaw =>
      refine .inr ⟨flaw, rfl, fun q => ?_⟩
      rw [run_bind_ok (runEngine_failed (Engine.start_refused hfits hidle hg hv q))]
      rfl
    | trap t => exact absurd hv (h.packed.untrapped_validate hg t)

theorem softClear_busy (h : d.engine.busy = true) (now : Double) : softClear now d = d := by
  rw [softClear, if_pos h]

theorem softClear_idle (h : d.engine.busy = false) (now : Double) :
    softClear now d = (({ d with
      registers := d.registers.clearJob
      engine := d.engine.clearIrq }.lower .irq).lower .rejected |>.record now .softClear) := by
  rw [softClear, if_neg (by rw [h]; decide)]

theorem writeRegister_takes (hg : g.Valid) (h : d.Sound g) (now : Double) {a : RegisterAccess}
    (hw : a.write = true) : ∃ d', Takes g now d (some a) d' ∧
      ∀ q : π, writeRegister now a.offset a.value (d, q) = .ok () (d', q) := by
  obtain ⟨heffect, hstatus, hoffset⟩ | ⟨hoffset, hf⟩ | ⟨hoffset, hf⟩ | ⟨hoffset, hf⟩ :=
    d.registers.write_cases a.offset a.value
  · refine ⟨_, .written hw heffect hstatus hoffset, fun q => ?_⟩
    have heq : d.registers.write a.offset a.value =
        (.none, (d.registers.write a.offset a.value).2) := by rw [← heffect]
    rw [writeRegister_eq heq]
  · simp only [writeRegister_eq hf]
    cases hbusy : d.engine.busy with
    | true => exact ⟨_, .rejected hw hoffset hbusy, fun q => trigger_busy hbusy now q⟩
    | false =>
      obtain ⟨p, s, hv, hs, hrun⟩ | ⟨flaw, hv, hrun⟩ := trigger_idle (π := π) hg h hbusy now
      · exact ⟨_, .started hw hoffset hbusy hv hs, hrun⟩
      · exact ⟨_, .refused hw hoffset hbusy hv, hrun⟩
  · simp only [writeRegister_eq hf]
    exact ⟨_, .irqCleared hw hoffset, fun _ => rfl⟩
  · simp only [writeRegister_eq hf]
    cases hbusy : d.engine.busy with
    | true =>
      refine ⟨d, .softIgnored hw hoffset hbusy, fun q => ?_⟩
      rw [softClear_busy hbusy]
    | false =>
      refine ⟨_, .softCleared hw hoffset hbusy, fun q => ?_⟩
      rw [softClear_idle hbusy]

/-- **A message does one of the things that `Takes` lists.** -/
theorem receive_takes (hg : g.Valid) (h : d.Sound g) (now : Double) (port content : String) :
    ∃ d', Takes g now d (access? port content) d' ∧
      ∀ q : π, receive now port content (d, q) = .ok () (d', q) := by
  cases ha : access? port content with
  | none =>
    refine ⟨d, .ignored, fun q => ?_⟩
    rw [receive_eq, ha]
  | some a =>
    cases hw : a.write with
    | false =>
      refine ⟨_, .read hw, fun q => ?_⟩
      simp only [receive_eq, ha, hw, Bool.false_eq_true, if_false]
    | true =>
      simp only [receive_eq, ha, hw, if_true]
      exact writeRegister_takes hg h now hw

/-! ## The invariant is kept -/

theorem sync_idle (h : d.engine.pending = none) :
    d.sync.untilEvent = .infinity .double := by
  simp only [sync, h]

theorem sync_armed {event : Event} {l : Nat} (h : d.engine.pending = some (event, l)) :
    d.sync.untilEvent = .ofNat .double l := by
  simp only [sync, h]

theorem create_sound (hg : g.Valid) :
    ∃ d, create g = .ok d ∧ d.Sound g ∧ d.engine.busy = false ∧ d.outbox = [] ∧
      d.registers = .reset := by
  obtain ⟨e, he, hfits, hidle⟩ := Engine.create_fits hg
  unfold create
  rw [he, ok_bind]
  refine ⟨_, rfl, ?_, hidle, rfl, rfl⟩
  obtain ⟨hphase, hpend⟩ := Engine.busy_eq_false_iff.mp hidle
  exact ⟨.idle hfits hphase hpend, fun _ => hphase, (sync_idle hpend).symm,
    fun m hm => absurd hm List.not_mem_nil, JobImage.packed_blank⟩

/-- **A message leaves an accelerator sound.** -/
theorem Sound.takes {now : Double} {a : Option RegisterAccess} (h : d.Sound g) (hg : g.Valid)
    (ht : Takes g now d a d') : d'.Sound g := by
  cases ht with
  | ignored | rejected | refused | softIgnored =>
    exact ⟨h.standing, h.unstuck, h.synced, h.answers, h.packed⟩
  | written =>
    exact ⟨h.standing, h.unstuck, h.synced, h.answers, RegisterFile.packed_write h.packed _ _⟩
  | irqCleared => exact ⟨h.standing.clearIrq, h.unstuck, h.synced, h.answers, h.packed⟩
  | softCleared =>
    exact ⟨h.standing.clearIrq, h.unstuck, h.synced, h.answers, JobImage.packed_blank⟩
  | read =>
    refine ⟨h.standing, h.unstuck, h.synced, fun m hm => ?_, h.packed⟩
    rcases List.mem_append.mp hm with hm | hm
    · exact h.answers m hm
    · exact ⟨_, List.mem_singleton.mp hm⟩
  | started _ _ hidle hv hs =>
    have hp := (JobImage.accepted_of_validate hv).sound hg
    refine ⟨Engine.standing_begun (h.standing.fits hidle) hp hs, fun hnone => ?_, rfl, h.answers,
      h.packed⟩
    cases hnone

theorem Sound.busy_iff (h : d.Sound g) : d.engine.busy = true ↔ d.engine.pending ≠ none := by
  rw [← Bool.not_eq_false, Engine.busy_eq_false_iff]
  exact ⟨fun hn hp => hn ⟨h.unstuck hp, hp⟩, fun hn hi => hn hi.2⟩

theorem Sound.busy_of_armed (h : d.Sound g) {armed : Event × Nat}
    (hpend : d.engine.pending = some armed) : d.engine.busy = true :=
  h.busy_iff.mpr fun hnone => absurd (hpend.symm.trans hnone) nofun

/-- The time until the armed event is its delay, and there is none without one. -/
theorem Sound.until_cases (h : d.Sound g) :
    (d.engine.pending = none ∧ d.untilEvent = .infinity .double) ∨
      ∃ event l, d.engine.pending = some (event, l) ∧ l < Word.limit ∧
        d.untilEvent = .ofNat .double l := by
  cases hpend : d.engine.pending with
  | none => exact .inl ⟨rfl, h.synced.trans (sync_idle hpend)⟩
  | some armed =>
    obtain ⟨event, l⟩ := armed
    exact .inr ⟨event, l, rfl, h.standing.delay_lt hpend, h.synced.trans (sync_armed hpend)⟩

theorem Sound.until_regular (h : d.Sound g) : d.untilEvent.Regular := by
  obtain ⟨-, hu⟩ | ⟨event, l, -, -, hu⟩ := h.until_cases
  · rw [hu]
    decide
  · rw [hu]
    exact Binary.regular_ofNat l

/-! ## Many messages -/

/-- What the messages of a step do to an accelerator, one after the other. -/
inductive Hears (g : Geometry) (now : Double) :
    Device → List (Option RegisterAccess) → Device → Prop
  | nil {d : Device} : Hears g now d [] d
  | cons {d d' d'' : Device} {a : Option RegisterAccess} {as : List (Option RegisterAccess)}
      (ht : Takes g now d a d') (hs : Hears g now d' as d'') : Hears g now d (a :: as) d''

theorem Sound.hears {now : Double} {as : List (Option RegisterAccess)} (h : d.Sound g)
    (hg : g.Valid) (hs : Hears g now d as d') : d'.Sound g := by
  induction hs with
  | nil => exact h
  | cons ht _ ih => exact ih (h.takes hg ht)

/-- **A job under way hears nothing** but that the interrupt line is lowered. -/
theorem Takes.busy {now : Double} {a : Option RegisterAccess} (ht : Takes g now d a d')
    (hbusy : d.engine.busy = true) :
    d'.engine = (if a.any clearsIrq then d.engine.clearIrq else d.engine) ∧
      d'.untilEvent = d.untilEvent := by
  cases ht with
  | ignored => exact ⟨rfl, rfl⟩
  | read hread =>
    rw [Option.any_some, clearsIrq, hread]
    exact ⟨rfl, rfl⟩
  | written hw _ _ hoffset =>
    rw [Option.any_some, clearsIrq, hw, beq_false_of_ne hoffset]
    exact ⟨rfl, rfl⟩
  | rejected hw hoffset | irqCleared hw hoffset | softIgnored hw hoffset =>
    rw [Option.any_some, clearsIrq, hw, hoffset]
    exact ⟨rfl, rfl⟩
  | started _ _ hidle | refused _ _ hidle | softCleared _ _ hidle =>
    exact absurd (hbusy.symm.trans hidle) (by decide)

theorem Hears.busy {now : Double} {as : List (Option RegisterAccess)} (hs : Hears g now d as d')
    (hbusy : d.engine.busy = true) :
    d'.engine = (if as.any (·.any clearsIrq) then d.engine.clearIrq else d.engine) ∧
      d'.untilEvent = d.untilEvent := by
  induction hs with
  | nil => exact ⟨rfl, rfl⟩
  | @cons d d' d'' a as ht _ ih =>
    obtain ⟨he, hu⟩ := ht.busy hbusy
    have hbusy' : d'.engine.busy = true := by
      rw [he]
      split <;> exact hbusy
    obtain ⟨he', hu'⟩ := ih hbusy'
    refine ⟨?_, hu'.trans hu⟩
    rw [he', he, List.any_cons]
    cases a.any clearsIrq <;> cases as.any (·.any clearsIrq) <;> rfl

/-- A job under way stays so. -/
theorem Hears.still_busy {now : Double} {as : List (Option RegisterAccess)}
    (hs : Hears g now d as d') (hbusy : d.engine.busy = true) : d'.engine.busy = true := by
  rw [(hs.busy hbusy).1]
  split <;> exact hbusy

/-! ## The internal event -/

theorem complete_eq (d : Device) (now : Double) (report : JobReport) :
    d.complete now report = { d with
      registers :=
        let idle := d.registers.jobFinished.lower StatusBit.busy.mask
        if d.engine.irq then idle.raise StatusBit.irq.mask else idle.lower StatusBit.irq.mask
      records := d.records ++ [⟨now, .irq report.render⟩] } := by
  unfold complete
  cases hirq : d.engine.irq <;> simp only [lower, raise, record, hirq] <;> rfl

/-- The completion of a job arms the engine's clock anew, whatever it showed. -/
theorem sync_complete (d : Device) (u now : Double) (report : JobReport) :
    ({ d with untilEvent := u }.complete now report).sync = (d.complete now report).sync := by
  rw [complete_eq, complete_eq]
  rfl

theorem untilNext_nil (h : d.outbox = []) : d.untilNext = d.untilEvent := by
  rw [untilNext, h]
  rfl

theorem untilNext_of_ne_nil (h : d.outbox ≠ []) : d.untilNext = .zero .double := by
  rw [untilNext, List.isEmpty_eq_false_iff.mpr h]
  rfl

section

variable {event : Event} {l : Nat} {e : Engine} {q q' : π} {now : Double}

theorem fire_waiting [Port π] (h : (Binary.zero .double).lt d.untilEvent = true) :
    fire now (d, q) = .ok d.outbox ({ d with outbox := [] }, q) := by
  simp only [fire, run_get_bind, modifyDevice_bind, h, if_true]
  rfl

theorem fire_unarmed [Port π] (hdue : (Binary.zero .double).lt d.untilEvent = false)
    (hpend : d.engine.pending = none) :
    fire now (d, q) =
      .ok d.outbox ({ d with outbox := [], untilEvent := .infinity .double }, q) := by
  simp only [fire, run_get_bind, modifyDevice_bind, hdue, hpend, Bool.false_eq_true, if_false]
  rfl

variable [Port π] (hdue : (Binary.zero .double).lt d.untilEvent = false)
  (hpend : d.engine.pending = some (event, l))

include hdue hpend

theorem fire_due (hd : Engine.deliver event (d.engine, q) = .ok none (e, q')) :
    fire now (d, q) = .ok d.outbox ({ d with engine := e, outbox := [] }.sync, q') := by
  simp only [fire, run_get_bind, modifyDevice_bind, hdue, hpend, Bool.false_eq_true, if_false]
  rw [run_bind_ok (runEngine_ok (d := { d with outbox := [] }) hd)]
  rfl

theorem fire_completing {report : JobReport}
    (hd : Engine.deliver event (d.engine, q) = .ok (some report) (e, q')) :
    fire now (d, q) = .ok (d.outbox ++ [⟨irqPort, report.render⟩])
      (({ d with engine := e, outbox := [] }.complete now report).sync, q') := by
  simp only [fire, run_get_bind, modifyDevice_bind, hdue, hpend, Bool.false_eq_true, if_false]
  rw [run_bind_ok (runEngine_ok (d := { d with outbox := [] }) hd)]
  rfl

theorem fire_failing (now : Double) {stop : Stop Failure} {st : Engine × π}
    (hd : Engine.deliver event (d.engine, q) = .error stop st) :
    ∃ stop' st', fire now (d, q) = .error stop' st' := by
  obtain ⟨e, q'⟩ := st
  simp only [fire, run_get_bind, modifyDevice_bind, hdue, hpend, Bool.false_eq_true, if_false]
  cases stop with
  | error failure =>
    rw [run_bind_ok (runEngine_failed (d := { d with outbox := [] }) hd)]
    exact ⟨_, _, rfl⟩
  | trap t =>
    rw [run_bind_error (runEngine_trapped (d := { d with outbox := [] }) hd)]
    exact ⟨_, _, rfl⟩

omit hdue

theorem Sound.continued (h : d.Sound g) (hg : g.Valid)
    (hd : Engine.deliver event (d.engine, q) = .ok none (e, q')) :
    ({ d with engine := e, outbox := [] } : Device).sync.Sound g := by
  obtain ⟨⟨event', l', harmed⟩, -⟩ := h.standing.goesOn hg hpend hd
  refine ⟨h.standing.deliver hg (.inl ⟨_, hd⟩), fun hnone => ?_, rfl,
    fun m hm => absurd hm List.not_mem_nil, h.packed⟩
  exact absurd (harmed.symm.trans hnone) nofun

theorem Sound.completed (h : d.Sound g) (hg : g.Valid) (now : Double) {report : JobReport}
    (hd : Engine.deliver event (d.engine, q) = .ok (some report) (e, q')) :
    (({ d with engine := e, outbox := [] } : Device).complete now report).sync.Sound g := by
  obtain ⟨-, -, -, hidle, -⟩ := h.standing.reported hg hpend hd
  have hphase := (Engine.busy_eq_false_iff.mp hidle).1
  have hstanding := h.standing.deliver hg (.inl ⟨_, hd⟩)
  rw [complete_eq]
  refine ⟨hstanding, fun _ => hphase, rfl, fun m hm => absurd hm List.not_mem_nil, ?_⟩
  show JobImage.Packed (RegisterFile.job (if e.irq then _ else _))
  split <;> exact h.packed

end

end Device

end SystolicGemm
