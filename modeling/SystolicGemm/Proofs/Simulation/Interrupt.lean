import SystolicGemm.Proofs.Simulation.Undisturbed

/-!
# When the interrupt shows

A job raises the interrupt line in its last subcycle, and the status word repeats
the line one step later, with the completion that sends the interrupt. A request
to clear the line that is delivered in that very step comes first. Then the
interrupt goes out, but the status word does not show it, and never will.

Without such a request the interrupt shows as soon as it is sent, and from then on
until somebody clears it or starts another job.
-/

namespace SystolicGemm

/-- Whether an action puts an interrupt away: a job accepted, or a soft clear. -/
def Action.resets : Action → Bool
  | trigger _ | softClear => true
  | triggerRejected | jobRejected _ | irq _ | fault _ | registerResponse _ => false

/-- Whether a message asks the accelerator to lower the interrupt line. -/
def Message.clearsIrq (m : Message) : Bool :=
  m.target == Simulation.deviceName && m.access?.any Device.clearsIrq

namespace Device

variable {g : Geometry} {d d' : Device} {now : Double}

/-! ## What leaves the interrupt as it is -/

/-- An accelerator between jobs that has not been reset since shows the interrupt
as it did. -/
def Keeps (d d' : Device) : Prop :=
  ∃ rs, d'.records = d.records ++ rs ∧ ((∀ r ∈ rs, r.action.resets = false) →
    d.engine.busy = false →
      d'.engine.busy = false ∧ d'.registers.shows .irq = d.registers.shows .irq)

theorem Keeps.refl (d : Device) : Keeps d d :=
  ⟨[], (List.append_nil _).symm, fun _ hidle => ⟨hidle, rfl⟩⟩

theorem Keeps.trans {d'' : Device} (h : Keeps d d') (h' : Keeps d' d'') : Keeps d d'' := by
  obtain ⟨rs, hrs, hkeep⟩ := h
  obtain ⟨rs', hrs', hkeep'⟩ := h'
  refine ⟨rs ++ rs', by rw [hrs', hrs, List.append_assoc], fun hresets hidle => ?_⟩
  obtain ⟨hidle₁, hshows₁⟩ := hkeep (fun r hr => hresets r (List.mem_append_left _ hr)) hidle
  obtain ⟨hidle₂, hshows₂⟩ := hkeep' (fun r hr => hresets r (List.mem_append_right _ hr)) hidle₁
  exact ⟨hidle₂, hshows₂.trans hshows₁⟩

/-- With an event armed there is nothing to keep. -/
theorem Keeps.of_armed {armed : Event × Nat} (hpend : d.engine.pending = some armed)
    {rs : List Record} (hrs : d'.records = d.records ++ rs) : Keeps d d' := by
  refine ⟨rs, hrs, fun _ hidle => ?_⟩
  exact absurd (hpend.symm.trans (Engine.busy_eq_false_iff.mp hidle).2) nofun

/-- **A message that does not ask to clear the line** leaves the interrupt as it
is, unless it is a reset and recorded as one. -/
theorem Takes.keeps {a : Option RegisterAccess} (h : Takes g now d a d')
    (hclear : a.any clearsIrq = false) : Keeps d d' := by
  cases h with
  | ignored | read | softIgnored =>
    exact ⟨[], (List.append_nil _).symm, fun _ hidle => ⟨hidle, rfl⟩⟩
  | written _ _ hstatus =>
    refine ⟨[], (List.append_nil _).symm, fun _ hidle => ⟨hidle, ?_⟩⟩
    rw [RegisterFile.shows, RegisterFile.shows, hstatus]
  | rejected _ _ hbusy =>
    exact ⟨_, rfl, fun _ hidle => absurd (hbusy.symm.trans hidle) (by decide)⟩
  | refused =>
    exact ⟨_, rfl, fun _ hidle => ⟨hidle, RegisterFile.shows_raise_of_ne (by decide)⟩⟩
  | started | softCleared =>
    exact ⟨_, rfl, fun hresets => absurd (hresets _ (List.mem_singleton_self _)) nofun⟩
  | irqCleared hw hoffset =>
    rw [Option.any_some, clearsIrq, hw, hoffset] at hclear
    exact absurd hclear (by decide)

theorem Hears.keeps {as : List (Option RegisterAccess)} (h : Hears g now d as d')
    (hclear : as.any (·.any clearsIrq) = false) : Keeps d d' := by
  induction h with
  | nil => exact .refl _
  | cons ht _ ih =>
    rw [List.any_cons, Bool.or_eq_false_iff] at hclear
    exact (ht.keeps hclear.1).trans (ih hclear.2)

/-- A message arms the first event of a job or none. -/
theorem Takes.pending {a : Option RegisterAccess} (h : Takes g now d a d') :
    d'.engine.pending = d.engine.pending ∨ d'.engine.pending = some (.mainLoop, 0) := by
  cases h with
  | started => exact .inr rfl
  | ignored | read | written | rejected | refused | irqCleared | softCleared | softIgnored =>
    exact .inl rfl

/-- A completion has been armed before the messages. -/
theorem Hears.completing {as : List (Option RegisterAccess)} (h : Hears g now d as d') {l : Nat}
    (hpend : d'.engine.pending = some (.completion, l)) :
    d.engine.pending = some (.completion, l) := by
  induction h with
  | nil => exact hpend
  | cons ht _ ih =>
    obtain heq | heq := ht.pending
    · exact heq.symm.trans (ih hpend)
    · cases heq.symm.trans (ih hpend)

/-! ## The status word at the end of a job -/

theorem shows_complete (d : Device) (now : Double) (report : JobReport) :
    (d.complete now report).registers.shows .busy = false ∧
      (d.complete now report).registers.shows .irq = d.engine.irq := by
  rw [complete_eq]
  have hne : StatusBit.busy ≠ StatusBit.irq := by decide
  cases hirq : d.engine.irq with
  | false =>
    simp only [Bool.false_eq_true, if_false]
    exact ⟨(RegisterFile.shows_lower_of_ne hne).trans (RegisterFile.shows_lower_self _ _),
      RegisterFile.shows_lower_self _ _⟩
  | true =>
    simp only [if_true]
    exact ⟨(RegisterFile.shows_raise_of_ne hne).trans (RegisterFile.shows_lower_self _ _),
      RegisterFile.shows_raise_self _ _⟩

end Device

namespace Simulation

variable {π : Type} [Port π] {g : Geometry} {s s' : Simulation} {q q' : π}

theorem any_requests (s : Simulation) :
    s.requests.any (·.any Device.clearsIrq) = s.queue.any Message.clearsIrq := by
  rw [requests, List.any_map, List.any_filter]
  rfl

/-- What a step sends asks the accelerator for nothing. -/
theorem Sound.quiet (hs : s.Sound g) (hg : g.Valid) (h : Advances g s q (.ok () (s', q'))) :
    ∀ m ∈ s'.queue, m.clearsIrq = false := by
  have hanswers : ∀ {d : Device} {now : Double},
      Device.Hears g s.time s.device s.requests d → ∀ m ∈ answers now d, m.clearsIrq = false := by
    intro d now hhears m hm
    obtain ⟨a, rfl⟩ := mem_answers (hs.device.hears hg hhears) hm
    rfl
  cases h with
  | waited _ hhears | continued _ hhears => exact hanswers hhears
  | completed _ hhears =>
    intro m hm
    rcases List.mem_append.mp hm with hm | hm
    · exact hanswers hhears m hm
    · rw [List.mem_singleton.mp hm]
      rfl

/-- **The step that sends an interrupt** shows it, unless it has heard a request
to clear the line. -/
theorem Sound.interrupted (hs : s.Sound g) (hg : g.Valid)
    (h : Advances g s q (.ok () (s', q'))) {m : Message} (hm : s'.emitted = some m) :
    s'.device.engine.busy = false ∧ s'.device.registers.shows .busy = false ∧
      s'.device.registers.shows .irq = !s.queue.any Message.clearsIrq := by
  cases h with
  | waited _ hhears | continued _ hhears =>
    have hd := hs.device.hears hg hhears
    exact absurd (hm.symm.trans (emitted_answers hd rfl)) nofun
  | @completed d _ event l e _ report _ hhears hpend hdel =>
    obtain ⟨hcompletion, -, he, hidle, -⟩ :=
      (hs.device.hears hg hhears).standing.reported hg hpend hdel
    have harmed := hhears.completing hcompletion
    have hbusy := hs.device.busy_of_armed harmed
    have hirq : e.irq = !s.queue.any Message.clearsIrq := by
      rw [he, (hhears.busy hbusy).1, ← any_requests]
      split
      · next hclear =>
        rw [hclear]
        rfl
      · next hclear =>
        rw [Bool.not_eq_true] at hclear
        rw [hclear]
        exact hs.raised harmed
    obtain ⟨hidle', hshows⟩ := Device.shows_complete
      { d with engine := e, outbox := [] } (after s.time l) report
    refine ⟨?_, hidle', hshows.trans hirq⟩
    rw [Device.complete_eq]
    exact hidle

/-- Two states between which no interrupt has been put away, with nothing on its
way that could. -/
structure Retains (s s' : Simulation) : Prop where
  keeps : s.device.Keeps s'.device
  quiet : ∀ m ∈ s'.queue, m.clearsIrq = false

/-- **A step retains the interrupt.** -/
theorem Retains.advanced (h : Retains s s') (hs' : s'.Sound g) (hg : g.Valid) {s'' : Simulation}
    (hadv : Advances g s' q (.ok () (s'', q'))) : Retains s s'' := by
  refine ⟨h.keeps.trans ?_, hs'.quiet hg hadv⟩
  have hclear : s'.requests.any (·.any Device.clearsIrq) = false := by
    rw [any_requests, List.any_eq_false]
    exact fun m hm => Bool.not_eq_true _ ▸ h.quiet m hm
  cases hadv with
  | waited _ hhears => exact hhears.keeps hclear
  | continued _ hhears hpend =>
    exact (hhears.keeps hclear).trans (.of_armed hpend (List.append_nil _).symm)
  | @completed d _ event l e _ report _ hhears hpend =>
    have hrecords : (({ d with engine := e, outbox := [] } : Device).complete (after s'.time l)
        report).sync.records = d.records ++ [⟨after s'.time l, .irq report.render⟩] := by
      rw [Device.complete_eq]
      rfl
    exact (hhears.keeps hclear).trans (.of_armed hpend hrecords)

theorem Retains.continues (hs : s.Sound g) (hg : g.Valid)
    (hqueue : ∀ m ∈ s.queue, m.clearsIrq = false) {ms : List Message}
    (h : Continues π s ms s') (hms : ∀ m ∈ ms, m.clearsIrq = false) : Retains s s' := by
  induction h with
  | refl => exact ⟨.refl _, hqueue⟩
  | queued _ batch ih =>
    have hretains := ih fun m hm => hms m (List.mem_append_left _ hm)
    refine ⟨hretains.keeps, fun m hm => ?_⟩
    rcases List.mem_append.mp hm with hm | hm
    · exact hretains.quiet m hm
    · exact hms m (List.mem_append_right _ hm)
  | stepped h hstep ih =>
    obtain ⟨-, -, hadv⟩ | ⟨-, -, rfl, -⟩ := (hs.continues hg h).step_cases hg hstep
    · exact (ih hms).advanced (hs.continues hg h) hg hadv
    · exact ih hms

/-! ## A job about to complete -/

/-- A job that ends in a report comes to have its completion armed. -/
theorem Sound.exists_completing (hs : s.Sound g) (hg : g.Valid) (hheard : s.Heard)
    (hrequests : s.requests = []) {events : List (Event × Nat)} {report : JobReport}
    (h : Engine.Reports s.device.engine q events report q') :
    ∃ s₁, Continues π s [] s₁ ∧ s₁.Heard ∧ s₁.requests = [] ∧
      s₁.device.engine.pending = some (.completion, 0) := by
  -- induction on what is left, measured as in `Sound.attended_quiet`
  generalize hn : 3 * events.length + s.load = n
  induction n using Nat.strong_induction_on generalizing s q events with
  | h n ih =>
    cases h with
    | last hpend hd =>
      exact ⟨s, .refl, hheard, hrequests, (hs.device.standing.reported hg hpend hd).1⟩
    | more hpend hd hrest =>
      have hlength := hrest.armed.2
      obtain ⟨s₁, q₁, hstep, hs₁, hprogress⟩ := hs.progress hg hheard (.more hpend hd hrest)
      have hload := s₁.load_le
      have hfirst : Continues π s [] s₁ := .stepped .refl hstep
      cases hprogress with
      | waited _ _ hheard₁ hrequests₁ hless h₁ =>
        obtain ⟨s₂, hcont, hthere⟩ := ih _ (by omega) hs₁ hheard₁ hrequests₁ h₁ rfl
        exact ⟨s₂, hfirst.trans hcont, hthere⟩
      | continued _ _ hheard₁ hrequests₁ h₁ =>
        rw [List.length_cons] at hn
        obtain ⟨s₂, hcont, hthere⟩ := ih _ (by omega) hs₁ hheard₁ hrequests₁ h₁ rfl
        exact ⟨s₂, hfirst.trans hcont, hthere⟩
      | completed => exact absurd hlength (by decide)

/-- An armed completion is delivered in the next step, whatever comes first. -/
theorem Sound.completes (hs : s.Sound g) (hg : g.Valid) (hheard : s.Heard)
    (hpend : s.device.engine.pending = some (.completion, 0)) (q : π) :
    ∃ s' m, step (s, q) = .ok true (s', q) ∧ s'.emitted = some m ∧
      Advances g s q (.ok () (s', q)) := by
  have hbusy := hs.device.busy_of_armed hpend
  have hwork := hs.working hbusy s.queue
  have hstill : ∀ {d : Device}, Device.Hears g s.time s.device s.requests d →
      d.engine.pending = some (.completion, 0) := by
    intro d hhears
    rw [(hhears.busy hbusy).1]
    split <;> exact hpend
  obtain ⟨s', q', hstep, hadv⟩ | ⟨stop, st, -, hadv⟩ := hs.step_working hg hwork q
  · cases hadv with
    | waited _ hhears _ hwait => exact absurd (hstill hhears) (hwait _)
    | continued _ hhears hpend' hdel =>
      cases (hstill hhears).symm.trans hpend'
      cases (Engine.deliver_armed (hstill hhears) q).symm.trans hdel
    | completed hheard' hhears hpend' hdel =>
      have hd := hs.device.hears hg hhears
      obtain ⟨-, -, -, -, rfl⟩ := hd.standing.reported hg hpend' hdel
      exact ⟨_, _, hstep, emitted_interrupt hd rfl, .completed hheard' hhears hpend' hdel⟩
  · cases hadv with
    | refused hrefused => exact absurd hheard hrefused
    | failed _ hhears hpend' hdel =>
      cases (hstill hhears).symm.trans hpend'
      cases (Engine.deliver_armed (hstill hhears) q).symm.trans hdel

/-- The job of `exists_underWay`, with its completion armed. -/
theorem exists_completing : ∃ s : Simulation,
    Reachable (Recorded Memory) .narrow s ∧ s.Heard ∧ s.requests = [] ∧
      s.device.engine.pending = some (.completion, 0) := by
  obtain ⟨s, _, events, report, _, hs, hheard, hrequests, hrep⟩ := exists_underWay
  have hg := Geometry.validate_eq_ok_iff.mp Geometry.validate_narrow
  obtain ⟨s₁, hcont, hthere⟩ := (hs.sound hg).exists_completing hg hheard hrequests hrep
  exact ⟨s₁, hs.continues hcont, hthere⟩

/-! ## The interrupt in the status word -/

/-- **When the interrupt shows.** The step that sends it leaves the busy bit clear,
and the interrupt bit set exactly if no request to clear the line was delivered
in that very step. From then on that bit stays as it is, until there is such a
request, or an accepted job, or a soft clear. -/
theorem interrupt_shown {g : Geometry} (hg : g.validate = .ok ()) {s : Simulation}
    (hs : Reachable π g s) {q q' : π} {b : Bool} {s' : Simulation}
    (hstep : step (s, q) = .ok b (s', q')) {m : Message} (hm : s'.emitted = some m) :
    s'.device.registers.shows .busy = false ∧
      (s'.device.registers.shows .irq = true ↔ ∀ m ∈ s.queue, m.clearsIrq = false) ∧
      ∀ {ms : List Message} {s'' : Simulation}, Continues π s' ms s'' →
        (∀ m ∈ ms, m.clearsIrq = false) →
        (∀ r ∈ s''.device.records.drop s'.device.records.length, r.action.resets = false) →
        s''.device.registers.shows .irq = s'.device.registers.shows .irq := by
  have hvalid := Geometry.validate_eq_ok_iff.mp hg
  have hsound := hs.sound hvalid
  obtain ⟨-, -, hadv⟩ | ⟨hwork, -, rfl, -⟩ := hsound.step_cases hvalid hstep
  · obtain ⟨hidle, hbusy, hirq⟩ := hsound.interrupted hvalid hadv hm
    refine ⟨hbusy, ?_, fun hcont hms hresets => ?_⟩
    · rw [hirq, Bool.not_eq_true', List.any_eq_false]
      exact forall₂_congr fun m _ => by rw [Bool.not_eq_true]
    · obtain ⟨rs, hrs, hkeep⟩ := (Retains.continues (hsound.advanced hvalid hadv) hvalid
        (hsound.quiet hvalid hadv) hcont hms).keeps
      rw [hrs, List.drop_left] at hresets
      exact (hkeep hresets hidle).2
  · -- with nothing to do there is nothing in the queue either
    have hempty : s'.queue = [] := by
      by_contra hne
      rw [hsound.pendingWork_iff.mpr (.inl hne)] at hwork
      cases hwork
    rw [emitted, hempty] at hm
    cases hm

/-- The job of `exists_completing` is left alone and shows its interrupt, also after
the status word has been read. -/
theorem interrupt_shown_ragged : ∃ (s s' : Simulation) (q : Recorded Memory) (m : Message),
    Reachable (Recorded Memory) .narrow s ∧ step (s, q) = .ok true (s', q) ∧
    s'.emitted = some m ∧ s'.device.registers.shows .busy = false ∧
    s'.device.registers.shows .irq = true ∧
    ∀ {ms : List Message} {s'' : Simulation}, Continues (Recorded Memory) s' ms s'' →
      (∀ m ∈ ms, m.clearsIrq = false) →
      (∀ r ∈ s''.device.records.drop s'.device.records.length, r.action.resets = false) →
      s''.device.registers.shows .irq = true := by
  obtain ⟨s, hs, hheard, hrequests, hpend⟩ := exists_completing
  have hg := Geometry.validate_eq_ok_iff.mp Geometry.validate_narrow
  obtain ⟨s', m, hstep, hm, -⟩ := (hs.sound hg).completes hg hheard hpend
    (Recorded.fresh (Memory.zeroed 0 0x400 3))
  obtain ⟨hbusy, hirq, hstays⟩ := interrupt_shown Geometry.validate_narrow hs hstep hm
  have hquiet : ∀ m ∈ s.queue, m.clearsIrq = false := by
    have hany := any_requests s
    rw [hrequests, List.any_nil, eq_comm, List.any_eq_false] at hany
    exact fun m hm => Bool.not_eq_true _ ▸ hany m hm
  exact ⟨s, s', _, m, hs, hstep, hm, hbusy, hirq.mpr hquiet,
    fun hcont hms hresets => (hstays hcont hms hresets).trans (hirq.mpr hquiet)⟩

/-- The host's request to lower the interrupt line. -/
def clearance (now : Double) : Message := request now (.writing Register.irqClear.offset 0)

theorem clearsIrq_clearance (now : Double) : (clearance now).clearsIrq = true := by
  rw [Message.clearsIrq, clearance, access?_request]
  rfl

/-- The same job with a request to lower the line put in before its completion:
the interrupt is sent, and the status word does not show it. -/
theorem interrupt_lost : ∃ (s s' : Simulation) (q : Recorded Memory) (m : Message),
    Reachable (Recorded Memory) .narrow s ∧ s.device.engine.pending = some (.completion, 0) ∧
    clearance s.time ∈ s.queue ∧ step (s, q) = .ok true (s', q) ∧
    s'.emitted = some m ∧ s'.device.registers.shows .irq = false := by
  obtain ⟨s, hs, hheard, -, hpend⟩ := exists_completing
  have hg := Geometry.validate_eq_ok_iff.mp Geometry.validate_narrow
  have hreach : Reachable (Recorded Memory) .narrow
      { s with queue := s.queue ++ [clearance s.time] } := hs.continues (.queued .refl _)
  have hsound := hreach.sound hg
  have hheard' : ({ s with queue := s.queue ++ [clearance s.time] } : Simulation).Heard := by
    refine heard_append.mpr ⟨hheard, heard_of_target fun m hm => ?_⟩
    rw [List.mem_singleton.mp hm]
    rfl
  obtain ⟨s', m, hstep, hm, hadv⟩ := hsound.completes hg hheard' hpend
    (Recorded.fresh (Memory.zeroed 0 0x400 3))
  obtain ⟨-, -, hirq⟩ := hsound.interrupted hg hadv hm
  refine ⟨_, s', _, m, hreach, hpend, List.mem_append_right _ (List.mem_singleton_self _), hstep,
    hm, ?_⟩
  rw [hirq, List.any_append, List.any_cons, clearsIrq_clearance, Bool.true_or, Bool.or_true]
  rfl

end Simulation

end SystolicGemm
