import SystolicGemm.Proofs.Simulation.Launch

/-!
# Reads are answered

An answer is made when its request is received, from the registers as they are then,
and waits in the outbox. An outbox with anything in it makes an internal event due at
once, and every internal event empties it, whatever else it does. So no answer stays
behind in a step, and the host hears of it in the next: what the host has heard, and
what is on its way to it, are together the answers so far (`Answering`).

Nothing is asked of the array or of the port, only that no step fails.
-/

namespace SystolicGemm

/-- What an access asks for: the register, and whether it is written. -/
def RegisterAccess.asked (a : RegisterAccess) : UInt32 × Bool := (a.offset, a.write)

/-- The answer to a read that an action is about. -/
def Action.response? : Action → Option String
  | .registerResponse access => some access
  | _ => none

/-- The read that a message asks the accelerator for. -/
def Message.read? (m : Message) : Option RegisterAccess := m.access?.filter (!·.write)

namespace Device

variable {π : Type} {d d' : Device} {q q' : π} {now : Double}

/-- The answer to a message as the registers are. -/
def answer? (d : Device) (m : Message) : Option RegisterAccess :=
  m.read?.map fun a => { a with value := d.registers.read a.offset }

/-- Answers as they wait in the outbox. -/
def responses (as : List RegisterAccess) : List PortMessage :=
  as.map fun a => ⟨responsePort, a.render⟩

/-! ## What becomes of the outbox -/

theorem outbox_trigger (h : trigger now (d, q) = .ok () (d', q')) : d'.outbox = d.outbox := by
  by_cases hbusy : d.engine.busy = true
  · rw [trigger_busy hbusy] at h
    cases h
    rfl
  · simp only [trigger, run_get_bind, if_neg hbusy] at h
    obtain ⟨result, ⟨d₁, q₁⟩, hrun, h⟩ := run_bind_eq_ok h
    cases hstart : Engine.start d.registers.job (d.engine, q) with
    | ok u st =>
      rw [runEngine_ok hstart] at hrun
      cases hrun
      cases h
      rfl
    | error stop st =>
      cases stop with
      | trap t =>
        rw [runEngine_trapped hstart] at hrun
        cases hrun
      | error failure =>
        rw [runEngine_failed hstart] at hrun
        cases hrun
        cases failure <;> cases h <;> rfl

theorem outbox_softClear (now : Double) (d : Device) : (softClear now d).outbox = d.outbox := by
  unfold softClear
  split <;> rfl

theorem outbox_writeRegister {offset value : UInt32}
    (h : writeRegister now offset value (d, q) = .ok () (d', q')) : d'.outbox = d.outbox := by
  rcases hwrite : d.registers.write offset value with ⟨effect, f⟩
  rw [writeRegister_eq hwrite] at h
  cases effect with
  | none | irqClear =>
    cases h
    rfl
  | trigger => exact (outbox_trigger h).trans rfl
  | softClear =>
    cases h
    exact outbox_softClear now _

/-- **A read is answered, and nothing else is.** The answer goes to the end of the outbox. -/
theorem outbox_receive {m : Message}
    (h : receive now m.targetPort m.content (d, q) = .ok () (d', q')) :
    d'.outbox = d.outbox ++ responses (d.answer? m).toList := by
  rw [receive_eq] at h
  unfold answer? Message.read? Message.access?
  cases ha : access? m.targetPort m.content with
  | none =>
    rw [ha] at h
    cases h
    exact (List.append_nil _).symm
  | some a =>
    rw [ha] at h
    simp only [] at h
    cases hw : a.write with
    | true =>
      rw [hw, if_pos rfl] at h
      rw [outbox_writeRegister h, Option.filter_some, hw]
      exact (List.append_nil _).symm
    | false =>
      rw [hw, if_neg (by decide)] at h
      cases h
      rw [Option.filter_some, hw]
      rfl

/-- **What is no write changes nothing**: a read only leaves its answer in the outbox, and
what cannot be understood or comes to another port is ignored. -/
theorem receive_of_not_write {port content : String}
    (h : ∀ a, access? port content = some a → a.write = false) (now : Double) (d : Device) (q : π) :
    ∃ outbox, receive now port content (d, q) = .ok () ({ d with outbox := outbox }, q) := by
  rw [receive_eq]
  cases ha : access? port content with
  | none => exact ⟨d.outbox, rfl⟩
  | some a =>
    simp only [h a ha, Bool.false_eq_true, if_false]
    exact ⟨_, rfl⟩

/-- **The internal event sends all that waits**, and after it at most an interrupt. -/
theorem outbox_fire [Port π] {sent : List PortMessage}
    (h : fire now (d, q) = .ok sent (d', q')) :
    d'.outbox = [] ∧
      (sent = d.outbox ∨ ∃ report : JobReport, sent = d.outbox ++ [⟨irqPort, report.render⟩]) := by
  cases hlt : (Binary.zero .double).lt d.untilEvent with
  | true =>
    rw [fire_waiting hlt] at h
    cases h
    exact ⟨rfl, .inl rfl⟩
  | false =>
    cases hpend : d.engine.pending with
    | none =>
      rw [fire_unarmed hlt hpend] at h
      cases h
      exact ⟨rfl, .inl rfl⟩
    | some armed =>
      obtain ⟨event, l⟩ := armed
      cases hd : Engine.deliver event (d.engine, q) with
      | ok result st =>
        cases result with
        | none =>
          rw [fire_due hlt hpend hd] at h
          cases h
          exact ⟨rfl, .inl rfl⟩
        | some report =>
          rw [fire_completing hlt hpend hd, complete_eq] at h
          cases h
          exact ⟨rfl, .inr ⟨report, rfl⟩⟩
      | error stop st =>
        obtain ⟨stop', st', hfail⟩ := fire_failing hlt hpend now hd
        rw [hfail] at h
        cases h

end Device

/-! ## What the host hears -/

namespace Host

variable {h h' : Host} {now : Double} {port content : String}

/-- The answers as the records hold them. -/
def responseRecords (h : Host) : List String := h.records.filterMap (·.action.response?)

theorem responseRecords_record (h : Host) (action : Action) :
    (h.record now action).responseRecords = h.responseRecords ++ action.response?.toList := by
  rw [responseRecords, record, List.filterMap_append, responseRecords]
  cases action <;> rfl

/-- An answer is kept and recorded. -/
theorem receive_response (a : RegisterAccess) (hr : h.receive now responsePort a.render = .ok h') :
    h'.responses = h.responses ++ [a] ∧ h'.responseRecords = h.responseRecords ++ [a.render] := by
  have hne : responsePort ≠ irqPort := by decide
  rw [receive, if_neg hne, if_pos rfl, RegisterAccess.ofText?_render] at hr
  cases hr
  exact ⟨rfl, responseRecords_record _ _⟩

/-- No other message is taken for an answer. -/
theorem receive_other (hport : port ≠ responsePort) (hr : h.receive now port content = .ok h') :
    h'.responses = h.responses ∧ h'.responseRecords = h.responseRecords := by
  unfold receive at hr
  by_cases hirq : port = irqPort
  · rw [if_pos hirq] at hr
    split at hr
    · cases hr
      exact ⟨rfl, (responseRecords_record _ _).trans (List.append_nil _)⟩
    · cases hr
  · rw [if_neg hirq, if_neg hport] at hr
    cases hr
    exact ⟨rfl, rfl⟩

end Host

namespace Simulation

variable {π : Type} {s s' : Simulation} {q q' : π}

/-- The text of an answer, if a message is one that is on its way to the host. -/
def responseText? (m : Message) : Option String :=
  if m.target == hostName && m.targetPort == Host.responsePort then some m.content else none

/-- Messages among which these answers are on their way to the host, in order. -/
def Carries (ms : List Message) (onWay : List RegisterAccess) : Prop :=
  ms.filterMap responseText? = onWay.map RegisterAccess.render

/-- The host hears of all answers that are on their way. -/
theorem each_hostReceive_carries {ms : List Message} {onWay : List RegisterAccess}
    (hcarries : Carries ms onWay) (hhost : ∀ m ∈ ms, m.target = hostName)
    (h : each hostReceive ms (s, q) = .ok () (s', q')) :
    s' = { s with host := s'.host } ∧ s'.host.responses = s.host.responses ++ onWay ∧
      s'.host.responseRecords = s.host.responseRecords ++ onWay.map RegisterAccess.render := by
  induction ms generalizing s q onWay with
  | nil =>
    obtain rfl : onWay = [] := List.map_eq_nil_iff.mp hcarries.symm
    cases h
    exact ⟨rfl, (List.append_nil _).symm, (List.append_nil _).symm⟩
  | cons m ms ih =>
    obtain ⟨⟨s₁, q₁⟩, hfirst, hrest⟩ := each_cons_eq_ok h
    obtain ⟨hm, hms⟩ := List.forall_mem_cons.mp hhost
    cases htake : s.host.receive s.time m.targetPort m.content with
    | error e =>
      cases e
      rw [hostReceive_error htake] at hfirst
      cases hfirst
    | ok host =>
      rw [hostReceive_ok htake] at hfirst
      cases hfirst
      by_cases hport : m.targetPort = Host.responsePort
      · -- an answer: the first of those that are on their way
        have htext : responseText? m = some m.content := by
          rw [responseText?, hm, hport]
          rfl
        rw [Carries, List.filterMap_cons_some htext] at hcarries
        obtain ⟨a, onWay, rfl, hcontent, hcarries⟩ := List.map_eq_cons_iff.mp hcarries.symm
        rw [hport, ← hcontent] at htake
        obtain ⟨hresponses, hrecords⟩ := Host.receive_response a htake
        obtain ⟨hs', hresponses', hrecords'⟩ := ih hcarries.symm hms hrest
        refine ⟨hs', ?_, ?_⟩
        · rw [hresponses', hresponses, List.append_assoc]
          rfl
        · rw [hrecords', hrecords, List.append_assoc]
          rfl
      · have htext : responseText? m = none := by
          rw [responseText?, beq_false_of_ne hport, Bool.and_false]
          rfl
        rw [Carries, List.filterMap_cons_none htext] at hcarries
        obtain ⟨hresponses, hrecords⟩ := Host.receive_other hport htake
        obtain ⟨hs', hresponses', hrecords'⟩ := ih hcarries hms hrest
        exact ⟨hs', hresponses ▸ hresponses', hrecords ▸ hrecords'⟩

/-! ## What a step does -/

/-- The answers to messages that are delivered one after the other, each by the registers
as those before it have left them. -/
def answered (now : Double) : List Message → Device × π → List RegisterAccess
  | [], _ => []
  | m :: ms, st => (st.1.answer? m).toList ++
    match Device.receive now m.targetPort m.content st with
    | .ok () st' => answered now ms st'
    | .error _ _ => []

/-- The answers to the reads in the queue. -/
def reads (s : Simulation) (q : π) : List RegisterAccess :=
  answered s.time (s.queue.filter (·.target == deviceName)) (s.device, q)

theorem runDevice_eq_ok {α : Type} {act : Run SimulationError (Device × π) α} {a : α}
    (h : runDevice act (s, q) = .ok a (s', q')) :
    act (s.device, q) = .ok a (s'.device, q') ∧ s' = { s with device := s'.device } := by
  cases hact : act (s.device, q) with
  | ok r st =>
    rw [runDevice_ok hact] at h
    cases h
    exact ⟨rfl, rfl⟩
  | error stop st =>
    obtain ⟨st', hst⟩ := runDevice_error hact
    rw [hst] at h
    cases h

/-- Delivering messages leaves the answers to them in the outbox, one for each read. -/
theorem each_deviceReceive_answered {now : Double} {ms : List Message}
    (h : each (deviceReceive now) ms (s, q) = .ok () (s', q')) :
    s' = { s with device := s'.device } ∧
      s'.device.outbox = s.device.outbox ++ Device.responses (answered now ms (s.device, q)) ∧
      (answered now ms (s.device, q)).map RegisterAccess.asked =
        (ms.filterMap Message.read?).map RegisterAccess.asked := by
  induction ms generalizing s q with
  | nil =>
    cases h
    exact ⟨rfl, (List.append_nil _).symm, rfl⟩
  | cons m ms ih =>
    obtain ⟨⟨s₁, q₁⟩, hfirst, hrest⟩ := each_cons_eq_ok h
    obtain ⟨hreceive, hs₁⟩ := runDevice_eq_ok hfirst
    obtain ⟨hs', houtbox, hasked⟩ := ih hrest
    have hanswered : answered now (m :: ms) (s.device, q) =
        (s.device.answer? m).toList ++ answered now ms (s₁.device, q₁) := by
      rw [answered, hreceive]
    refine ⟨?_, ?_, ?_⟩
    · rw [hs', hs₁]
    · rw [houtbox, Device.outbox_receive hreceive, hanswered, Device.responses, Device.responses,
        Device.responses, List.map_append, List.append_assoc]
    · rw [hanswered, List.map_append, hasked, Device.answer?]
      cases hread : m.read? with
      | none => rw [List.filterMap_cons_none hread]; rfl
      | some a => rw [List.filterMap_cons_some hread]; rfl

/-- Delivering the queue brings the host the answers that were on their way, and puts the
new ones into the outbox. -/
theorem deliver_answered {onWay : List RegisterAccess} (hcarries : Carries s.queue onWay)
    (h : deliver (s, q) = .ok () (s', q')) :
    s' = { s with device := s'.device, host := s'.host } ∧
      s'.device.outbox = s.device.outbox ++ Device.responses (s.reads q) ∧
      (s.reads q).map RegisterAccess.asked =
        ((s.queue.filter (·.target == deviceName)).filterMap Message.read?).map
          RegisterAccess.asked ∧
      s'.host.responses = s.host.responses ++ onWay ∧
      s'.host.responseRecords = s.host.responseRecords ++ onWay.map RegisterAccess.render := by
  rw [deliver_eq] at h
  obtain ⟨_, ⟨s₁, q₁⟩, hdevice, hhost⟩ := run_bind_eq_ok h
  obtain ⟨hs₁, houtbox, hasked⟩ := each_deviceReceive_answered hdevice
  have hfiltered : Carries (s.queue.filter (·.target == hostName)) onWay := by
    rw [Carries, List.filterMap_filter, ← hcarries]
    congr 1
    funext m
    unfold responseText?
    cases m.target == hostName <;> rfl
  have htarget : ∀ m ∈ s.queue.filter (·.target == hostName), m.target = hostName :=
    fun m hm => beq_iff_eq.mp (List.mem_filter.mp hm).2
  obtain ⟨hs', hresponses, hrecords⟩ := each_hostReceive_carries hfiltered htarget hhost
  have hdev : s'.device = s₁.device := by rw [hs']
  have hsame : s₁.host = s.host := by rw [hs₁]
  refine ⟨?_, ?_, hasked, ?_, ?_⟩
  · rw [hs', hs₁]
  · rw [hdev, houtbox]
    rfl
  · rw [hresponses, hsame]
  · rw [hrecords, hsame]

theorem route_responses (now : Double) (as : List RegisterAccess) :
    (Device.responses as).filterMap (route now) = as.map (answer now) := by
  have hne : Device.responsePort ≠ Device.irqPort := by decide
  have hroute : ∀ a : RegisterAccess,
      route now ⟨Device.responsePort, a.render⟩ = some (answer now a) := by
    intro a
    rw [route, if_neg hne, if_pos rfl]
    rfl
  rw [Device.responses, List.filterMap_map, ← List.filterMap_eq_map']
  exact List.filterMap_congr fun a _ => hroute a

/-- Answers, with an interrupt behind them or not, are for the host. -/
theorem carries_answers {as : List RegisterAccess} {ms : List Message} {now : Double}
    (h : ms = as.map (answer now) ∨ ∃ report, ms = as.map (answer now) ++ [interrupt now report]) :
    Carries ms as ∧ ms.filter (·.target == deviceName) = [] := by
  have htext : ∀ a, responseText? (answer now a) = some a.render := fun a => by
    rw [responseText?, answer]
    rfl
  have hnotext : ∀ report, responseText? (interrupt now report) = none := fun report => by
    rw [responseText?, interrupt]
    rfl
  have hanswers : Carries (as.map (answer now)) as := by
    rw [Carries, List.filterMap_map, ← List.filterMap_eq_map']
    exact List.filterMap_congr fun a _ => htext a
  have hhost : (as.map (answer now)).filter (·.target == deviceName) = [] := by
    refine List.filter_eq_nil_iff.mpr fun m hm => ?_
    obtain ⟨a, -, rfl⟩ := List.mem_map.mp hm
    have hne : ¬ (hostName == deviceName) = true := by decide
    exact hne
  rcases h with rfl | ⟨report, rfl⟩
  · exact ⟨hanswers, hhost⟩
  · refine ⟨?_, ?_⟩
    · rw [Carries, List.filterMap_append, hanswers, List.filterMap_cons_none (hnotext report)]
      exact List.append_nil _
    · rw [List.filter_append, hhost]
      rfl

/-- **No answer stays behind.** What fires at the end of a step sends all answers, and it
sends nothing to the accelerator. -/
theorem fire_answered [Port π] {as : List RegisterAccess}
    (houtbox : s.device.outbox = Device.responses as) (h : fire (s, q) = .ok () (s', q')) :
    s'.device.outbox = [] ∧ s'.host = s.host ∧ Carries s'.queue as ∧
      s'.queue.filter (·.target == deviceName) = [] := by
  by_cases hzero : s.device.untilNext.isZero = true
  · simp only [fire, run_get_bind, if_pos hzero] at h
    obtain ⟨sent, ⟨s₁, q₁⟩, hsent, h⟩ := run_bind_eq_ok h
    cases h
    obtain ⟨hfire, hs₁⟩ := runDevice_eq_ok hsent
    obtain ⟨hempty, hwhat⟩ := Device.outbox_fire hfire
    rw [houtbox] at hwhat
    have hhost : s₁.host = s.host := by rw [hs₁]
    have hqueue : sent.filterMap (route s₁.time) = as.map (answer s₁.time) ∨ ∃ report,
        sent.filterMap (route s₁.time) = as.map (answer s₁.time) ++ [interrupt s₁.time report] := by
      rcases hwhat with rfl | ⟨report, rfl⟩
      · exact .inl (route_responses s₁.time as)
      · refine .inr ⟨report, ?_⟩
        rw [List.filterMap_append, route_responses]
        rfl
    exact ⟨hempty, hhost, carries_answers hqueue⟩
  · -- a full outbox would have made the event due
    simp only [fire, run_get_bind, if_neg hzero] at h
    cases h
    have hempty : s.device.outbox = [] := by
      by_contra hne
      rw [Device.untilNext_of_ne_nil hne] at hzero
      exact hzero (by decide)
    rw [hempty] at houtbox
    obtain rfl : as = [] := List.map_eq_nil_iff.mp houtbox.symm
    exact ⟨hempty, rfl, rfl, rfl⟩

/-! ## Conversations -/

/-- What messages to the accelerator and steps lead to, whatever the port holds before each
step: the messages that have been put in, and the answers to the reads among those that
have been delivered, in the order of delivery. A step that fails leads nowhere. -/
inductive Conversation (π : Type) [Port π] (g : Geometry) :
    List Message → List RegisterAccess → Simulation → Prop
  | created {s : Simulation} (h : create g = .ok s) : Conversation π g [] [] s
  | queued {ms : List Message} {as : List RegisterAccess} {s : Simulation}
      (h : Conversation π g ms as s) (batch : List Message)
      (htarget : ∀ m ∈ batch, m.target = deviceName) :
      Conversation π g (ms ++ batch) as { s with queue := s.queue ++ batch }
  | stepped {ms : List Message} {as : List RegisterAccess} {s s' : Simulation} {q q' : π} {b : Bool}
      (h : Conversation π g ms as s) (hstep : step (s, q) = .ok b (s', q')) :
      Conversation π g ms (as ++ s.reads q) s'

/-- What holds between two steps: all answers have left the accelerator, the host has heard
of them but for those on their way to it, and each read that was put in has been answered or
is in the queue. -/
structure Answering (ms : List Message) (as : List RegisterAccess) (s : Simulation) : Prop where
  outbox : s.device.outbox = []
  heard : ∃ onWay, as = s.host.responses ++ onWay ∧ Carries s.queue onWay
  recorded : s.host.responseRecords = s.host.responses.map RegisterAccess.render
  asked : (ms.filterMap Message.read?).map RegisterAccess.asked =
    as.map RegisterAccess.asked ++
      ((s.queue.filter (·.target == deviceName)).filterMap Message.read?).map RegisterAccess.asked

variable {ms : List Message} {as : List RegisterAccess}

theorem answering_create {g : Geometry} (h : create g = .ok s) : Answering [] [] s := by
  obtain ⟨d, hd, h⟩ := bind_eq_ok_iff.mp h
  obtain ⟨e, -, hd⟩ := bind_eq_ok_iff.mp hd
  cases hd
  cases h
  exact ⟨rfl, ⟨[], rfl, rfl⟩, rfl, rfl⟩

/-- Messages to the accelerator carry no answers. -/
theorem Answering.queued (h : Answering ms as s) {batch : List Message}
    (htarget : ∀ m ∈ batch, m.target = deviceName) :
    Answering (ms ++ batch) as { s with queue := s.queue ++ batch } where
  outbox := h.outbox
  heard := by
    obtain ⟨onWay, has, hcarries⟩ := h.heard
    have hnone : batch.filterMap responseText? = [] := by
      refine List.filterMap_eq_nil_iff.mpr fun m hm => ?_
      have hne : (deviceName == hostName) = false := by decide
      rw [responseText?, htarget m hm, hne]
      rfl
    refine ⟨onWay, has, ?_⟩
    rw [Carries, List.filterMap_append, hnone, List.append_nil, hcarries]
  recorded := h.recorded
  asked := by
    have hall : batch.filter (·.target == deviceName) = batch :=
      List.filter_eq_self.mpr fun m hm => beq_iff_eq.mpr (htarget m hm)
    rw [List.filterMap_append, List.map_append, h.asked, List.filter_append, hall,
      List.filterMap_append, List.map_append, List.append_assoc]

theorem queue_eq_nil_of_quiet (h : s.pendingWork = false) : s.queue = [] := by
  cases hqueue : s.queue with
  | nil => rfl
  | cons m queue =>
    rw [pendingWork, hqueue] at h
    cases h

/-- **A step answers what it delivers.** -/
theorem Answering.stepped [Port π] (h : Answering ms as s) {b : Bool}
    (hstep : step (s, q) = .ok b (s', q')) : Answering ms (as ++ s.reads q) s' := by
  cases hwork : s.pendingWork with
  | false =>
    rw [step_idle hwork] at hstep
    cases hstep
    have hreads : s.reads q = [] := by
      rw [reads, queue_eq_nil_of_quiet hwork]
      rfl
    rw [hreads, List.append_nil]
    exact h
  | true =>
    simp only [step, run_get_bind, hwork, if_true] at hstep
    obtain ⟨_, ⟨s₂, q₂⟩, hadvance, hstep⟩ := run_bind_eq_ok hstep
    cases hstep
    obtain ⟨onWay, has, hcarries⟩ := h.heard
    obtain ⟨_, ⟨s₁, q₁⟩, hdeliver, -⟩ := run_bind_eq_ok hadvance
    obtain ⟨hs₁, houtbox, hasked, hresponses, hrecords⟩ := deliver_answered hcarries hdeliver
    rw [advance_ok hdeliver] at hadvance
    have houtbox : (s₁.elapse s₁.delay).device.outbox = Device.responses (s.reads q) := by
      rw [h.outbox, List.nil_append] at houtbox
      exact houtbox
    obtain ⟨hempty, hhost, hnext, hnone⟩ := fire_answered houtbox hadvance
    have hhost : s'.host = s₁.host := hhost
    exact {
      outbox := hempty
      heard := by
        refine ⟨s.reads q, ?_, hnext⟩
        rw [hhost, hresponses, has]
      recorded := by
        rw [hhost, hrecords, hresponses, h.recorded, List.map_append]
      asked := by
        rw [h.asked, hnone, List.map_append, hasked]
        exact (List.append_nil _).symm }

theorem Conversation.answering [Port π] {g : Geometry} (h : Conversation π g ms as s) :
    Answering ms as s := by
  induction h with
  | created h => exact answering_create h
  | queued _ batch htarget ih => exact ih.queued htarget
  | stepped _ hstep ih => exact ih.stepped hstep

/-- **Reads are answered once each and in order.** Whatever is said to the accelerator, and
whatever it does meanwhile, the host has heard the answers to the reads that were delivered,
up to those that are on their way to it. Once there is nothing left to do it has heard all
of them, and recorded their texts, and they are as many as the reads that were put in, for
the same registers in the same order. What is no write has no other effect than its answer. -/
theorem responses_eq_answers [Port π] {g : Geometry} (h : Conversation π g ms as s) :
    (∃ onWay, as = s.host.responses ++ onWay ∧ Carries s.queue onWay) ∧
    (s.pendingWork = false → s.host.responses = as ∧
      s.host.responseRecords = as.map RegisterAccess.render ∧
      as.map RegisterAccess.asked =
        (ms.filterMap Message.read?).map RegisterAccess.asked) ∧
    ∀ port content, (∀ a, Device.access? port content = some a → a.write = false) →
      ∀ now (d : Device) (q : π), ∃ outbox,
        Device.receive now port content (d, q) = .ok () ({ d with outbox := outbox }, q) := by
  have hanswering := h.answering
  obtain ⟨onWay, has, hcarries⟩ := hanswering.heard
  refine ⟨⟨onWay, has, hcarries⟩, fun hquiet => ?_, fun port content hread now d q =>
    Device.receive_of_not_write hread now d q⟩
  have hqueue : s.queue = [] := queue_eq_nil_of_quiet hquiet
  rw [hqueue] at hcarries
  obtain rfl : onWay = [] := List.map_eq_nil_iff.mp hcarries.symm
  rw [List.append_nil] at has
  have hasked := hanswering.asked
  rw [hqueue] at hasked
  refine ⟨has.symm, ?_, ?_⟩
  · rw [hanswering.recorded, has]
  · rw [hasked]
    exact (List.append_nil _).symm

/-- A register is written, something is said that makes no sense, and two are read. -/
def asking : List Message :=
  [request (.zero .double) (.writing JobRegister.zAddr.offset 7),
    ⟨hostName, Device.requestPort, deviceName, Device.requestPort, .zero .double, "offset"⟩,
    request (.zero .double) (.reading JobRegister.zAddr.offset),
    request (.zero .double) (.reading Register.status.offset)]

/-- What the host has heard two steps after that, and whether anything is left to do. -/
def afterAsking : Option (List RegisterAccess × Bool) :=
  match create .narrow with
  | .error _ => none
  | .ok s =>
    match step ({ s with queue := s.queue ++ asking }, Memory.zeroed 0 0x10 0) with
    | .error _ _ => none
    | .ok _ st =>
      match step st with
      | .error _ _ => none
      | .ok _ st => some (st.1.host.responses, st.1.pendingWork)

theorem afterAsking_eq : afterAsking =
    some ([⟨JobRegister.zAddr.offset, false, 7⟩, ⟨Register.status.offset, false, 0⟩], false) := by
  decide +kernel

/-- The write comes first, so its value is read. -/
theorem responses_eq_answers_asking : ∃ (as : List RegisterAccess) (s : Simulation),
    Conversation Memory .narrow asking as s ∧ s.pendingWork = false ∧
    as = [⟨JobRegister.zAddr.offset, false, 7⟩, ⟨Register.status.offset, false, 0⟩] ∧
    s.host.responseRecords = as.map RegisterAccess.render := by
  have hafter := afterAsking_eq
  unfold afterAsking at hafter
  cases hcreate : create .narrow with
  | error t =>
    rw [hcreate] at hafter
    cases hafter
  | ok s =>
    have htarget : ∀ m ∈ asking, m.target = deviceName := by decide
    have hqueued := Conversation.queued (π := Memory) (.created hcreate) asking htarget
    rw [hcreate] at hafter
    simp only [] at hafter
    split at hafter
    · cases hafter
    · next st₁ hstep =>
      split at hafter
      · cases hafter
      · next st₂ hstep' =>
        have hconverse := (hqueued.stepped hstep).stepped hstep'
        obtain ⟨hresponses, hquiet⟩ := Prod.mk.inj (Option.some.inj hafter)
        obtain ⟨-, hend, -⟩ := responses_eq_answers hconverse
        obtain ⟨has, hrecords, -⟩ := hend hquiet
        exact ⟨_, st₂.1, hconverse, hquiet, has.symm.trans hresponses, hrecords⟩

end Simulation

end SystolicGemm
