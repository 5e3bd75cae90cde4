import SystolicGemm.Memory.Gate
import SystolicGemm.Proofs.Engine.Hosted
import SystolicGemm.Proofs.Memory.Recorded

/-!
# Jobs that do not get to their end

A port may refuse any beat of a job. Wherever the job is then, its memory is the
initial one with the first beats of Z laid over it, whole beats and no others
(`PartlyComputes`). The failure leaves the engine halted: busy, with nothing armed,
and no call moves it or reaches the port again.

`Faring` is the invariant of an engine and its port under every call that does not
start another job.
-/

namespace SystolicGemm

namespace Plan

/-- Whether a memory holds the product in the cells of the first `done` beats of Z
and is otherwise as it was: `m₀` is what it was, and what the product is of. -/
structure PartlyComputes (p : Plan) (g : Geometry) (m₀ m : Memory) (done : Nat) : Prop where
  base : m.base = m₀.base
  size : m.size = m₀.size
  cells : ∀ r c, r < p.m g.width → c < p.k → p.beatAt g.width .z r c < done →
    m.readBytes? (p.rowAddr .z r (c * g.elementBytes)) g.elementBytes =
      some (g.format.encode (p.gemm g m₀ r c))
  others : ∀ a, (∀ r c i, r < p.m g.width → c < p.k → i < g.elementBytes →
      p.beatAt g.width .z r c < done → p.rowAddr .z r (c * g.elementBytes + i) ≠ a) →
    m.byte a = m₀.byte a

/-- A memory with the first beats of Z laid over it, which has their bytes. -/
structure Laid (p : Plan) (g : Geometry) (m₀ m : Memory) (done : Nat) : Prop where
  overlaid : p.Overlaid g m₀ m done
  has : ∀ b < done, ∀ i < g.beatBytes, p.Covers g .z b i → m.Has (p.addr g .z b + i)

variable {p : Plan} {g : Geometry} {m₀ m : Memory} {done : Nat}

theorem laid_zero (p : Plan) (g : Geometry) (m : Memory) : p.Laid g m m 0 :=
  ⟨p.overlaid_zero g m, fun _ hb => absurd hb (Nat.not_lt_zero _)⟩

/-- **Beats of Z are cells of the product.** -/
theorem Laid.partlyComputes (h : p.Laid g m₀ m done) (hp : p.Sound g) :
    p.PartlyComputes g m₀ m done where
  base := h.overlaid.base
  size := h.overlaid.size
  cells := fun _ _ hr hc hdone => h.overlaid.cell hp h.has hr hc hdone
  others := by
    intro a ha
    refine h.overlaid.kept a fun b hb i hi hcovers heq => ?_
    -- byte `i` of beat `b` is byte `i % elementBytes` of element `i / elementBytes`
    have hbytes := g.elementBytes_pos
    have hj : i / g.elementBytes < g.width := Nat.div_lt_of_lt_mul (Nat.mul_comm g.width _ ▸ hi)
    have hplace : (p.column g.width .z b * g.width + i / g.elementBytes) * g.elementBytes +
        i % g.elementBytes = p.column g.width .z b * g.beatBytes + i := by
      rw [Nat.add_mul, Nat.add_assoc, Nat.div_add_mod', Geometry.beatBytes, Nat.mul_assoc]
    have hcol : p.column g.width .z b * g.width + i / g.elementBytes < p.k := by
      have hlt := hcovers.2
      rw [← hplace] at hlt
      exact Nat.lt_of_mul_lt_mul_right (Nat.lt_of_le_of_lt (Nat.le_add_right _ _) hlt)
    refine ha (p.row g.width .z b) _ (i % g.elementBytes) hcovers.1 hcol (Nat.mod_lt _ hbytes) ?_ ?_
    · rw [hp.beatAt_row_column (by decide) hcovers.1 hcol hj]
      exact hb
    · rw [hplace, ← addr_add, heq]

theorem Laid.serve (h : p.Laid g m₀ m done) {r : Request} {n : Nat}
    (hover : p.Overlaid g m₀ (m.serve r).2 n)
    (hnew : ∀ b < n, done ≤ b → ∀ i < g.beatBytes, p.Covers g .z b i →
      m.Has (p.addr g .z b + i)) : p.Laid g m₀ (m.serve r).2 n where
  overlaid := hover
  has := by
    intro b hb i hi hcovers
    have hold : m.Has (p.addr g .z b + i) := by
      rcases Nat.lt_or_ge b done with hlt | hge
      · exact h.has b hlt i hi hcovers
      · exact hnew b hb hge i hi hcovers
    rwa [Memory.Has, Memory.base_serve, Memory.size_serve]

end Plan

namespace Engine

variable {π : Type} {e : Engine} {g : Geometry} {p : Plan} {m₀ : Memory}

/-! ## Ports that refuse beats -/

/-- Whether a port in good order either passes a beat on to the memory behind it or
refuses the beat itself, which leaves that memory as it was, and stays in order. -/
def Fronts [Port π] (good : π → Prop) (view : π → Memory) : Prop :=
  ∀ r port, good port →
    match Port.access r port with
    | .ok reply port' => good port' ∧
      (Port.access r (view port) = .ok reply (view port') ∨
        reply.status ≠ .ok ∧ view port' = view port)
    | .error fault port' => good port' ∧
      (Port.access r (view port) = .error fault (view port') ∨
        fault = .poisoned ∧ view port' = view port)

variable {good : π → Prop} {view : π → Memory} {port : π}

section

variable [Port π] {r : Request} {reply : Reply} {port' : π}

/-- A beat that such a port answers has been served by the memory or has not changed it. -/
theorem Fronts.answered (h : Fronts good view) (hgood : good port)
    (hacc : Port.access r port = .ok reply port') :
    good port' ∧ ((view port).Contains r ∧ reply = ((view port).serve r).1 ∧
      view port' = ((view port).serve r).2 ∨ reply.status ≠ .ok ∧ view port' = view port) := by
  have hfront := h r port hgood
  rw [hacc] at hfront
  obtain ⟨hgood', hpassed | hrefused⟩ := hfront
  · refine ⟨hgood', ?_⟩
    rcases (view port).access_cases r with ⟨hin, hserve⟩ | ⟨-, hinvalid⟩ | ⟨-, htrap⟩
    · rw [hserve] at hpassed
      injection hpassed with hreply hview
      exact .inl ⟨hin, hreply.symm, hview.symm⟩
    · rw [hinvalid] at hpassed
      injection hpassed with hreply hview
      have hne : reply.status ≠ .ok := by
        rw [← hreply]
        exact fun hok => by cases hok
      exact .inr ⟨hne, hview.symm⟩
    · rw [htrap] at hpassed
      cases hpassed
  · exact ⟨hgood', .inr hrefused⟩

theorem Fronts.served (h : Fronts good view) (hgood : good port)
    (hacc : Port.access r port = .ok reply port') (hstatus : reply.status = .ok) :
    good port' ∧ (view port).Contains r ∧ reply = ((view port).serve r).1 ∧
      view port' = ((view port).serve r).2 := by
  obtain ⟨hgood', hserved | ⟨hne, -⟩⟩ := h.answered hgood hacc
  · exact ⟨hgood', hserved⟩
  · exact absurd hstatus hne

theorem Fronts.refused (h : Fronts good view) (hgood : good port)
    (hacc : Port.access r port = .ok reply port') (hstatus : reply.status ≠ .ok) :
    view port' = view port := by
  obtain ⟨-, ⟨-, hreply, -⟩ | ⟨-, hview⟩⟩ := h.answered hgood hacc
  · rw [hreply, Memory.status_reply] at hstatus
    exact absurd rfl hstatus
  · exact hview

theorem Fronts.failed (h : Fronts good view) (hgood : good port) {fault : PortFault}
    (hacc : Port.access r port = .error fault port') : view port' = view port := by
  have hfront := h r port hgood
  rw [hacc] at hfront
  obtain ⟨-, hpassed | ⟨-, hview⟩⟩ := hfront
  · rcases (view port).access_cases r with ⟨-, hserve⟩ | ⟨-, hinvalid⟩ | ⟨-, htrap⟩
    · rw [hserve] at hpassed
      cases hpassed
    · rw [hinvalid] at hpassed
      cases hpassed
    · rw [htrap] at hpassed
      injection hpassed with _ hview
      exact hview.symm
  · exact hview

end

/-- Beats that a port has been given to write and has written. -/
def stored (journal : List (Request × Reply)) : Nat :=
  journal.countP fun (r, reply) => r.direction = .write ∧ reply.status = .ok

theorem stored_note (q : Recorded π) (r : Request) (reply : Reply) (port : π) :
    stored (q.note r reply port).journal =
      stored q.journal + if r.direction = .write ∧ reply.status = .ok then 1 else 0 := by
  simp [stored, Recorded.note, List.countP_append, List.countP_singleton]

/-! ## Halted engines -/

/-- An engine that a failure of its port has left in the middle of a job. -/
structure Halted (e : Engine) : Prop where
  phase : e.phase ≠ .idle
  pending : e.pending = none
  irq : e.irq = false

/-- The state after a call, whatever the call has answered. -/
def Call.made [Port π] (c : Call) (st : Engine × π) : Engine × π :=
  match c.run st with
  | .ok _ st' | .error _ st' => st'

theorem Halted.busy (h : e.Halted) : e.busy = true := by
  simp [Engine.busy, h.phase]

theorem Halted.start (h : e.Halted) (job : JobImage) (port : π) :
    Engine.start job (e, port) = .error (.error .busy) (e, port) := start_busy h.busy job port

theorem Halted.deliver [Port π] (h : e.Halted) (event : Event) (port : π) :
    Engine.deliver event (e, port) = .error (.error (.unexpectedEvent event none)) (e, port) := by
  have hnone : e.pending.map (·.1) ≠ some event := by simp [h.pending]
  rw [deliver_unexpected hnone, h.pending]
  rfl

/-- A call to a halted engine leaves it halted and does not reach the port. -/
theorem Halted.made [Port π] (h : e.Halted) (c : Call) (port : π) :
    ∃ e', c.made (e, port) = (e', port) ∧ e'.Halted := by
  cases c with
  | start job => exact ⟨e, by simp [Call.made, Call.run, h.start], h⟩
  | deliver event =>
    have hrun : Call.run (.deliver event) (e, port) = .error _ (e, port) :=
      run_bind_error (h.deliver event port)
    exact ⟨e, by rw [Call.made, hrun], h⟩
  | clearIrq => exact ⟨e.clearIrq, rfl, h.phase, h.pending, rfl⟩

/-- **A halted engine stays so**, and the port stays as it is. -/
theorem Halted.calls [Port π] (h : e.Halted) (calls : List Call) (port : π) :
    ∃ e', calls.foldl (fun st c => c.made st) (e, port) = (e', port) ∧ e'.Halted := by
  induction calls generalizing e with
  | nil => exact ⟨e, rfl, h⟩
  | cons c calls ih =>
    obtain ⟨e', he', h'⟩ := h.made c port
    rw [List.foldl_cons, he']
    exact ih h'

/-! ## The invariant of a job -/

/-- Where calls can have led an engine and its port since it took a job. -/
inductive Faring (g : Geometry) (p : Plan) (m₀ : Memory) (good : π → Prop) (view : π → Memory) :
    Engine × Recorded π → Prop
  | running {e : Engine} {q : Recorded π} {n d : Nat} (hgood : good q.port) (h : e.OnTrack g p n)
      (hpend : e.pending = some (.mainLoop, d)) (hirq : e.irq = false)
      (hstock : Stocked g p m₀ e (view q.port))
      (hlaid : p.Laid g m₀ (view q.port) (e.station.moved g p .z))
      (hstored : stored q.journal = e.station.moved g p .z) : Faring g p m₀ good view (e, q)
  | halted {e : Engine} {q : Recorded π} (h : e.Halted)
      (hlaid : p.Laid g m₀ (view q.port) (stored q.journal)) : Faring g p m₀ good view (e, q)
  | retired {e : Engine} {q : Recorded π} (hfits : e.Fits g) (hphase : e.phase = .idle)
      (hpend : e.pending = none ∨ e.pending = some (.completion, 0))
      (hlaid : p.Laid g m₀ (view q.port) (stored q.journal)) : Faring g p m₀ good view (e, q)

theorem Taken.faring (h : e.Taken g p) (hgood : good port) :
    Faring g p (view port) good view (e, Recorded.fresh port) :=
  .running hgood h.onTrack h.pending h.irq (h.stocked _) (h.moved .z ▸ p.laid_zero g _)
    (h.moved .z).symm

theorem Faring.laid {q : Recorded π} (h : Faring g p m₀ good view (e, q)) :
    p.Laid g m₀ (view q.port) (stored q.journal) := by
  cases h with
  | running _ _ _ _ _ hlaid hstored => exact hstored ▸ hlaid
  | halted _ hlaid | retired _ _ _ hlaid => exact hlaid

section

variable {q : Recorded π} {n : Nat} (hgood : good q.port) (h : e.OnTrack g p n) (hg : g.Valid)
  (hp : p.Sound g) (hirq : e.irq = false) (hstock : Stocked g p m₀ e (view q.port))
  (hlaid : p.Laid g m₀ (view q.port) (e.station.moved g p .z))
  (hstored : stored q.journal = e.station.moved g p .z)

include hgood h hg hp hirq hstock hlaid hstored

/-- A subcycle without a beat goes on. -/
theorem OnTrack.faring_idle {pay : Payload} (hpay : payload? g p e.tile e.phase = some pay)
    (hbeat : pay.beat? = none) (hlt : e.report.cycles + 1 < Word.limit) :
    Faring g p m₀ good view (e.stepped g p pay 1 [], q) := by
  have hmoved : (e.stepped g p pay 1 []).station.moved g p .z = e.station.moved g p .z := by
    rw [h.moved_stepped hg hp hpay, hbeat]
    rfl
  refine .running hgood (h.next hg hp hpay (fun _ => rfl) [] hlt) rfl ?_
    (hstock.idle h hg hp hpay hbeat) (hmoved ▸ hlaid) (hmoved ▸ hstored)
  rw [irq_stepped, hirq]

/-- A beat that the memory has served goes on, and one of Z is laid over it. -/
theorem OnTrack.faring_served [Port π] (hview : Fronts good view) (hu : p.Undisturbed g)
    {t : Transfer} {reply : Reply} {q' : Recorded π}
    (hpay : payload? g p e.tile e.phase = some (.transfer t))
    (hacc : Port.access (e.request g p t) q = .ok reply q') (hstatus : reply.status = .ok)
    (hlt : e.report.cycles + (reply.latency + 1) < Word.limit) :
    Faring g p m₀ good view
      (e.stepped g p (.transfer t) (reply.latency + 1) reply.data, q') := by
  obtain ⟨port', hacc', rfl⟩ := Recorded.access_ok hacc
  obtain ⟨hgood', hin, hreply, hport⟩ := hview.served hgood hacc' hstatus
  have hbeat := h.isBeat hg hp hpay
  have hserved := hstock.served h hg hp hpay hin hu (reply.latency + 1)
  rw [← hreply, ← hport] at hserved
  refine .running hgood' (h.next hg hp hpay (fun hb => by cases hb) _ hlt) rfl ?_ hserved ?_ ?_
  · rw [irq_stepped, hirq]
  · have hover := hserved.overlaid
    rw [hport] at hover
    show p.Laid g m₀ (view port') _
    rw [hport]
    refine hlaid.serve hover fun b hb hge i hi hcovers => ?_
    -- the only beat of Z that is new is this one
    rw [h.moved_stepped hg hp hpay] at hb
    have hz : t.operand = .z := by
      by_contra hne
      simp [Payload.beat?, hne] at hb
      omega
    have heq : e.station.moved g p .z = b := by
      simp [Payload.beat?, hz] at hb
      omega
    rw [hz, heq] at hbeat
    rw [← hbeat.addr]
    exact hin i ((hbeat.mem_enabled hg hp).mpr ⟨hi, hcovers⟩)
  · have hdir : (e.request g p t).direction = .write ↔ t.operand = .z := by
      rw [hbeat.direction]
      cases t <;> simp [Transfer.operand, Operand.direction]
    rw [stored_note, hstored, h.moved_stepped hg hp hpay]
    simp [Payload.beat?, hdir, hstatus]

end

/-- A beat that did not go well halts the engine. -/
theorem OnTrack.halted_waiting {n : Nat} (h : e.OnTrack g p n) (hirq : e.irq = false)
    (t : Transfer) : ({ e.waiting g p t with pending := none } : Engine).Halted :=
  ⟨h.valid.phase_ne_idle, rfl, hirq⟩

variable [Port π]

/-- **What the delivery of an armed subcycle can do to a job**, if the program goes on. -/
theorem Faring.deliver_running (hview : Fronts good view) (hg : g.Valid) (hp : p.Sound g)
    (hu : p.Undisturbed g) {q q' : Recorded π} {e' : Engine} {n d : Nat} (hgood : good q.port)
    (h : e.OnTrack g p n) (hpend : e.pending = some (.mainLoop, d)) (hirq : e.irq = false)
    (hstock : Stocked g p m₀ e (view q.port))
    (hlaid : p.Laid g m₀ (view q.port) (e.station.moved g p .z))
    (hstored : stored q.journal = e.station.moved g p .z) :
    (∀ r, deliver .mainLoop (e, q) = .ok r (e', q') → Faring g p m₀ good view (e', q')) ∧
      ∀ failure, deliver .mainLoop (e, q) = .error (.error failure) (e', q') →
        e'.Halted ∧ p.Laid g m₀ (view q'.port) (stored q'.journal) := by
  have hw := h.wakes hg hp hpend q
  rw [wake_eq_deliver hpend] at hw
  constructor
  · intro r hd
    rw [hd] at hw
    cases hw with
    | idle hpay hbeat hlt =>
      exact h.faring_idle hgood hg hp hirq hstock hlaid hstored hpay hbeat hlt
    | served hpay hacc hstatus hlt =>
      exact h.faring_served hgood hg hp hirq hstock hlaid hstored hview hu hpay hacc hstatus hlt
    | retired hfin =>
      refine .retired ?_ rfl (.inr rfl) (hstored ▸ hlaid)
      exact h.loaded.fits.retire.congr rfl rfl fun o => by cases o <;> rfl
  · intro failure hd
    rw [hd] at hw
    cases hw with
    | refused hpay hacc hstatus =>
      obtain ⟨port', hacc', rfl⟩ := Recorded.access_ok hacc
      refine ⟨h.halted_waiting hirq _, ?_⟩
      rw [stored_note, hstored]
      simpa [hstatus, Recorded.note, hview.refused hgood hacc' hstatus] using hlaid
    | poisoned hpay hacc =>
      obtain ⟨port', hacc', rfl⟩ := Recorded.access_error hacc
      refine ⟨h.halted_waiting hirq _, ?_⟩
      simpa [hview.failed hgood hacc', hstored] using hlaid

/-- Whether a failure is that of an access to memory. -/
inductive PortFailure : Failure → Prop
  | transaction (o : Operand) (addr : Nat) (status : Status) :
      PortFailure (.transaction o addr status)
  | poisoned : PortFailure .portPoisoned

section

variable (hview : Fronts good view) (hg : g.Valid) (hp : p.Sound g) (hu : p.Undisturbed g)
  {q : Recorded π} (h : Faring g p m₀ good view (e, q))

include h

include hview hg hp hu

theorem Faring.deliver_ok {event : Event} {r : Option JobReport} {st : Engine × Recorded π}
    (hd : deliver event (e, q) = .ok r st) : Faring g p m₀ good view st := by
  have harmed : e.pending.map (·.1) = some event := by
    by_contra hne
    rw [deliver_unexpected hne] at hd
    cases hd
  cases h with
  | running hgood h hpend hirq hstock hlaid hstored =>
    simp only [hpend, Option.map_some, Option.some.injEq] at harmed
    subst harmed
    exact (Faring.deliver_running hview hg hp hu hgood h hpend hirq hstock hlaid hstored).1 r hd
  | halted h => simp [h.pending] at harmed
  | retired hfits hphase hpend hlaid =>
    rcases hpend with hpend | hpend
    · simp [hpend] at harmed
    · simp only [hpend, Option.map_some, Option.some.injEq] at harmed
      subst harmed
      rw [deliver_armed hpend] at hd
      cases hd
      exact .retired (hfits.congr rfl rfl fun o => by cases o <;> rfl) hphase (.inl rfl) hlaid

theorem Faring.deliver_error {event : Event} {failure : Failure} {e' : Engine} {q' : Recorded π}
    (hd : deliver event (e, q) = .error (.error failure) (e', q')) :
    Faring g p m₀ good view (e', q') ∧ (PortFailure failure → e'.Halted) := by
  by_cases harmed : e.pending.map (·.1) = some event
  · cases h with
    | running hgood h hpend hirq hstock hlaid hstored =>
      simp only [hpend, Option.map_some, Option.some.injEq] at harmed
      subst harmed
      obtain ⟨hhalted, hlaid'⟩ :=
        (Faring.deliver_running hview hg hp hu hgood h hpend hirq hstock hlaid hstored).2 _ hd
      exact ⟨.halted hhalted hlaid', fun _ => hhalted⟩
    | halted h => simp [h.pending] at harmed
    | retired hfits hphase hpend hlaid =>
      rcases hpend with hpend | hpend
      · simp [hpend] at harmed
      · simp only [hpend, Option.map_some, Option.some.injEq] at harmed
        subst harmed
        rw [deliver_armed hpend] at hd
        cases hd
  · rw [deliver_unexpected harmed] at hd
    cases hd
    exact ⟨h, fun hport => by cases hport⟩

end

/-! ## Every call after a job has been taken -/

/-- Where calls lead that deliver, fail or clear the interrupt line. None of them
starts another job. -/
inductive Attended (st : Engine × π) : Engine × π → Prop
  | taken : Attended st st
  | delivered {event : Event} {r : Option JobReport} {st₁ st₂ : Engine × π} (h : Attended st st₁)
      (hd : deliver event st₁ = .ok r st₂) : Attended st st₂
  | failed {c : Call} {failure : Failure} {st₁ st₂ : Engine × π} (h : Attended st st₁)
      (hc : c.run st₁ = .error (.error failure) st₂) : Attended st st₂
  | cleared {e : Engine} {port : π} (h : Attended st (e, port)) : Attended st (e.clearIrq, port)

omit [Port π] in
/-- A start that fails changes nothing. -/
theorem Faring.start_error (hg : g.Valid) {q : Recorded π} (h : Faring g p m₀ good view (e, q))
    {job : JobImage} {failure : Failure} {st : Engine × Recorded π}
    (hs : start job (e, q) = .error (.error failure) st) : st = (e, q) := by
  cases hbusy : e.busy with
  | true =>
    rw [start_busy hbusy] at hs
    cases hs
    rfl
  | false =>
    obtain ⟨hphase, hpend⟩ := busy_eq_false_iff.mp hbusy
    cases h with
    | running _ h => exact absurd hphase h.valid.phase_ne_idle
    | halted h => exact absurd hphase h.phase
    | retired hfits =>
      cases hv : job.validate g with
      | ok p =>
        obtain ⟨s, -, hstart⟩ := start_accepted hfits hbusy hg hv
        rw [hstart] at hs
        cases hs
      | error stop =>
        cases stop with
        | trap t =>
          rw [start_trapped hfits hbusy hg hv] at hs
          cases hs
        | error flaw =>
          rw [start_refused hfits hbusy hg hv] at hs
          cases hs
          rfl

omit [Port π] in
theorem Faring.clearIrq {q : Recorded π} (h : Faring g p m₀ good view (e, q)) :
    Faring g p m₀ good view (e.clearIrq, q) := by
  cases h with
  | running hgood h hpend _ hstock hlaid hstored =>
    exact .running hgood h.clearIrq hpend rfl ⟨hstock.overlaid, hstock.resident⟩ hlaid hstored
  | halted h hlaid => exact .halted ⟨h.phase, h.pending, rfl⟩ hlaid
  | retired hfits hphase hpend hlaid =>
    exact .retired (hfits.congr rfl rfl fun o => by cases o <;> rfl) hphase hpend hlaid

section

variable (hview : Fronts good view) (hg : g.Valid) (hp : p.Sound g) (hu : p.Undisturbed g)

include hview hg hp hu

/-- **The invariant holds wherever calls lead.** -/
theorem Attended.faring {st st' : Engine × Recorded π} (h : Attended st st')
    (hst : Faring g p m₀ good view st) : Faring g p m₀ good view st' := by
  induction h with
  | taken => exact hst
  | delivered _ hd ih => exact ih.deliver_ok hview hg hp hu hd
  | @failed c failure st₁ st₂ _ hc ih =>
    cases c with
    | start job =>
      rw [ih.start_error hg hc]
      exact ih
    | deliver event =>
      cases hd : Engine.deliver event st₁ with
      | ok r st =>
        have hrun : Call.run (.deliver event) st₁ = .ok () st := run_bind_ok hd
        rw [hrun] at hc
        cases hc
      | error stop st =>
        have hrun : Call.run (.deliver event) st₁ = .error stop st := run_bind_error hd
        rw [hrun] at hc
        cases hc
        exact (ih.deliver_error hview hg hp hu hd).1
    | clearIrq => cases hc
  | cleared _ ih => exact ih.clearIrq

end

/-- A run that a delivery stops has got to a state that calls lead to. -/
theorem Attended.exists_stopped {st₀ st st' : Engine × π} {stop : Stop Failure} {fuel : Nat}
    (h : Attended st₀ st) (hdrain : drain fuel st = .error stop st') :
    ∃ event st₁, Attended st₀ st₁ ∧ deliver event st₁ = .error stop st' := by
  induction fuel generalizing st with
  | zero => cases hdrain
  | succ fuel ih =>
    obtain ⟨e, port⟩ := st
    cases hwake : wake (e, port) with
    | error stop₁ st₁ =>
      rw [drain_succ_error hwake] at hdrain
      cases hdrain
      cases hpend : e.pending with
      | none =>
        simp only [wake, run_get_bind, hpend] at hwake
        cases hwake
      | some armed =>
        obtain ⟨event, d⟩ := armed
        rw [wake_eq_deliver hpend] at hwake
        cases hd : deliver event (e, port) with
        | ok r st =>
          rw [hd] at hwake
          cases hwake
        | error stop st =>
          rw [hd] at hwake
          cases hwake
          exact ⟨event, _, h, hd⟩
    | ok r st₁ =>
      rcases r with - | ⟨d, - | report⟩
      · rw [drain, run_bind_ok hwake] at hdrain
        cases hdrain
      · -- the delivery is one of the calls, and the run goes on from there
        obtain ⟨event, -, hd⟩ := deliver_of_wake hwake
        rw [drain_succ_ok hwake] at hdrain
        cases hrest : drain fuel st₁ with
        | ok r st₂ =>
          rw [hrest] at hdrain
          cases hdrain
        | error stop₂ st₂ =>
          rw [hrest] at hdrain
          cases hdrain
          exact ih (.delivered h hd) hrest
      · rw [drain_succ_reported hwake] at hdrain
        cases hdrain

/-- What is left of an engine that a failure of its port has halted, and of that
port: it is busy, with its interrupt line low, and refuses whatever it is asked. -/
structure Inert (q : Recorded π) (st : Engine × Recorded π) : Prop where
  port : st.2 = q
  busy : st.1.busy = true
  irq : st.1.irq = false
  start : ∀ job, start job st = .error (.error .busy) st
  deliver : ∀ event, deliver event st = .error (.error (.unexpectedEvent event none)) st

theorem Halted.inert (h : e.Halted) (calls : List Call) (q : Recorded π) :
    Inert q (calls.foldl (fun st c => c.made st) (e, q)) := by
  obtain ⟨e', he', h'⟩ := h.calls calls q
  rw [he']
  exact ⟨rfl, h'.busy, h'.irq, fun job => h'.start job q, fun event => h'.deliver event q⟩

/-- **Partial and faulted runs are safe.** A job that has been taken leaves in memory,
wherever calls have led since and whatever beats the port has refused, the product in
the cells of the beats of Z that were written and every other byte as it was. Once a
beat has failed, no call moves the engine or reaches the port any more. -/
theorem start_partlyComputes {ρ : Type} [Port ρ] (hg : g.validate = .ok ()) (he : Reachable ρ g e)
    (hidle : e.busy = false) {job : JobImage} (hv : job.validate g = .ok p)
    (hapart : ∀ o, o ≠ .z → p.Apart g o) (hview : Fronts good view) (hport : good port) :
    ∃ e', start job (e, Recorded.fresh port) = .ok () (e', Recorded.fresh port) ∧
      ∀ e₁ q₁, Attended (e', Recorded.fresh port) (e₁, q₁) →
        p.PartlyComputes g (view port) (view q₁.port) (stored q₁.journal) ∧
        ∀ event failure e₂ q₂, deliver event (e₁, q₁) = .error (.error failure) (e₂, q₂) →
          PortFailure failure →
          ∀ calls : List Call, Inert q₂ (calls.foldl (fun st c => c.made st) (e₂, q₂)) := by
  have hvalid := Geometry.validate_eq_ok_iff.mp hg
  have hp := (JobImage.accepted_of_validate hv).sound hvalid
  have hu := Plan.undisturbed_of_apart hapart
  obtain ⟨e', htaken, hstart⟩ := he.taken (π := Recorded π) hvalid hidle hv
  refine ⟨e', hstart _, fun e₁ q₁ hattended => ?_⟩
  have hfaring := hattended.faring hview hvalid hp hu (htaken.faring hport)
  refine ⟨hfaring.laid.partlyComputes hp, fun event failure e₂ q₂ hd hfailure calls => ?_⟩
  have hhalted := (hfaring.deliver_error hview hvalid hp hu hd).2 hfailure
  exact hhalted.inert calls q₂

/-- Gates that refuse what they do not pass on. -/
def Refuses (gate : GatedMemory) : Prop := ∀ n, gate.verdict n ≠ some .ok

theorem fronts_gated : Fronts Refuses GatedMemory.memory := by
  intro r gate hgate
  have hport : Port.access r gate = GatedMemory.access r gate := rfl
  have hmemory : Port.access r gate.memory = Memory.access r gate.memory := rfl
  rw [hport, hmemory, GatedMemory.access]
  cases hpoisoned : gate.poisoned with
  | true => exact ⟨hgate, .inr ⟨rfl, rfl⟩⟩
  | false =>
    cases hverdict : gate.verdict gate.seen with
    | some status =>
      refine ⟨hgate, .inr ⟨fun hok => hgate gate.seen ?_, rfl⟩⟩
      rw [hverdict]
      exact congrArg some hok
    | none =>
      cases hacc : Memory.access r gate.memory with
      | ok reply m => exact ⟨hgate, .inl rfl⟩
      | error fault m => exact ⟨hgate, .inl rfl⟩

/-- How the run of a job on a new engine fails, and how many beats it has stored by then. -/
def failing (g : Geometry) (job : JobImage) (port : π) (fuel : Nat) :
    Option (Failure × Nat) :=
  match create g with
  | .error _ => none
  | .ok e =>
    match start job (e, Recorded.fresh port) with
    | .error .. => none
    | .ok _ st =>
      match drain fuel st with
      | .error (.error failure) (_, q) => some (failure, stored q.journal)
      | _ => none

/-- A gate that denies a beat of Z in the second row of tiles, when nine have been stored. The
first cell of Z is that of the product by then, and from the denied beat on memory is what it
was. -/
theorem start_partlyComputes_denied :
    let gate : GatedMemory :=
      ⟨Memory.filled 3, 0, fun n => if n = 72 then some .denied else none, false⟩
    ∃ e e' event e₁ q₁ e₂ q₂, create .narrow = .ok e ∧
      start (.ragged 0x200 0x300) (e, Recorded.fresh gate) = .ok () (e', Recorded.fresh gate) ∧
      Attended (e', Recorded.fresh gate) (e₁, q₁) ∧
      deliver event (e₁, q₁) = .error (.error (.transaction .z 0x346 .denied)) (e₂, q₂) ∧
      (Plan.ragged 0x200 0x300).PartlyComputes .narrow gate.memory q₂.port.memory 9 ∧
      q₂.port.memory.readBytes? 0x300 2 = some [0x5C, 0x4B] ∧
      (∀ a, 0x346 ≤ a → q₂.port.memory.byte a = gate.memory.byte a) ∧
      ∀ calls : List Call, Inert q₂ (calls.foldl (fun st c => c.made st) (e₂, q₂)) := by
  intro gate
  have hvalid := Geometry.validate_eq_ok_iff.mp Geometry.validate_narrow
  have hv : (JobImage.ragged 0x200 0x300).validate .narrow = .ok (.ragged 0x200 0x300) := rfl
  have hrefuses : Refuses gate := by
    intro n
    show (if n = 72 then some Status.denied else none) ≠ some .ok
    split <;> decide
  obtain ⟨e, he, -, hidle⟩ := create_fits hvalid
  obtain ⟨e', hstart, hsafe⟩ := start_partlyComputes Geometry.validate_narrow
    (Reachable.created (π := GatedMemory) he) hidle hv
    (fun _ ho => Plan.apart_ragged_of_ne ho) fronts_gated hrefuses
  -- the run of the job, evaluated up to the denied beat
  have hfailing : failing .narrow (.ragged 0x200 0x300) gate 300 =
      some (.transaction .z 0x346 .denied, 9) := by decide +kernel
  simp only [failing, he, hstart] at hfailing
  split at hfailing
  · next e₂ q₂ hdrain =>
    injection hfailing with hpair
    injection hpair with hfailure hstored
    subst hfailure
    obtain ⟨event, ⟨e₁, q₁⟩, hattended, hd⟩ := Attended.taken.exists_stopped hdrain
    obtain ⟨hpartly, -⟩ := hsafe e₂ q₂ (.failed (c := .deliver event) hattended (run_bind_error hd))
    have hinert := (hsafe e₁ q₁ hattended).2 _ _ _ _ hd (.transaction ..)
    rw [hstored] at hpartly
    have hcell : Geometry.narrow.format.encode
        ((Plan.ragged 0x200 0x300).gemm .narrow (Memory.filled 3) 0 0) = [0x5C, 0x4B] := by
      decide +kernel
    have hfirst := hpartly.cells 0 0 (by decide) (by decide) (by decide)
    rw [hcell] at hfirst
    have hbelow : ∀ r < 7, ∀ c < 6, ∀ i < 2, (Plan.ragged 0x200 0x300).beatAt 4 .z r c < 9 →
        (Plan.ragged 0x200 0x300).rowAddr .z r (c * 2 + i) < 0x346 := by decide
    refine ⟨e, e', event, e₁, q₁, e₂, q₂, he, hstart, hattended, hd, hpartly, hfirst, ?_, hinert⟩
    intro a ha
    refine hpartly.others a fun r c i hr hc hi hbeat heq => ?_
    have hlt : (Plan.ragged 0x200 0x300).rowAddr .z r (c * 2 + i) < 0x346 :=
      hbelow r hr c hc i hi hbeat
    exact Nat.not_lt.mpr ha (heq ▸ hlt)
  · cases hfailing

end Engine

end SystolicGemm
