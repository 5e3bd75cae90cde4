import SystolicGemm.Proofs.Engine.Step

/-!
# What an engine can have been through

Whoever drives an engine can start jobs, deliver events and clear the interrupt
line, in any order and on a port that behaves as it likes. `Standing` says what
is left of such a history: an engine is idle, in the middle of a job, about to
complete one, or stuck in a job that failed. An idle engine accepts every job
that fits its array.
-/

namespace SystolicGemm

namespace TileStore

theorem create_fits {g : Geometry} (hg : g.Valid) :
    ∃ s, create g = .ok s ∧ s.Fits g := by
  have hw : g.width ≤ 64 := hg.width_le
  have hb : g.beatBytes ≤ 64 := hg.beatBytes_le
  have hrows : Word.mul 2 g.width = .ok (2 * g.width) :=
    Word.mul_of_lt (Nat.lt_of_le_of_lt (Nat.mul_le_mul_left 2 hw) (by decide))
  have hy : 2 * g.width * g.beatBytes < Word.halfLimit :=
    Nat.lt_of_le_of_lt (Nat.mul_le_mul (Nat.mul_le_mul_left 2 hw) hb) (by decide)
  have hz : g.width * g.beatBytes < Word.halfLimit :=
    Nat.lt_of_le_of_lt (Nat.mul_le_mul hw hb) (by decide)
  have hhalf : Word.halfLimit < Word.limit := by decide
  unfold create
  simp only [hg.checkedWidth, hg.checkedBeatBytes, ok_bind, hrows,
    Word.mul_of_lt (Nat.lt_trans hy hhalf), Word.capacity_of_lt hy,
    Word.mul_of_lt (Nat.lt_trans hz hhalf), Word.capacity_of_lt hz]
  exact ⟨_, rfl, rfl, rfl, rfl, rfl, rfl⟩

theorem Fits.free {s : TileStore} {g : Geometry} (h : s.Fits g) : s.free.Fits g := by
  unfold TileStore.free
  split
  · exact ⟨h.geometry, h.ySize, h.zSize, h.yCapacity, h.zCapacity⟩
  · exact h

end TileStore

namespace Engine

variable {π : Type}

/-- The part of an engine that no job changes. -/
structure Fits (e : Engine) (g : Geometry) : Prop where
  geometry : e.geometry = g
  store : e.store.Fits g
  operand : ∀ o, (e.stream o).operand = o
  direction : ∀ o, (e.stream o).direction = o.direction
  beatBytes : ∀ o, (e.stream o).beatBytes = g.beatBytes

theorem Loaded.fits {e : Engine} {g : Geometry} {p : Plan} {s : Station} (h : e.Loaded g p s) :
    e.Fits g := ⟨h.geometry, h.store.fits, h.operand, h.direction, h.beatBytes⟩

/-- Armed event and interrupt line are no part of that. -/
theorem Fits.congr {e e' : Engine} {g : Geometry} (h : e.Fits g) (hgeo : e'.geometry = e.geometry)
    (hstore : e'.store = e.store) (hstream : ∀ o, e'.stream o = e.stream o) : e'.Fits g where
  geometry := hgeo.trans h.geometry
  store := hstore ▸ h.store
  operand o := hstream o ▸ h.operand o
  direction o := hstream o ▸ h.direction o
  beatBytes o := hstream o ▸ h.beatBytes o

theorem create_fits {g : Geometry} (hg : g.Valid) :
    ∃ e, create g = .ok e ∧ e.Fits g ∧ e.busy = false := by
  obtain ⟨s, hs, hfits⟩ := TileStore.create_fits hg
  unfold create
  rw [hg.checkedBeatBytes, ok_bind, hs]
  refine ⟨_, rfl, ⟨rfl, hfits, ?_, ?_, ?_⟩, rfl⟩ <;> intro o <;> cases o <;> rfl

/-! ## Starting -/

theorem busy_eq_false_iff {e : Engine} : e.busy = false ↔ e.phase = .idle ∧ e.pending = none := by
  simp [busy]

theorem start_busy {e : Engine} (h : e.busy = true) (job : JobImage) (port : π) :
    start job (e, port) = .error (.error .busy) (e, port) := by
  simp only [start, run_get_bind, h, if_true]
  rfl

/-- The engine at the start of a job, with a store allocated for it. -/
def begun (e : Engine) (p : Plan) (s : TileStore) : Engine :=
  { e with
    phase := .starting 0
    plan := some p
    store := s
    x := e.x.configure p.x
    w := e.w.configure p.w
    y := e.y.configure p.y
    z := e.z.configure p.z
    tile := ⟨0, 0⟩
    irq := false
    report := .none
    pending := some (.mainLoop, 0) }

theorem stream_begun (e : Engine) (p : Plan) (s : TileStore) (o : Operand) :
    (e.begun p s).stream o = (e.stream o).configure (p.pattern o) := by cases o <;> rfl

theorem onTrack_begun {e : Engine} {g : Geometry} {p : Plan} {s : TileStore} (h : e.Fits g)
    (hp : p.Sound g) (hs : s.At g p.n p.colTiles .none) : (e.begun p s).OnTrack g p 0 where
  valid := Station.valid_start hp
  loaded := {
    geometry := h.geometry
    plan := rfl
    store := by
      show s.At g p.n p.colTiles (Station.tally g p ⟨.starting 0, ⟨0, 0⟩⟩)
      rw [Station.tally_start]
      exact hs
    operand := fun o => by rw [stream_begun]; exact h.operand o
    direction := fun o => by rw [stream_begun]; exact h.direction o
    beatBytes := fun o => by rw [stream_begun]; exact h.beatBytes o
    moved := fun o => by
      show ((e.begun p s).stream o).Moved _ (Station.moved g p ⟨.starting 0, ⟨0, 0⟩⟩ o)
      rw [stream_begun, Station.moved_start]
      exact Stream.moved_configure _ _
    bytes := fun o => by
      show ((e.begun p s).stream o).stats.bytes =
        p.strobed g o (Station.moved g p ⟨.starting 0, ⟨0, 0⟩⟩ o)
      rw [stream_begun, Station.moved_start]
      rfl }
  counted := ⟨rfl, rfl, rfl⟩
  cycles := rfl
  elapsed := rfl
  actions := rfl
  cycles_lt := Nat.zero_lt_of_lt (show 1 < Word.limit by decide)

/-- **An idle engine accepts every job that fits its array.** -/
theorem start_accepted {e : Engine} {g : Geometry} (h : e.Fits g) (hidle : e.busy = false)
    (hg : g.Valid) {job : JobImage} {p : Plan} (hv : job.validate g = .ok p) :
    ∃ s, s.At g p.n p.colTiles .none ∧
      ∀ port : π, start job (e, port) = .ok () (e.begun p s, port) := by
  have hp := (JobImage.accepted_of_validate hv).sound hg
  obtain ⟨s, halloc, hs⟩ := TileStore.exists_alloc h.store hp hg
  refine ⟨s, hs, fun port => ?_⟩
  obtain rfl := h.geometry
  obtain ⟨-, hpend⟩ := busy_eq_false_iff.mp hidle
  have hgeo := Geometry.validate_eq_ok_iff.mpr hg
  have hbegin : e.begin p = .ok { e.begun p s with pending := none } := by
    simp only [begin, halloc, ok_bind, begun, ← hpend]
    rfl
  simp only [start, run_get_bind, hidle, hgeo, hv, Failure.liftGeometry, Failure.liftJob,
    Bool.false_eq_true, if_false]
  show ((liftM (e.begin p) : Run Failure (Engine × π) Engine) >>= _) (e, port) = _
  rw [hbegin]
  rfl

/-- A job that does not fit the array leaves an idle engine as it was. -/
theorem start_refused {e : Engine} {g : Geometry} (h : e.Fits g) (hidle : e.busy = false)
    (hg : g.Valid) {job : JobImage} {flaw : JobFlaw} (hv : job.validate g = .error (.error flaw))
    (port : π) : start job (e, port) = .error (.error (.job flaw)) (e, port) := by
  obtain rfl := h.geometry
  have hgeo := Geometry.validate_eq_ok_iff.mpr hg
  simp only [start, run_get_bind, hidle, hgeo, hv, Failure.liftGeometry, Failure.liftJob,
    Bool.false_eq_true, if_false]
  rfl

theorem start_trapped {e : Engine} {g : Geometry} (h : e.Fits g) (hidle : e.busy = false)
    (hg : g.Valid) {job : JobImage} {t : Trap} (hv : job.validate g = .error (.trap t))
    (port : π) : start job (e, port) = .error (.trap t) (e, port) := by
  obtain rfl := h.geometry
  have hgeo := Geometry.validate_eq_ok_iff.mpr hg
  simp only [start, run_get_bind, hidle, hgeo, hv, Failure.liftGeometry, Failure.liftJob,
    Bool.false_eq_true, if_false]
  rfl

/-! ## Histories -/

/-- A call to an engine. -/
inductive Call where
  | start (job : JobImage)
  | deliver (event : Event)
  | clearIrq
  deriving DecidableEq, Repr

/-- Makes a call. -/
def Call.run [Port π] : Call → Run Failure (Engine × π) Unit
  | .start job => Engine.start job
  | .deliver event => do let _ ← Engine.deliver event
  | .clearIrq => modify fun (e, port) => (e.clearIrq, port)

/-- A call that returns or fails leads from one engine to another. One that traps
leads nowhere. -/
def Call.Leads (π : Type) [Port π] (c : Call) (e e' : Engine) : Prop :=
  ∃ port port' : π, c.run (e, port) = .ok () (e', port') ∨
    ∃ failure, c.run (e, port) = .error (.error failure) (e', port')

/-- The engines that calls can lead to, whatever the port holds before each of
them. -/
inductive Reachable (π : Type) [Port π] (g : Geometry) : Engine → Prop
  | created {e : Engine} (h : create g = .ok e) : Reachable π g e
  | called {e e' : Engine} {c : Call} (h : Reachable π g e) (hc : c.Leads π e e') :
      Reachable π g e'

/-- What a history leaves behind. -/
inductive Standing (g : Geometry) : Engine → Prop
  | idle {e : Engine} (hfits : e.Fits g) (hphase : e.phase = .idle) (hpend : e.pending = none) :
      Standing g e
  | running {e : Engine} {p : Plan} {waited d : Nat} (hp : p.Sound g) (h : e.OnTrack g p waited)
      (hpend : e.pending = some (.mainLoop, d)) (hd : d < Word.limit) (hirq : e.irq = false) :
      Standing g e
  | completing {e : Engine} (hfits : e.Fits g) (hphase : e.phase = .idle)
      (hpend : e.pending = some (.completion, 0)) : Standing g e
  | stuck {e : Engine} (hphase : e.phase ≠ .idle) (hpend : e.pending = none) : Standing g e

theorem standing_begun {e : Engine} {g : Geometry} {p : Plan} {s : TileStore} (h : e.Fits g)
    (hp : p.Sound g) (hs : s.At g p.n p.colTiles .none) : Standing g (e.begun p s) :=
  .running hp (onTrack_begun h hp hs) rfl (by decide) rfl

theorem deliver_unexpected [Port π] {e : Engine} {event : Event}
    (h : e.pending.map (·.1) ≠ some event) (port : π) :
    deliver event (e, port) =
      .error (.error (.unexpectedEvent event (e.pending.map (·.1)))) (e, port) := by
  simp only [deliver, run_get_bind, ne_eq, h, not_false_eq_true, if_true]
  rfl

theorem OnTrack.clearIrq {e : Engine} {g : Geometry} {p : Plan} {waited : Nat}
    (h : e.OnTrack g p waited) : e.clearIrq.OnTrack g p waited := by
  have hstream : ∀ o, e.clearIrq.stream o = e.stream o := fun o => by cases o <;> rfl
  have hloaded : e.clearIrq.Loaded g p e.station := {
    geometry := h.loaded.geometry
    plan := h.loaded.plan
    store := h.loaded.store
    operand := fun o => hstream o ▸ h.loaded.operand o
    direction := fun o => hstream o ▸ h.loaded.direction o
    beatBytes := fun o => hstream o ▸ h.loaded.beatBytes o
    moved := fun o => hstream o ▸ h.loaded.moved o
    bytes := fun o => hstream o ▸ h.loaded.bytes o }
  exact ⟨h.valid, hloaded, h.counted, h.cycles, h.elapsed, h.actions, h.cycles_lt⟩

theorem Fits.retire {e : Engine} {g : Geometry} (h : e.Fits g) : e.retire.Fits g := by
  have hstream : ∀ o, e.retire.stream o = e.stream o := fun o => by cases o <;> rfl
  exact ⟨h.geometry, h.store.free, fun o => hstream o ▸ h.operand o,
    fun o => hstream o ▸ h.direction o, fun o => hstream o ▸ h.beatBytes o⟩

/-- The job goes on after a subcycle. -/
theorem OnTrack.standing_stepped {e : Engine} {g : Geometry} {p : Plan} {waited : Nat}
    (h : e.OnTrack g p waited) (hg : g.Valid) (hp : p.Sound g) (hirq : e.irq = false)
    {pay : Payload} (hpay : payload? g p e.tile e.phase = some pay) {latency : Nat} {data : Bytes}
    (hidle : pay.beat? = none → latency = 0)
    (hlt : e.report.cycles + (latency + 1) < Word.limit) :
    Standing g (e.stepped g p pay (latency + 1) data) :=
  .running hp (h.next hg hp hpay hidle data hlt) rfl (by omega) ((irq_stepped ..).trans hirq)

/-- Delivering the subcycle of a job leaves an engine standing. -/
theorem OnTrack.standing_of_deliver [Port π] {e e' : Engine} {g : Geometry} {p : Plan}
    {waited d : Nat} (h : e.OnTrack g p waited) (hg : g.Valid) (hp : p.Sound g)
    (hirq : e.irq = false) (hpend : e.pending = some (.mainLoop, d)) {port port' : π}
    (hd : (∃ r, deliver .mainLoop (e, port) = .ok r (e', port')) ∨
      ∃ failure, deliver .mainLoop (e, port) = .error (.error failure) (e', port')) :
    Standing g e' := by
  have hw := h.wakes hg hp hpend port
  rw [wake_eq_deliver hpend] at hw
  obtain ⟨r, hd⟩ | ⟨failure, hd⟩ := hd <;> rw [hd] at hw
  · cases hw with
    | idle hpay hbeat hlt => exact h.standing_stepped hg hp hirq hpay (fun _ => rfl) hlt
    | served hpay hacc hstatus hlt =>
      exact h.standing_stepped hg hp hirq hpay (fun hbeat => by cases hbeat) hlt
    | retired hfin =>
      have hfits := h.loaded.fits.retire
      exact .completing (hfits.congr rfl rfl fun o => by cases o <;> rfl) rfl rfl
  · have hphase := h.valid.phase_ne_idle
    cases hw with
    | refused => exact .stuck hphase rfl
    | poisoned => exact .stuck hphase rfl

/-- An event that is not armed changes nothing. -/
theorem eq_of_unexpected [Port π] {e e' : Engine} {event : Event}
    (h : e.pending.map (·.1) ≠ some event) {port port' : π}
    (hd : (∃ r, deliver event (e, port) = .ok r (e', port')) ∨
      ∃ failure, deliver event (e, port) = .error (.error failure) (e', port')) : e' = e := by
  rw [deliver_unexpected h] at hd
  obtain ⟨r, hd⟩ | ⟨failure, hd⟩ := hd <;> cases hd
  rfl

theorem Standing.deliver [Port π] {e e' : Engine} {g : Geometry} (h : Standing g e) (hg : g.Valid)
    {event : Event} {port port' : π}
    (hd : (∃ r, deliver event (e, port) = .ok r (e', port')) ∨
      ∃ failure, deliver event (e, port) = .error (.error failure) (e', port')) :
    Standing g e' := by
  by_cases hev : e.pending.map (·.1) = some event
  · cases h with
    | running hp h hpend _ hirq =>
      rw [hpend] at hev
      cases hev
      exact h.standing_of_deliver hg hp hirq hpend hd
    | completing hfits hphase hpend =>
      rw [hpend] at hev
      cases hev
      have hw := wake_completion hpend port
      rw [wake_eq_deliver hpend] at hw
      obtain ⟨r, hd⟩ | ⟨failure, hd⟩ := hd <;> rw [hd] at hw <;> cases hw
      exact .idle (hfits.congr rfl rfl fun o => stream_disarmed _ o) hphase rfl
    | idle _ _ hpend | stuck _ hpend =>
      rw [hpend] at hev
      cases hev
  · rw [eq_of_unexpected hev hd]
    exact h

theorem Standing.start [Port π] {e e' : Engine} {g : Geometry} (h : Standing g e) (hg : g.Valid)
    {job : JobImage} {port port' : π}
    (hs : Engine.start job (e, port) = .ok () (e', port') ∨
      ∃ failure, Engine.start job (e, port) = .error (.error failure) (e', port')) :
    Standing g e' := by
  cases hbusy : e.busy with
  | true =>
    rw [start_busy hbusy] at hs
    obtain hs | ⟨failure, hs⟩ := hs <;> cases hs
    exact h
  | false =>
    obtain ⟨hphase, hpend⟩ := busy_eq_false_iff.mp hbusy
    cases h with
    | idle hfits =>
      cases hv : job.validate g with
      | ok p =>
        obtain ⟨s, hat, hstart⟩ := start_accepted hfits hbusy hg hv
        have hp := (JobImage.accepted_of_validate hv).sound hg
        rw [hstart] at hs
        obtain hs | ⟨failure, hs⟩ := hs <;> cases hs
        exact standing_begun hfits hp hat
      | error stop =>
        cases stop with
        | trap t =>
          rw [start_trapped hfits hbusy hg hv] at hs
          obtain hs | ⟨failure, hs⟩ := hs <;> cases hs
        | error flaw =>
          rw [start_refused hfits hbusy hg hv] at hs
          obtain hs | ⟨failure, hs⟩ := hs <;> cases hs
          exact .idle hfits hphase hpend
    | running _ _ hpend' _ _ | completing _ _ hpend' =>
      rw [hpend] at hpend'
      cases hpend'
    | stuck hphase' => exact absurd hphase hphase'

theorem Standing.clearIrq {e : Engine} {g : Geometry} (h : Standing g e) :
    Standing g e.clearIrq := by
  cases h with
  | idle hfits hphase hpend =>
    exact .idle (hfits.congr rfl rfl fun o => by cases o <;> rfl) hphase hpend
  | running hp h hpend hd _ => exact .running hp h.clearIrq hpend hd rfl
  | completing hfits hphase hpend =>
    exact .completing (hfits.congr rfl rfl fun o => by cases o <;> rfl) hphase hpend
  | stuck hphase hpend => exact .stuck hphase hpend

/-- **Every call leaves an engine standing.** -/
theorem Standing.call [Port π] {e e' : Engine} {g : Geometry} (h : Standing g e) (hg : g.Valid)
    {c : Call} (hc : c.Leads π e e') : Standing g e' := by
  obtain ⟨port, port', hc⟩ := hc
  cases c with
  | start job => exact h.start hg hc
  | deliver event =>
    suffices hd : (∃ r, Engine.deliver event (e, port) = .ok r (e', port')) ∨
        ∃ failure, Engine.deliver event (e, port) = .error (.error failure) (e', port') from
      h.deliver hg hd
    cases hd : Engine.deliver event (e, port) with
    | ok r st =>
      have hrun : Call.run (.deliver event) (e, port) = .ok () st := run_bind_ok hd
      rw [hrun] at hc
      obtain hc | ⟨failure, hc⟩ := hc <;> cases hc
      exact .inl ⟨r, rfl⟩
    | error stop st =>
      have hrun : Call.run (.deliver event) (e, port) = .error stop st := run_bind_error hd
      rw [hrun] at hc
      obtain hc | ⟨failure, hc⟩ := hc <;> cases hc
      exact .inr ⟨failure, rfl⟩
  | clearIrq =>
    obtain hc | ⟨failure, hc⟩ := hc <;> cases hc
    exact h.clearIrq

theorem Reachable.standing [Port π] {e : Engine} {g : Geometry} (h : Reachable π g e)
    (hg : g.Valid) : Standing g e := by
  induction h with
  | created h =>
    obtain ⟨e', he', hfits, hidle⟩ := create_fits hg
    rw [h] at he'
    cases he'
    obtain ⟨hphase, hpend⟩ := busy_eq_false_iff.mp hidle
    exact .idle hfits hphase hpend
  | called _ hc ih => exact ih.call hg hc

/-- An engine that no job occupies is ready for one. -/
theorem Standing.fits {e : Engine} {g : Geometry} (h : Standing g e) (hidle : e.busy = false) :
    e.Fits g := by
  obtain ⟨hphase, hpend⟩ := busy_eq_false_iff.mp hidle
  cases h with
  | idle hfits => exact hfits
  | running _ _ hpend' _ _ | completing _ _ hpend' => simp [hpend] at hpend'
  | stuck hphase' => exact absurd hphase hphase'

/-- So it is whatever it has been through. -/
theorem Reachable.fits [Port π] {e : Engine} {g : Geometry} (he : Reachable π g e) (hg : g.Valid)
    (hidle : e.busy = false) : e.Fits g := (he.standing hg).fits hidle

/-- An armed event of an engine that stands has a delay that fits a word. -/
theorem Standing.delay_lt {e : Engine} {g : Geometry} (h : Standing g e) {event : Event} {d : Nat}
    (hpend : e.pending = some (event, d)) : d < Word.limit := by
  cases h with
  | running _ _ hpend' hd _ =>
    rw [hpend] at hpend'
    cases hpend'
    exact hd
  | completing _ _ hpend' =>
    rw [hpend] at hpend'
    cases hpend'
    decide
  | idle _ _ hpend' | stuck _ hpend' => simp [hpend] at hpend'

/-- A job goes on until its completion has been armed, which finds the interrupt
line high. -/
theorem Standing.goesOn [Port π] {e e' : Engine} {g : Geometry} (h : Standing g e) (hg : g.Valid)
    {event : Event} {d : Nat} (hpend : e.pending = some (event, d)) {port port' : π}
    (hd : Engine.deliver event (e, port) = .ok none (e', port')) :
    (∃ event' d', e'.pending = some (event', d')) ∧
      (e'.pending = some (.completion, 0) → e'.irq = true) := by
  have hw := wake_eq_deliver hpend port
  rw [hd] at hw
  cases h with
  | running hp h hpend' _ _ =>
    rw [hpend] at hpend'
    cases hpend'
    have hwakes := h.wakes hg hp hpend port
    rw [hw] at hwakes
    cases hwakes with
    | idle | served => exact ⟨⟨_, _, rfl⟩, fun hc => by cases hc⟩
    | retired => exact ⟨⟨_, _, rfl⟩, fun _ => rfl⟩
  | completing _ _ hpend' =>
    rw [hpend] at hpend'
    cases hpend'
    rw [wake_completion hpend] at hw
    cases hw
  | idle _ _ hpend' | stuck _ hpend' => simp [hpend] at hpend'

/-- Only the completion yields a report, and it leaves the engine idle. -/
theorem Standing.reported [Port π] {e e' : Engine} {g : Geometry} (h : Standing g e) (hg : g.Valid)
    {event : Event} {d : Nat} (hpend : e.pending = some (event, d)) {port port' : π}
    {report : JobReport} (hd : Engine.deliver event (e, port) = .ok (some report) (e', port')) :
    e.pending = some (.completion, 0) ∧ report = e.report ∧ e' = { e with pending := none } ∧
      e'.busy = false ∧ port' = port := by
  have hw := wake_eq_deliver hpend port
  rw [hd] at hw
  cases h with
  | running hp h hpend' _ _ =>
    rw [hpend] at hpend'
    cases hpend'
    have hwakes := h.wakes hg hp hpend port
    rw [hw] at hwakes
    cases hwakes
  | completing _ hphase hpend' =>
    rw [wake_completion hpend'] at hw
    rw [hpend] at hpend'
    cases hpend'
    cases hw
    exact ⟨hpend, rfl, rfl, busy_eq_false_iff.mpr ⟨hphase, rfl⟩, rfl⟩
  | idle _ _ hpend' | stuck _ hpend' => simp [hpend] at hpend'

end Engine

end SystolicGemm
