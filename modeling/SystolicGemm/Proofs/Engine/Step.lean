import SystolicGemm.Proofs.Engine.Payload

/-!
# What one step of a run does

`OnTrack` is the invariant of a job: the control machine is at a station of its
schedule, and streams, store and report are where the station says. `Wakes`
lists everything that delivering the armed event can do then. Nothing in it is a
trap of the engine's own, except that a clock which leaves its word stops the
program.

The proof goes from the inside out: a payload moves streams and store from the
station to its tick, the phase carries the counters on, and the main loop counts
what it cost.
-/

namespace SystolicGemm

namespace Engine

variable {π : Type}

/-! ## The parts of a step -/

theorem countCycles_of_lt {e : Engine} {latency : Nat} (h : e.report.cycles + latency < Word.limit)
    (port : π) :
    countCycles latency (e, port) =
      .ok () ({ e with report.cycles := e.report.cycles + latency }, port) := by
  simp only [countCycles, run_get_bind, Word.add_of_lt h]
  rfl

theorem countCycles_of_le {e : Engine} {latency : Nat} (h : Word.limit ≤ e.report.cycles + latency)
    (port : π) : countCycles latency (e, port) = .error (.trap .overflow) (e, port) := by
  have hadd : Word.add e.report.cycles latency = .error .overflow := if_neg (Nat.not_lt.mpr h)
  simp only [countCycles, run_get_bind, hadd]
  rfl

section

variable [Port π] {e e' : Engine} {p : Plan} {pay : Payload} {port port' : π} {latency : Nat}
  {st : Engine × π} {stop : Stop Failure}

theorem subcycle_ok {e'' : Engine} (hplan : e.plan = some p)
    (hpay : payload? e.geometry p e.tile e.phase = some pay)
    (h : perform p pay (e, port) = .ok latency (e', port')) (hafter : e'.after p = .ok e'') :
    subcycle (e, port) = .ok latency (e'', port') := by
  simp only [subcycle, run_get_bind, hplan, hpay]
  rw [run_bind_ok h]
  simp only [run_get_bind, hafter]
  rfl

theorem subcycle_error (hplan : e.plan = some p)
    (hpay : payload? e.geometry p e.tile e.phase = some pay)
    (h : perform p pay (e, port) = .error stop st) : subcycle (e, port) = .error stop st := by
  simp only [subcycle, run_get_bind, hplan, hpay]
  exact run_bind_error h

/-- The subcycle of a finished job moves nothing and retires it. -/
theorem subcycle_finished (hplan : e.plan = some p) (hphase : e.phase = .finished)
    (hdone : ∀ o, (e.stream o).isDone = true) (port : π) :
    subcycle (e, port) = .ok 0 (e.retire, port) := by
  have hx : e.x.isDone = true := hdone .x
  have hw : e.w.isDone = true := hdone .w
  have hy : e.y.isDone = true := hdone .y
  have hz : e.z.isDone = true := hdone .z
  have hafter : e.after p = .ok e.retire := by simp [after, hphase, checkStreams, hx, hw, hy, hz]
  simp only [subcycle, run_get_bind, hplan, hphase, payload?]
  rw [run_bind_ok (run_pure 0 (e, port))]
  simp only [run_get_bind, hafter]
  rfl

theorem mainLoop_ok (hphase : e.phase ≠ .idle) (h : subcycle (e, port) = .ok latency (e', port'))
    (hlt : e'.report.cycles + latency < Word.limit) (hpend : e'.pending = none) :
    mainLoop (e, port) = .ok () ({ e' with
      report.cycles := e'.report.cycles + latency
      pending := some (if e'.phase = .idle then (.completion, 0) else (.mainLoop, latency)) },
      port') := by
  simp only [mainLoop, run_get_bind, hphase, if_false]
  rw [run_bind_ok h, run_bind_ok (countCycles_of_lt hlt port')]
  simp only [run_get_bind]
  split <;> simp only [armEvent, arm, hpend]

theorem mainLoop_late (hphase : e.phase ≠ .idle)
    (h : subcycle (e, port) = .ok latency (e', port'))
    (hle : Word.limit ≤ e'.report.cycles + latency) :
    mainLoop (e, port) = .error (.trap .overflow) (e', port') := by
  simp only [mainLoop, run_get_bind, hphase, if_false]
  rw [run_bind_ok h, run_bind_error (countCycles_of_le hle port')]

theorem mainLoop_error (hphase : e.phase ≠ .idle) (h : subcycle (e, port) = .error stop st) :
    mainLoop (e, port) = .error stop st := by
  simp only [mainLoop, run_get_bind, hphase, if_false]
  exact run_bind_error h

/-- An armed event that is delivered is armed no more. -/
theorem deliver_armed {event : Event} {d : Nat} (hpend : e.pending = some (event, d)) (port : π) :
    deliver event (e, port) =
      match event with
      | .mainLoop => (do mainLoop; return none) ({ e with pending := none }, port)
      | .completion => .ok (some e.report) ({ e with pending := none }, port) := by
  have harmed : e.pending.map (·.1) = some event := by
    rw [hpend]
    rfl
  simp only [deliver, run_get_bind, run_set_bind, harmed, ne_eq, not_true_eq_false, if_false]
  cases event <;> rfl

/-- To wake an engine is to deliver its armed event. -/
theorem wake_eq_deliver {event : Event} {d : Nat} (hpend : e.pending = some (event, d))
    (port : π) :
    wake (e, port) =
      match deliver event (e, port) with
      | .ok report st => .ok (some (d, report)) st
      | .error stop st => .error stop st := by
  simp only [wake, run_get_bind, hpend]
  cases hd : deliver event (e, port) with
  | ok report st => exact run_bind_ok hd
  | error stop st => exact run_bind_error hd

/-- An engine that wakes had an event to deliver. -/
theorem deliver_of_wake {d : Nat} {r : Option JobReport} {port : π}
    (h : wake (e, port) = .ok (some (d, r)) st) :
    ∃ event, e.pending = some (event, d) ∧ deliver event (e, port) = .ok r st := by
  cases hpend : e.pending with
  | none =>
    simp only [wake, run_get_bind, hpend] at h
    cases h
  | some armed =>
    obtain ⟨event, d'⟩ := armed
    rw [wake_eq_deliver hpend] at h
    split at h
    · next hd =>
      cases h
      exact ⟨event, rfl, hd⟩
    · cases h

theorem wake_ok {d : Nat} (hpend : e.pending = some (.mainLoop, d))
    (h : mainLoop ({ e with pending := none }, port) = .ok () st) :
    wake (e, port) = .ok (some (d, none)) st := by
  rw [wake_eq_deliver hpend, deliver_armed hpend]
  simp only [run_bind_ok h]
  rfl

theorem wake_error {d : Nat} (hpend : e.pending = some (.mainLoop, d))
    (h : mainLoop ({ e with pending := none }, port) = .error stop st) :
    wake (e, port) = .error stop st := by
  rw [wake_eq_deliver hpend, deliver_armed hpend]
  simp only [run_bind_error h]

theorem wake_completion {d : Nat} (hpend : e.pending = some (.completion, d)) (port : π) :
    wake (e, port) = .ok (some (d, some e.report)) ({ e with pending := none }, port) := by
  rw [wake_eq_deliver hpend, deliver_armed hpend]

end

variable {e : Engine} {g : Geometry} {p : Plan}

/-! ## How the counters go on -/

/-- The report's counters are those of a station. -/
structure Counted (r : JobReport) (p : Plan) (s : Station) : Prop where
  tiles : r.tiles = s.stored p
  storePhases : r.storePhases = s.stored p
  hypercycles : r.hypercycles = s.hypercycles p

/-- The engine with its counters carried on after a payload. -/
def turned (e : Engine) (g : Geometry) (p : Plan) : Engine :=
  { e with
    phase := (e.station.next g p).phase
    tile := (e.station.next g p).tile
    store :=
      if e.station.closes g p then e.store.computed (e.tile.col + 1 == p.wColTiles) else e.store
    report := {
      e.report with
      tiles := (e.station.next g p).stored p
      hypercycles := (e.station.next g p).hypercycles p
      storePhases := (e.station.next g p).stored p } }

theorem after_eq (hg : g.Valid) (hr : TileStore.Roomy g p.colTiles) (hv : e.station.Valid g p)
    (hne : e.phase ≠ .finished) (h : e.Loaded g p (e.station.tick g))
    (hc : Counted e.report p e.station) : e.after p = .ok (e.turned g p) := by
  have hgeo := h.geometry
  have hcompute := fun b => h.store.computeZ hr b
  obtain ⟨htiles, hstores, hhyper⟩ := hc
  clear h
  obtain ⟨geo, phase, plan, store, x, w, y, z, tile, pending, irq, report⟩ := e
  obtain ⟨cycles, tiles, hypercycles, storePhases, rx, rw, ry, rz⟩ := report
  simp only [station] at hv hgeo hcompute htiles hstores hhyper hne ⊢
  subst hgeo htiles hstores hhyper
  cases hv with
  | @starting s hs =>
    by_cases he : s + 1 = 3 * geo.width <;>
      simp [after, turned, station, Station.next, Station.tick, Station.carry, Station.closes, he,
        Station.stored, Station.hypercycles, Plan.index]
  | @computing h c s t hh hc hs hrow hcol =>
    simp only [after, afterComputing, turned, station, Station.next, Station.tick, Station.carry,
      Station.closes]
    by_cases hend : (nextSub geo c s).1 = geo.width
    · by_cases hclose : h + 1 = p.colTiles
      · simp [hend, hclose, hcompute, Station.stored, Station.hypercycles, Nat.succ_mul,
          Nat.add_assoc]
      · simp [hend, hclose, Station.stored, Station.hypercycles, Nat.add_assoc]
    · simp [hend, Station.stored, Station.hypercycles]
  | @storing c s t hc hs hrow hcol =>
    have hcycles := storeCycles_eq hg hcol
    have hindex := index_nextTile (p := p) (t := tile)
    simp only [after, afterStoring, turned, station, Station.next, Station.tick, Station.carry,
      Station.closes, hcycles]
    by_cases hend : (nextSub geo c s).1 < p.storeRounds tile * geo.height
    · simp [hend, Station.stored, Station.hypercycles]
    · simp only [hend, if_false]
      rcases Plan.nextTile_cases hrow hcol with ⟨hc, -, hn⟩ | ⟨hc, hr, -, hn⟩ | ⟨hc, hr, -, hn⟩
      · rw [hn] at hindex
        simp [hn, Nat.ne_of_lt hrow, Station.stored, Station.hypercycles, hindex]
      · rw [hn] at hindex
        simp [hn, Nat.ne_of_lt hr, Station.stored, Station.hypercycles, hindex]
      · rw [hn] at hindex
        have htiles : p.tiles = p.index tile + 1 := by
          rw [← hindex, Plan.index]
          rfl
        simp [hn, Station.stored, Station.hypercycles, htiles]
  | finished => exact absurd rfl hne

/-! ## The invariant -/

/-- The engine is at a station of its job, and the port has taken `waited`
cycles so far. -/
structure OnTrack (e : Engine) (g : Geometry) (p : Plan) (waited : Nat) : Prop where
  valid : e.station.Valid g p
  loaded : e.Loaded g p e.station
  counted : Counted e.report p e.station
  cycles : e.report.cycles = e.station.steps g p + waited
  elapsed : e.elapsed = e.report.cycles
  actions : e.actions = e.station.steps g p
  cycles_lt : e.report.cycles < Word.limit

/-- A finished job moves nothing. -/
theorem phase_ne_finished {g : Geometry} {p : Plan} {t : Tile} {phase : Phase} {pay : Payload}
    (hpay : payload? g p t phase = some pay) : phase ≠ .finished := by
  rintro rfl
  cases hpay

/-- The engine after a whole subcycle. -/
def stepped (e : Engine) (g : Geometry) (p : Plan) (pay : Payload) (cost : Nat) (data : Bytes) :
    Engine :=
  let e' := (e.paid g p pay cost data).turned g p
  { e' with
    report.cycles := e'.report.cycles + cost
    pending := some (.mainLoop, cost) }

theorem stream_turned (e : Engine) (g : Geometry) (p : Plan) (o : Operand) :
    (e.turned g p).stream o = e.stream o := by cases o <;> rfl

theorem Loaded.turned (h : e.Loaded g p (e.station.tick g)) (hc : e.station.Carries g p) :
    (e.turned g p).Loaded g p (e.station.next g p) where
  geometry := h.geometry
  plan := h.plan
  store := by
    rw [hc.tally]
    simp only [Engine.turned]
    split
    · exact h.store.computed _
    · exact h.store
  operand o := stream_turned e g p o ▸ h.operand o
  direction o := stream_turned e g p o ▸ h.direction o
  beatBytes o := stream_turned e g p o ▸ h.beatBytes o
  moved o := by
    rw [stream_turned, hc.moved]
    exact h.moved o
  bytes o := by
    rw [stream_turned, hc.moved]
    exact h.bytes o

theorem station_stepped (e : Engine) (g : Geometry) (p : Plan) (pay : Payload) (cost : Nat)
    (data : Bytes) : (e.stepped g p pay cost data).station = e.station.next g p := by
  rw [← station_paid e g p pay cost data]
  rfl

theorem irq_stepped (e : Engine) (g : Geometry) (p : Plan) (pay : Payload) (cost : Nat)
    (data : Bytes) : (e.stepped g p pay cost data).irq = e.irq := by
  cases pay with
  | transfer t => cases t <;> rfl
  | paddingW => rfl
  | bubble o => cases o <;> rfl

/-- **A subcycle keeps a job on track.** -/
theorem OnTrack.stepped {waited : Nat} (h : e.OnTrack g p waited) (hg : g.Valid) (hp : p.Sound g)
    (hne : e.phase ≠ .finished) {pay : Payload} (hm : e.station.Moves g p pay) {latency : Nat}
    (hidle : pay.beat? = none → latency = 0) (data : Bytes)
    (hlt : e.report.cycles + (latency + 1) < Word.limit) :
    (e.stepped g p pay (latency + 1) data).OnTrack g p (waited + latency) := by
  obtain ⟨-, -, -, -, -, hreport⟩ := paid_rest e g p pay (latency + 1) data
  have hst := station_paid e g p pay (latency + 1) data
  have hc := h.valid.carries hg hp hne
  have hloaded := h.loaded.paid hp hm (Nat.succ_pos latency) data
  rw [← hst] at hloaded hc
  have hturned := hloaded.turned hc
  rw [hst] at hturned hc
  have hcycles : (e.stepped g p pay (latency + 1) data).report.cycles =
      e.report.cycles + (latency + 1) := by
    rw [← hreport]
    rfl
  have hstation := station_stepped e g p pay (latency + 1) data
  refine ⟨?_, ?_, ?_, ?_, ?_, ?_, ?_⟩
  · rw [hstation]
    exact hc.valid
  · rw [hstation]
    exact ⟨hturned.geometry, hturned.plan, hturned.store, hturned.operand, hturned.direction,
      hturned.beatBytes, hturned.moved, hturned.bytes⟩
  · rw [hstation, ← hst]
    exact ⟨rfl, rfl, rfl⟩
  · rw [hstation, hcycles, hc.steps, h.cycles]
    omega
  · have he : (e.paid g p pay (latency + 1) data).elapsed = e.elapsed + (latency + 1) :=
      elapsed_paid e g p (fun hb => by rw [hidle hb]) data
    rw [hcycles, ← h.elapsed, ← he]
    rfl
  · have ha := actions_paid e g p pay (latency + 1) data
    rw [hstation, hc.steps, ← h.actions, ← ha]
    rfl
  · rw [hcycles]
    exact hlt

/-- A payload leads to the next station. -/
theorem OnTrack.next {n : Nat} (h : e.OnTrack g p n) (hg : g.Valid) (hp : p.Sound g) {pay : Payload}
    (hpay : payload? g p e.tile e.phase = some pay) {latency : Nat}
    (hidle : pay.beat? = none → latency = 0) (data : Bytes)
    (hlt : e.report.cycles + (latency + 1) < Word.limit) :
    (e.stepped g p pay (latency + 1) data).OnTrack g p (n + latency) :=
  h.stepped hg hp (phase_ne_finished hpay) (h.valid.moves hg hp hpay) hidle data hlt

/-! ## What a delivery can do -/

/-- Everything that delivering the armed subcycle of a job can do. -/
inductive Wakes [Port π] (e : Engine) (g : Geometry) (p : Plan) (d : Nat) (port : π) :
    EStateM.Result (Stop Failure) (Engine × π) (Option (Nat × Option JobReport)) → Prop
  | idle {pay : Payload} (hpay : payload? g p e.tile e.phase = some pay)
      (hbeat : pay.beat? = none) (hlt : e.report.cycles + 1 < Word.limit) :
      Wakes e g p d port (.ok (some (d, none)) (e.stepped g p pay 1 [], port))
  | idleLate {pay : Payload} {e' : Engine} (hpay : payload? g p e.tile e.phase = some pay)
      (hbeat : pay.beat? = none) (hle : Word.limit ≤ e.report.cycles + 1) :
      Wakes e g p d port (.error (.trap .overflow) (e', port))
  | served {t : Transfer} {reply : Reply} {port' : π}
      (hpay : payload? g p e.tile e.phase = some (.transfer t))
      (hacc : Port.access (e.request g p t) port = .ok reply port') (hstatus : reply.status = .ok)
      (hlt : e.report.cycles + (reply.latency + 1) < Word.limit) :
      Wakes e g p d port (.ok (some (d, none))
        (e.stepped g p (.transfer t) (reply.latency + 1) reply.data, port'))
  | late {t : Transfer} {reply : Reply} {port' : π} {e' : Engine}
      (hpay : payload? g p e.tile e.phase = some (.transfer t))
      (hacc : Port.access (e.request g p t) port = .ok reply port') (hstatus : reply.status = .ok)
      (hle : Word.limit ≤ e.report.cycles + (reply.latency + 1)) :
      Wakes e g p d port (.error (.trap .overflow) (e', port'))
  | refused {t : Transfer} {reply : Reply} {port' : π}
      (hpay : payload? g p e.tile e.phase = some (.transfer t))
      (hacc : Port.access (e.request g p t) port = .ok reply port')
      (hstatus : reply.status ≠ .ok) :
      Wakes e g p d port
        (.error (.error (.transaction t.operand (e.request g p t).addr reply.status))
          ({ e.waiting g p t with pending := none }, port'))
  | poisoned {t : Transfer} {port' : π}
      (hpay : payload? g p e.tile e.phase = some (.transfer t))
      (hacc : Port.access (e.request g p t) port = .error .poisoned port') :
      Wakes e g p d port
        (.error (.error .portPoisoned) ({ e.waiting g p t with pending := none }, port'))
  | trapped {t : Transfer} {tr : Trap} {port' : π}
      (hpay : payload? g p e.tile e.phase = some (.transfer t))
      (hacc : Port.access (e.request g p t) port = .error (.trap tr) port') :
      Wakes e g p d port
        (.error (.trap tr) ({ e.waiting g p t with pending := none }, port'))
  | retired (hphase : e.phase = .finished) :
      Wakes e g p d port
        (.ok (some (d, none)) ({ e.retire with pending := some (.completion, 0) }, port))

theorem stepped_disarmed (e : Engine) (g : Geometry) (p : Plan) (pay : Payload) (cost : Nat)
    (data : Bytes) :
    ({ e with pending := none } : Engine).stepped g p pay cost data =
      e.stepped g p pay cost data := by
  cases pay with
  | transfer t => cases t <;> rfl
  | paddingW => rfl
  | bubble o => cases o <;> rfl

theorem stream_disarmed (e : Engine) (o : Operand) :
    ({ e with pending := none } : Engine).stream o = e.stream o := by cases o <;> rfl

theorem Loaded.disarmed {s : Station} (h : e.Loaded g p s) :
    ({ e with pending := none } : Engine).Loaded g p s where
  geometry := h.geometry
  plan := h.plan
  store := h.store
  operand o := stream_disarmed e o ▸ h.operand o
  direction o := stream_disarmed e o ▸ h.direction o
  beatBytes o := stream_disarmed e o ▸ h.beatBytes o
  moved o := stream_disarmed e o ▸ h.moved o
  bytes o := stream_disarmed e o ▸ h.bytes o

/-- A subcycle of which the payload went well counts its cost, if that fits. -/
theorem OnTrack.wake_paid [Port π] {waited d : Nat} (h : e.OnTrack g p waited) (hg : g.Valid)
    (hp : p.Sound g) (hr : TileStore.Roomy g p.colTiles) (hne : e.phase ≠ .finished)
    (hpend : e.pending = some (.mainLoop, d)) {pay : Payload}
    (hpay : payload? g p e.tile e.phase = some pay) {port port' : π} {cost : Nat} {data : Bytes}
    (hcost : 0 < cost)
    (hperform : perform p pay ({ e with pending := none }, port) =
      .ok cost (({ e with pending := none } : Engine).paid g p pay cost data, port')) :
    (e.report.cycles + cost < Word.limit →
      wake (e, port) = .ok (some (d, none)) (e.stepped g p pay cost data, port')) ∧
    (Word.limit ≤ e.report.cycles + cost →
      ∃ e', wake (e, port) = .error (.trap .overflow) (e', port')) := by
  have hloaded : ({ e with pending := none } : Engine).Loaded g p e.station := h.loaded.disarmed
  rw [← stepped_disarmed]
  -- `e₀` is the engine with its event taken out, as the main loop finds it
  generalize he : ({ e with pending := none } : Engine) = e₀ at *
  have hphase : e₀.phase = e.phase := by rw [← he]
  have htile : e₀.tile = e.tile := by rw [← he]
  have hreport : e₀.report = e.report := by rw [← he]
  have hpend₀ : e₀.pending = none := by rw [← he]
  have hst : e₀.station = e.station := by rw [station, station, hphase, htile]
  rw [← hst] at hloaded
  obtain ⟨-, -, hphase', -, hpend', hreport'⟩ := paid_rest e₀ g p pay cost data
  have hst' := station_paid e₀ g p pay cost data
  have hm := h.valid.moves hg hp hpay
  have hpaid := hloaded.paid hp (hst ▸ hm) hcost data
  have hafter : (e₀.paid g p pay cost data).after p =
      .ok ((e₀.paid g p pay cost data).turned g p) := by
    refine after_eq hg hr ?_ ?_ ?_ ?_
    · rw [hst', hst]
      exact h.valid
    · rw [hphase', hphase]
      exact hne
    · rw [hst']
      exact hpaid
    · rw [hreport', hst', hreport, hst]
      exact h.counted
  have hsub := subcycle_ok hloaded.plan (by rw [hloaded.geometry, htile, hphase]; exact hpay)
    hperform hafter
  have hidle : e₀.phase ≠ .idle := hphase ▸ h.valid.phase_ne_idle
  have hcycles : ((e₀.paid g p pay cost data).turned g p).report.cycles = e.report.cycles := by
    rw [← hreport, ← hreport']
    rfl
  constructor
  · intro hlt
    have hnext : ((e₀.paid g p pay cost data).turned g p).phase ≠ .idle := by
      have hv := (h.valid.carries hg hp hne).valid
      rw [← hst, ← hst'] at hv
      exact hv.phase_ne_idle
    have hmain := mainLoop_ok hidle hsub (hcycles ▸ hlt) (hpend'.trans hpend₀)
    rw [if_neg hnext] at hmain
    exact wake_ok hpend (he ▸ hmain)
  · intro hle
    exact ⟨_, wake_error hpend (he ▸ mainLoop_late hidle hsub (hcycles ▸ hle))⟩

/-- A payload that stops the program stops the subcycle. -/
theorem OnTrack.wake_stopped [Port π] {waited d : Nat} (h : e.OnTrack g p waited)
    (hpend : e.pending = some (.mainLoop, d)) {pay : Payload}
    (hpay : payload? g p e.tile e.phase = some pay) {port : π} {stop : Stop Failure}
    {st : Engine × π}
    (hperform : perform p pay ({ e with pending := none }, port) = .error stop st) :
    wake (e, port) = .error stop st := by
  have hsub : subcycle ({ e with pending := none }, port) = .error stop st :=
    subcycle_error h.loaded.plan (by rw [h.loaded.geometry]; exact hpay) hperform
  exact wake_error hpend (mainLoop_error h.valid.phase_ne_idle hsub)

/-- A payload without a beat can only be late. -/
theorem OnTrack.wakes_idle [Port π] {waited d : Nat} (h : e.OnTrack g p waited) (hg : g.Valid)
    (hp : p.Sound g) (hr : TileStore.Roomy g p.colTiles) (hne : e.phase ≠ .finished)
    (hpend : e.pending = some (.mainLoop, d)) {pay : Payload}
    (hpay : payload? g p e.tile e.phase = some pay) (hbeat : pay.beat? = none) {o : Operand}
    {port : π} {e' : Engine}
    (hperform : perform p pay ({ e with pending := none }, port) =
      if (e.stream o).stats.latency + 1 < Word.limit then
        .ok 1 (({ e with pending := none } : Engine).paid g p pay 1 [], port)
      else .error (.trap .overflow) (e', port)) :
    Wakes e g p d port (wake (e, port)) := by
  -- the clock of a stream is never ahead of that of the job
  have hlat : (e.stream o).stats.latency ≤ e.report.cycles := h.elapsed ▸ e.latency_le_elapsed o
  split at hperform
  · obtain ⟨hok, hlate⟩ := h.wake_paid hg hp hr hne hpend hpay Nat.one_pos hperform
    rcases Nat.lt_or_ge (e.report.cycles + 1) Word.limit with hlt | hle
    · rw [hok hlt]
      exact .idle hpay hbeat hlt
    · obtain ⟨e', he'⟩ := hlate hle
      rw [he']
      exact .idleLate hpay hbeat hle
  · rw [h.wake_stopped hpend hpay hperform]
    exact .idleLate hpay hbeat (by omega)

/-- **Delivering the armed subcycle of a job does one of these things.** -/
theorem OnTrack.wakes [Port π] {waited d : Nat} (h : e.OnTrack g p waited) (hg : g.Valid)
    (hp : p.Sound g) (hpend : e.pending = some (.mainLoop, d)) (port : π) :
    Wakes e g p d port (wake (e, port)) := by
  have hr := TileStore.roomy hp hg
  by_cases hfin : e.phase = .finished
  · have hdone : ∀ o, (({ e with pending := none } : Engine).stream o).isDone = true := fun o => by
      rw [(h.loaded.disarmed.moved o).isDone_iff, hp.total, moved_of_finished hfin]
    have hsub := subcycle_finished (e := { e with pending := none }) h.loaded.plan hfin hdone port
    have hidle : ({ e with pending := none } : Engine).phase ≠ .idle := h.valid.phase_ne_idle
    have hmain := mainLoop_ok hidle hsub h.cycles_lt rfl
    rw [wake_ok hpend hmain]
    exact .retired hfin
  have hloaded : ({ e with pending := none } : Engine).Loaded g p e.station := h.loaded.disarmed
  obtain ⟨pay, hpay⟩ := h.valid.exists_payload hfin
  cases pay with
  | bubble o =>
    have hperform := hloaded.perform_bubble o port
    rw [stream_disarmed] at hperform
    exact h.wakes_idle hg hp hr hfin hpend hpay rfl hperform
  | paddingW =>
    have hperform := hloaded.perform_padding hr port
    rw [stream_disarmed] at hperform
    exact h.wakes_idle hg hp hr hfin hpend hpay rfl hperform
  | transfer t =>
    have hlat : (e.stream t.operand).stats.latency ≤ e.report.cycles :=
      h.elapsed ▸ e.latency_le_elapsed t.operand
    have hdue := (h.valid.moves hg hp hpay).due t rfl
    have hperform := hloaded.perform_transfer hg hp hr hdue port
    have hreq : ({ e with pending := none } : Engine).request g p t = e.request g p t := rfl
    rw [stream_disarmed, hreq] at hperform
    cases hacc : Port.access (e.request g p t) port with
    | error fault port' =>
      rw [hacc] at hperform
      cases fault with
      | poisoned =>
        rw [h.wake_stopped hpend hpay hperform]
        exact .poisoned hpay hacc
      | trap tr =>
        rw [h.wake_stopped hpend hpay hperform]
        exact .trapped hpay hacc
    | ok reply port' =>
      rw [hacc] at hperform
      simp only [] at hperform
      split at hperform
      · next hstatus =>
        rw [h.wake_stopped hpend hpay hperform]
        exact .refused hpay hacc hstatus
      next hstatus =>
      have hstatus : reply.status = .ok := Decidable.not_not.mp hstatus
      split at hperform
      · obtain ⟨hok, hlate⟩ := h.wake_paid hg hp hr hfin hpend hpay (Nat.succ_pos _) hperform
        rcases Nat.lt_or_ge (e.report.cycles + (reply.latency + 1)) Word.limit with hlt | hle
        · rw [hok hlt]
          exact .served hpay hacc hstatus hlt
        · obtain ⟨e', he'⟩ := hlate hle
          rw [he']
          exact .late hpay hacc hstatus hle
      · rw [h.wake_stopped hpend hpay hperform]
        exact .late hpay hacc hstatus (by omega)

end Engine

end SystolicGemm
