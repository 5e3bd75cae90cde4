import Mathlib.Algebra.GroupWithZero.Nat
import SystolicGemm.Proofs.Engine.Traffic
import SystolicGemm.Proofs.Wire.Report

/-!
# What a job takes

Every cycle of a job is counted three times: in the report, in the delay of an
event and in the statistics of one stream. A job that the port serves takes its
subcycles and the latencies that the port answers, to the cycle, and its events
are one subcycle each and a completion at the end.
-/

namespace SystolicGemm.Engine

variable {π : Type}

/-! ## The events of a run -/

/-- Delivers armed events as `drain` does, and says which, each with its delay. -/
def deliveries [Port π] :
    (fuel : Nat) → Run Failure (Engine × π) (List (Event × Nat) × Option JobReport)
  | 0 => return ([], none)
  | fuel + 1 => do
    match (← get).1.pending with
    | none => return ([], none)
    | some (event, delay) =>
      match ← deliver event with
      | some report => return ([(event, delay)], some report)
      | none =>
        let (rest, report) ← deliveries fuel
        return ((event, delay) :: rest, report)

variable [Port π] {e : Engine} {g : Geometry} {p : Plan} {st st' : Engine × π}

theorem deliveries_succ_none (h : st.1.pending = none) (fuel : Nat) :
    deliveries (fuel + 1) st = .ok ([], none) st := by
  simp only [deliveries, run_get_bind, h]
  rfl

theorem deliveries_succ_ok {event : Event} {d : Nat} (hpend : st.1.pending = some (event, d))
    (h : deliver event st = .ok none st') (fuel : Nat) :
    deliveries (fuel + 1) st =
      match deliveries fuel st' with
      | .ok (rest, report) st'' => .ok ((event, d) :: rest, report) st''
      | .error stop st'' => .error stop st'' := by
  simp only [deliveries, run_get_bind, hpend]
  rw [run_bind_ok h]
  cases hd : deliveries fuel st' with
  | ok r st'' => exact run_bind_ok hd
  | error stop st'' => exact run_bind_error hd

theorem deliveries_succ_reported {event : Event} {d : Nat} {report : JobReport}
    (hpend : st.1.pending = some (event, d)) (h : deliver event st = .ok (some report) st')
    (fuel : Nat) : deliveries (fuel + 1) st = .ok ([(event, d)], some report) st' := by
  simp only [deliveries, run_get_bind, hpend]
  rw [run_bind_ok h]
  rfl

theorem deliveries_succ_error {event : Event} {d : Nat} {stop : Stop Failure}
    (hpend : st.1.pending = some (event, d)) (h : deliver event st = .error stop st')
    (fuel : Nat) : deliveries (fuel + 1) st = .error stop st' := by
  simp only [deliveries, run_get_bind, hpend]
  exact run_bind_error h

/-- **A drained job has taken the delays of its events.** -/
theorem drain_eq_deliveries (fuel : Nat) (st : Engine × π) :
    drain fuel st =
      match deliveries fuel st with
      | .ok (events, report) st' => .ok ((events.map (·.2)).sum, report) st'
      | .error stop st' => .error stop st' := by
  induction fuel generalizing st with
  | zero => rfl
  | succ fuel ih =>
    obtain ⟨e, port⟩ := st
    cases hpend : e.pending with
    | none =>
      have hwake : wake (e, port) = .ok none (e, port) := by
        simp only [wake, run_get_bind, hpend]
        rfl
      rw [deliveries_succ_none hpend, drain, run_bind_ok hwake]
      rfl
    | some armed =>
      obtain ⟨event, d⟩ := armed
      have hwake := wake_eq_deliver hpend port
      cases hd : deliver event (e, port) with
      | error stop st' =>
        rw [hd] at hwake
        rw [drain_succ_error hwake, deliveries_succ_error hpend hd]
      | ok report st' =>
        rw [hd] at hwake
        cases report with
        | some report =>
          rw [drain_succ_reported hwake, deliveries_succ_reported hpend hd]
          simp
        | none =>
          rw [drain_succ_ok hwake, deliveries_succ_ok hpend hd, ih]
          cases deliveries fuel st' <;> simp

/-- **The events of a job that gets to its report**, from any station of it: one
for each subcycle that is left, one to retire it, and the completion. -/
theorem OnTrack.events (hg : g.Valid) (hp : p.Sound g) {n d left fuel : Nat} {port : π}
    {events : List (Event × Nat)} {report : JobReport} (h : e.OnTrack g p n)
    (hpend : e.pending = some (.mainLoop, d)) (hleft : e.station.steps g p + left = p.subcycles g)
    (hdel : deliveries fuel (e, port) = .ok (events, some report) st') :
    events.map (·.1) = List.replicate (left + 1) .mainLoop ++ [.completion] := by
  -- induction on the deliveries, for every station that they can start from
  induction fuel generalizing e n d left port events with
  | zero => cases hdel
  | succ fuel ih =>
    have hw := h.wakes hg hp hpend port
    -- a payload takes the job to its next station, and the rest is that station's
    have hnext : ∀ {pay : Payload} {latency : Nat} {data : Bytes} {port' : π},
        payload? g p e.tile e.phase = some pay → (pay.beat? = none → latency = 0) →
        e.report.cycles + (latency + 1) < Word.limit →
        deliver .mainLoop (e, port) = .ok none (e.stepped g p pay (latency + 1) data, port') →
        events.map (·.1) = List.replicate (left + 1) .mainLoop ++ [.completion] := by
      intro pay latency data port' hpay hidle hlt hd
      have hne := phase_ne_finished hpay
      have hstep := h.next hg hp hpay hidle data hlt
      have hcount : (e.stepped g p pay (latency + 1) data).station.steps g p =
          e.station.steps g p + 1 := by
        rw [station_stepped, (h.valid.carries hg hp hne).steps]
      have hsteps := h.valid.steps_lt hp hne
      obtain ⟨left, rfl⟩ : ∃ l, left = l + 1 := ⟨left - 1, by omega⟩
      rw [deliveries_succ_ok hpend hd] at hdel
      split at hdel
      · next rest report' st'' hrest =>
        cases hdel
        have hleft' : (e.stepped g p pay (latency + 1) data).station.steps g p + left =
            p.subcycles g := by omega
        rw [List.map_cons, ih hstep rfl hleft' hrest]
        rfl
      · cases hdel
    rw [wake_eq_deliver hpend] at hw
    cases hd : deliver .mainLoop (e, port) with
    | error stop st'' =>
      rw [deliveries_succ_error hpend hd] at hdel
      cases hdel
    | ok r st'' =>
      rw [hd] at hw
      cases hw with
      | idle hpay hbeat hlt => exact hnext hpay (fun _ => rfl) hlt hd
      | served hpay hacc hstatus hlt => exact hnext hpay (fun hbeat => by cases hbeat) hlt hd
      | retired hfin =>
        have hleft : left = 0 := by
          have hend := steps_of_finished (g := g) (p := p) hfin
          omega
        subst hleft
        rw [deliveries_succ_ok hpend hd] at hdel
        cases fuel with
        | zero => cases hdel
        | succ fuel =>
          rw [deliveries_succ_reported rfl (deliver_armed rfl port)] at hdel
          cases hdel
          rfl

/-! ## The counts of a report -/

/-- The counts of a stream are those of its job, which fit a word. -/
theorem OnTrack.fits_stats {n : Nat} (h : e.OnTrack g p n) (hp : p.Sound g) (o : Operand) :
    (e.stream o).stats.Fits := by
  have hm := h.loaded.moved o
  have hclock : (e.stream o).stats.latency < Word.limit :=
    Nat.lt_of_le_of_lt (h.elapsed ▸ e.latency_le_elapsed o) h.cycles_lt
  have hcost := hm.cost
  have hbytes := hm.bytes
  have hbeats : (e.stream o).stats.transactions < Word.limit32 := by
    rw [hm.transactions]
    exact Nat.lt_of_le_of_lt (h.loaded.moved_le hp o) (hp.beats_lt o)
  have hwords : 64 * Word.limit32 < Word.limit := by decide
  exact ⟨by omega, by omega, by omega, hclock⟩

/-- **Everything in the report of a finished job fits a word.** -/
theorem OnTrack.fits_report {n : Nat} (h : e.OnTrack g p n) (hg : g.Valid) (hp : p.Sound g)
    (hfin : e.phase = .finished) : e.retire.report.Fits := by
  obtain ⟨htiles, hstores, hhyper⟩ := h.counted
  have hstored : e.station.stored p = p.tiles := by
    rw [station, hfin]
    rfl
  have hhypers : e.station.hypercycles p = p.tiles * p.colTiles := by
    rw [station, hfin]
    rfl
  rw [hstored] at htiles hstores
  rw [hhypers] at hhyper
  have hsubcycles : p.subcycles g ≤ e.report.cycles := by
    rw [h.cycles, steps_of_finished hfin]
    exact Nat.le_add_right _ _
  -- a chunk takes a subcycle at the least, and a tile a chunk
  have hchunks : p.tiles * p.colTiles ≤ p.subcycles g := by
    have hrounds : 0 < g.width * g.depth := Nat.mul_pos hg.width_pos (Nat.succ_pos _)
    have hle := Nat.le_mul_of_pos_right (p.tiles * p.colTiles) hrounds
    have hassoc : p.tiles * p.colTiles * (g.width * g.depth) =
        p.tiles * (p.colTiles * g.width * g.depth) := by
      rw [Nat.mul_assoc, ← Nat.mul_assoc p.colTiles]
    rw [Plan.subcycles]
    omega
  have htile : p.tiles ≤ p.tiles * p.colTiles := Nat.le_mul_of_pos_right _ hp.colTiles_pos
  have hlt := h.cycles_lt
  exact {
    cycles := hlt
    tiles := by
      show e.report.tiles < _
      omega
    hypercycles := by
      show e.report.hypercycles < _
      omega
    storePhases := by
      show e.report.storePhases < _
      omega
    x := h.fits_stats hp .x
    w := h.fits_stats hp .w
    y := h.fits_stats hp .y
    z := h.fits_stats hp .z }

theorem Taken.fits_report (h : e.Taken g p) (hg : g.Valid) (hp : p.Sound g) {port port' : π}
    {fuel delay : Nat} {report : JobReport} {e'' : Engine}
    (hdrain : drain fuel (e, port) = .ok (delay, some report) (e'', port')) : report.Fits := by
  obtain ⟨log, e', d, hruns, hpend, hfin, rfl⟩ := h.completed hg hp hdrain
  have halong := hruns.along hg hp (kept_logged hg hp) (h.along h.logged)
  obtain ⟨htrack, -⟩ := halong.of_pending hpend
  exact htrack.fits_report hg hp hfin

section

variable {q q' : π} {events : List (Event × Nat)} {report : JobReport}

/-! ## What is left of a job -/

/-- Delivering the armed events of an engine, these ones, ends in a report. -/
inductive Reports : Engine → π → List (Event × Nat) → JobReport → π → Prop
  | last {e e' : Engine} {q q' : π} {event : Event} {l : Nat} {report : JobReport}
      (hpend : e.pending = some (event, l))
      (hd : deliver event (e, q) = .ok (some report) (e', q')) :
      Reports e q [(event, l)] report q'
  | more {e e' : Engine} {q q' q'' : π} {event : Event} {l : Nat}
      {events : List (Event × Nat)} {report : JobReport} (hpend : e.pending = some (event, l))
      (hd : deliver event (e, q) = .ok none (e', q')) (h : Reports e' q' events report q'') :
      Reports e q ((event, l) :: events) report q''

theorem Reports.armed (h : Reports e q events report q') :
    e.pending ≠ none ∧ 0 < events.length := by
  cases h with
  | last hpend | more hpend => exact ⟨fun hnone => absurd (hpend.symm.trans hnone) nofun,
      Nat.succ_pos _⟩

/-- The armed event is the next of them. -/
theorem Reports.next (h : Reports e q events report q') {event : Event} {l : Nat}
    (hpend : e.pending = some (event, l)) :
    (∃ e', deliver event (e, q) = .ok (some report) (e', q') ∧ events = [(event, l)]) ∨
      ∃ e' q₁ rest, deliver event (e, q) = .ok none (e', q₁) ∧ events = (event, l) :: rest ∧
        Reports e' q₁ rest report q' := by
  cases h with
  | last hpend' hd =>
    cases hpend.symm.trans hpend'
    exact .inl ⟨_, hd, rfl⟩
  | more hpend' hd h =>
    cases hpend.symm.trans hpend'
    exact .inr ⟨_, _, _, hd, rfl, h⟩

/-- Deliveries that end in a report begin with the armed event. -/
theorem deliveries_succ_some {fuel : Nat} {st : Engine × π}
    (h : deliveries (fuel + 1) (e, q) = .ok (events, some report) st) :
    ∃ event l, e.pending = some (event, l) ∧
      (deliver event (e, q) = .ok (some report) st ∧ events = [(event, l)] ∨
        ∃ e' q' rest, deliver event (e, q) = .ok none (e', q') ∧ events = (event, l) :: rest ∧
          deliveries fuel (e', q') = .ok (rest, some report) st) := by
  cases hpend : e.pending with
  | none =>
    rw [deliveries_succ_none hpend] at h
    cases h
  | some armed =>
    obtain ⟨event, l⟩ := armed
    refine ⟨event, l, rfl, ?_⟩
    cases hd : deliver event (e, q) with
    | error stop st' =>
      rw [deliveries_succ_error hpend hd] at h
      cases h
    | ok r st' =>
      cases r with
      | some report' =>
        rw [deliveries_succ_reported hpend hd] at h
        cases h
        exact .inl ⟨rfl, rfl⟩
      | none =>
        rw [deliveries_succ_ok hpend hd] at h
        split at h
        · next rest report' st'' hrest =>
          cases h
          exact .inr ⟨_, _, rest, rfl, rfl, hrest⟩
        · cases h

theorem reports_of_deliveries {fuel : Nat} {st : Engine × π}
    (h : deliveries fuel (e, q) = .ok (events, some report) st) :
    Reports e q events report st.2 := by
  induction fuel generalizing e q events with
  | zero => cases h
  | succ fuel ih =>
    obtain ⟨event, l, hpend, ⟨hd, rfl⟩ | ⟨e', q', rest, hd, rfl, hrest⟩⟩ := deliveries_succ_some h
    · exact .last hpend hd
    · exact .more hpend hd (ih hrest)

/-- With the completion armed the report is there. -/
theorem reports_completion_iff (hpend : e.pending = some (.completion, 0)) :
    Reports e q events report q' ↔ events = [(.completion, 0)] ∧ report = e.report ∧ q' = q := by
  have harmed := deliver_armed hpend q
  constructor
  · intro h
    obtain ⟨e', hd, rfl⟩ | ⟨e', q₁, rest, hd, -⟩ := h.next hpend <;> cases harmed.symm.trans hd
    exact ⟨rfl, rfl, rfl⟩
  · rintro ⟨rfl, rfl, rfl⟩
    exact .last hpend harmed

/-- **The interrupt line is no part of what is left of a job.** It is low as long
as the job runs, and the report does not look at it. -/
theorem Standing.reports_clearIrq (h : Standing g e) :
    Reports e.clearIrq q events report q' ↔ Reports e q events report q' := by
  cases h with
  | idle _ _ hpend | stuck _ hpend =>
    exact ⟨fun h => absurd hpend h.armed.1, fun h => absurd hpend h.armed.1⟩
  | running _ _ _ _ hirq =>
    have hself : e.clearIrq = e := by rw [Engine.clearIrq, ← hirq]
    rw [hself]
  | completing _ _ hpend =>
    rw [reports_completion_iff hpend, reports_completion_iff (e := e.clearIrq) hpend]
    rfl

/-- **A job that the port serves comes to its report**, in as many deliveries as it
has subcycles and two more, and their delays are what it reports. -/
theorem Taken.completes (h : e.Taken g p) (hg : g.Valid) (hp : p.Sound g) {port : π}
    (hport : Obliges (e, port)) (hclock : ¬ Overruns g p (e, port)) {fuel : Nat}
    (hfuel : p.subcycles g + 2 ≤ fuel) : ∃ events report st,
      deliveries fuel (e, port) = .ok (events, some report) st ∧
      events.map (·.1) = List.replicate (p.subcycles g + 1) .mainLoop ++ [.completion] ∧
      report.cycles = (events.map (·.2)).sum ∧ report.Fits := by
  obtain ⟨delay, report, e', q, hdrain, -⟩ :=
    (h.ending hg hp port fuel).reports hport hclock hfuel
  have hfits := h.fits_report hg hp hdrain
  have hdrained := h.drained hg hp port fuel
  rw [hdrain] at hdrained
  have hclocked : report.cycles = delay := by
    cases hdrained with
    | reported _ _ _ hdelay => exact hdelay.symm.trans (Nat.zero_add _)
  rw [drain_eq_deliveries] at hdrain
  split at hdrain
  · next events _ st' hdel =>
    cases hdrain
    have hevents := h.onTrack.events hg hp h.pending
      (by rw [h.station]; exact Nat.zero_add _) hdel
    exact ⟨events, report, _, hdel, hevents, hclocked, hfits⟩
  · cases hdrain

/-- All of a job is left when the engine has taken it, and with a port that serves
it there is an end. -/
theorem Taken.exists_reports (h : e.Taken g p) (hg : g.Valid) (hp : p.Sound g) {port : π}
    (hport : Obliges (e, port)) (hclock : ¬ Overruns g p (e, port)) :
    ∃ events report q, Reports e port events report q := by
  obtain ⟨events, report, st, hdel, -⟩ := h.completes hg hp hport hclock (Nat.le_refl _)
  exact ⟨events, report, st.2, reports_of_deliveries hdel⟩

end

/-! ## The accounts of a job -/

/-- What a whole job has taken: its events with their delays, the answers of the
port and the report say the same. -/
structure ExactTiming (g : Geometry) (p : Plan) (journal : List (Request × Reply))
    (events : List (Event × Nat)) (report : JobReport) : Prop where
  sequence : events.map (·.1) = List.replicate (p.subcycles g + 1) .mainLoop ++ [.completion]
  answered : report.cycles = p.subcycles g + (journal.map (·.2.latency)).sum
  delayed : report.cycles = (events.map (·.2)).sum
  streams : report.cycles =
    report.x.latency + report.w.latency + report.y.latency + report.z.latency
  actions : (report.x.transactions + report.x.bubbles) +
    (report.w.transactions + report.w.bubbles) + (report.y.transactions + report.y.bubbles) +
    (report.z.transactions + report.z.bubbles) = p.subcycles g
  tiles : report.tiles = p.xRowTiles * p.wColTiles
  storePhases : report.storePhases = p.xRowTiles * p.wColTiles
  hypercycles : report.hypercycles = p.xRowTiles * p.wColTiles * p.colTiles

theorem waited_eq_sum (log : List Beat) : waited log = (log.map (·.reply.latency)).sum := by
  induction log with
  | nil => rfl
  | cons b log ih => rw [waited, ih, List.map_cons, List.sum_cons]

/-- The report of a finished job counts what its streams and its stations do. -/
theorem OnTrack.exactTiming {n : Nat} (h : e.OnTrack g p n) (hfin : e.phase = .finished)
    {journal : List (Request × Reply)} {events : List (Event × Nat)}
    (hn : n = (journal.map (·.2.latency)).sum)
    (hevents : events.map (·.1) = List.replicate (p.subcycles g + 1) .mainLoop ++ [.completion])
    (hdelay : e.report.cycles = (events.map (·.2)).sum) :
    ExactTiming g p journal events e.retire.report := by
  have hsteps := steps_of_finished (g := g) (p := p) hfin
  obtain ⟨htiles, hstores, hhyper⟩ := h.counted
  have hstored : e.station.stored p = p.tiles := by
    rw [station, hfin]
    rfl
  have hhypers : e.station.hypercycles p = p.tiles * p.colTiles := by
    rw [station, hfin]
    rfl
  exact {
    sequence := hevents
    answered := by
      show e.report.cycles = _
      rw [h.cycles, hsteps, hn]
    delayed := hdelay
    streams := h.elapsed.symm
    actions := h.actions.trans hsteps
    tiles := htiles.trans hstored
    storePhases := hstores.trans hstored
    hypercycles := hhyper.trans hhypers }

/-- **Exact timing.** A job that the port serves, however long each answer takes,
is one event for each of its subcycles, one that retires it and its completion.
Its report, the delays of those events, the answers of the port and the accounts
of the four streams agree on what it took. -/
theorem deliveries_exactTiming {ρ : Type} [Port ρ] {g : Geometry} (hg : g.validate = .ok ())
    {e : Engine} (he : Reachable ρ g e) (hidle : e.busy = false) {job : JobImage} {p : Plan}
    (hv : job.validate g = .ok p) (port : π) :
    ∃ e', start job (e, Recorded.fresh port) = .ok () (e', Recorded.fresh port) ∧
      (Obliges (e', Recorded.fresh port) → ¬ Overruns g p (e', Recorded.fresh port) →
        ∀ fuel, p.subcycles g + 2 ≤ fuel → ∃ events report e'' q,
          deliveries fuel (e', Recorded.fresh port) = .ok (events, some report) (e'', q) ∧
          ExactTiming g p q.journal events report) := by
  have hvalid := Geometry.validate_eq_ok_iff.mp hg
  have hp := (JobImage.accepted_of_validate hv).sound hvalid
  obtain ⟨e', htaken, hstart⟩ := he.taken (π := Recorded π) hvalid hidle hv
  refine ⟨e', hstart _, fun hport hclock fuel hfuel => ?_⟩
  obtain ⟨delay, report, e'', q, hdrain, -⟩ :=
    (htaken.ending hvalid hp _ fuel).reports hport hclock hfuel
  have hdrained := htaken.drained hvalid hp (Recorded.fresh port) fuel
  rw [hdrain] at hdrained
  rw [drain_eq_deliveries] at hdrain
  split at hdrain
  · next events report' st' hdel =>
    cases hdrain
    have hevents := htaken.onTrack.events hvalid hp htaken.pending
      (by rw [htaken.station]; exact Nat.zero_add _) hdel
    cases hdrained with
    | @reported log e₁ _ _ d hruns hpend hfin hdelay =>
      have htrack := ((hruns.along hvalid hp (kept_logged hvalid hp)
        (htaken.along htaken.logged)).of_pending hpend).1
      refine ⟨events, _, _, q, hdel, htrack.exactTiming hfin ?_ hevents ?_⟩
      · rw [hruns.journal, waited_eq_sum]
        simp [Recorded.fresh, Function.comp_def]
      · rw [← hdelay, Nat.zero_add]
  · cases hdrain

/-- A job with a leftover on every axis, on a memory that takes three cycles to
answer. -/
theorem deliveries_exactTiming_ragged : ∃ e e' : Engine, create .narrow = .ok e ∧
    start (.ragged 0x200 0x300) (e, Recorded.fresh (Memory.zeroed 0 0x400 3)) =
      .ok () (e', Recorded.fresh (Memory.zeroed 0 0x400 3)) ∧
    ∀ fuel, 212 ≤ fuel → ∃ events report e'' q,
      deliveries fuel (e', Recorded.fresh (Memory.zeroed 0 0x400 3)) =
        .ok (events, some report) (e'', q) ∧
      ExactTiming .narrow (.ragged 0x200 0x300) q.journal events report := by
  have hvalid := Geometry.validate_eq_ok_iff.mp Geometry.validate_narrow
  obtain ⟨e, he, -, hidle⟩ := create_fits hvalid
  have hv := JobImage.validate_ragged 0x200 0x300
  have hreach := Reachable.created (π := Memory) he
  obtain ⟨e', hstart, htiming⟩ := deliveries_exactTiming Geometry.validate_narrow hreach hidle hv
    (Memory.zeroed 0 0x400 3)
  obtain ⟨e₁, htaken, hstart₁⟩ := hreach.taken (π := Recorded Memory) hvalid hidle hv
  rw [hstart₁] at hstart
  cases hstart
  obtain ⟨hport, hclock⟩ := htaken.served_ragged backed_recorded
    (.fresh (.zeroed 0 0x400 3)) rfl rfl rfl
  exact ⟨e, e', he, hstart₁ _, htiming hport hclock⟩

end SystolicGemm.Engine
