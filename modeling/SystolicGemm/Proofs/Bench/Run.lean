import SystolicGemm.Proofs.Bench.Create
import SystolicGemm.Proofs.Engine.Confined
import SystolicGemm.Proofs.Simulation.Steps

/-!
# Runs of accepted configurations

Nothing is checked any more once a bench runs: what an accepted configuration asks
for is computed. The registers give the job back as it was written to them, the
engine takes it, memory serves each of its beats, and the interrupt comes after as
many steps as shape and array say, or the step limit ends the run before.
-/

namespace SystolicGemm

/-! ## What a problem takes -/

namespace Shape

/-- Subcycles of a problem. -/
def subcycles (s : Shape) (g : Geometry) : Nat :=
  3 * g.width + s.rowTiles g * s.wColTiles g * (s.colTiles g * g.width * g.depth) +
    g.height * g.depth *
      (2 * (s.rowTiles g * s.wColTiles g) - 1 + (s.rowTiles g - 1) * min (s.colTiles g) 2)

/-- Beats of a problem: those of X, of W, and of Y and Z. -/
def beats (s : Shape) (g : Geometry) : Nat :=
  g.width * s.colTiles g * s.rowTiles g + s.n * s.wColTiles g * s.rowTiles g +
    2 * (g.width * s.wColTiles g * s.rowTiles g)

/-- Cycles of a problem, if each beat takes so many. -/
def cycles (s : Shape) (g : Geometry) (latency : Nat) : Nat :=
  s.subcycles g + latency * s.beats g

end Shape

namespace Plan.Plans

variable {p : Plan} {s : Shape} {g : Geometry} {layout : Layout} (h : p.Plans s g layout)

include h

theorem subcycles_eq : p.subcycles g = s.subcycles g := by
  rw [subcycles, tiles, h.xRowTiles, h.colTiles, h.wColTiles]
  rfl

theorem jobBeats_eq : Engine.jobBeats g p = s.beats g := by
  have hn : p.n = s.n := h.cols .x
  simp only [Engine.jobBeats, beats, lines, columns, hn, h.xRowTiles, h.colTiles, h.wColTiles,
    Shape.beats]
  omega

/-- A memory with the matrices inside has all cells of the job. -/
theorem inside {m : Memory} (hholds : layout.Holds s g.elementBytes)
    (hin : layout.Inside s m.base m.size) : p.Inside g m := by
  intro o r i hr hi
  rw [h.rows] at hr
  rw [h.cols] at hi
  rw [rowAddr, h.base, h.pitch]
  exact hin.has hholds hr hi

end Plan.Plans

/-! ## Runs -/

namespace Bench

variable {π : Type} {b : Bench} {s : Simulation} {q q' : π} {report : JobReport}

theorem maxSteps_stepped (b : Bench) (s : Simulation) : (b.stepped s).maxSteps = b.maxSteps := by
  show b.showMessages.maxSteps = b.maxSteps
  simp only [showMessages]
  cases b.watch.trace <;> rfl

theorem report_none (h : b.simulation.host.irqRecords = []) (q : π) :
    Bench.report (b, q) = .ok none (b, q) := by
  simp only [Bench.report, report?, h, List.head?_nil]

/-- The report is the one that the device has sent. -/
theorem report_some (h : b.simulation.host.irqRecords = [report.render]) (hfits : report.Fits)
    (q : π) : Bench.report (b, q) = .ok (some report) (b, q) := by
  simp only [Bench.report, report?, h, List.head?_cons, JobReport.ofText?_render hfits]

variable [Port π]

/-- Below the limit, a step of the bench is one of the simulation. -/
theorem step_made (hlt : b.steps < b.maxSteps)
    (h : Simulation.step (b.simulation, q) = .ok true (s, q')) :
    step (b, q) = .ok true (b.stepped s, q') := by
  simp only [step, if_neg (Nat.not_le_of_lt hlt), h]

theorem runFor_reported (h : b.simulation.host.irqRecords = [report.render]) (hfits : report.Fits)
    (fuel : Nat) (q : π) : runFor (fuel + 1) (b, q) = .ok (some report) (b, q) := by
  simp only [runFor, report_some h hfits]

theorem runFor_limit (h : b.simulation.host.irqRecords = []) (hlimit : b.maxSteps ≤ b.steps)
    (fuel : Nat) (q : π) :
    runFor (fuel + 1) (b, q) = .error (.error (.stepLimit b.steps)) (b, q) := by
  simp only [runFor, report_none h, step, if_pos hlimit]

theorem runFor_made (h : b.simulation.host.irqRecords = []) (hlt : b.steps < b.maxSteps)
    (hstep : Simulation.step (b.simulation, q) = .ok true (s, q')) (fuel : Nat) :
    runFor (fuel + 1) (b, q) = runFor fuel (b.stepped s, q') := by
  simp only [runFor, report_none h, step_made hlt hstep]

/-- **A run goes on for as long as the host hears of nothing**, below the limit. -/
theorem runFor_unheard {n : Nat} {st st' : Simulation × π} (h : Simulation.Unheard n st st')
    (hb : b.simulation = st.1) (hnone : st.1.host.irqRecords = [])
    (hlimit : b.steps + n ≤ b.maxSteps) (fuel : Nat) :
    ∃ b' : Bench, runFor (fuel + n) (b, st.2) = runFor fuel (b', st'.2) ∧
      b'.simulation = st'.1 ∧ b'.steps = b.steps + n ∧ b'.maxSteps = b.maxSteps := by
  induction h generalizing b with
  | none => exact ⟨b, rfl, hb, rfl, rfl⟩
  | @next n st st₁ st' hstep hhost hrest ih =>
    have hlimit' : (b.stepped st₁.1).steps + n ≤ (b.stepped st₁.1).maxSteps := by
      rw [maxSteps_stepped]
      show b.steps + 1 + n ≤ b.maxSteps
      omega
    obtain ⟨b', hrun, hsimulation, hsteps, hmax⟩ :=
      ih (b := b.stepped st₁.1) rfl (hhost ▸ hnone) hlimit'
    refine ⟨b', ?_, hsimulation, ?_, hmax.trans (maxSteps_stepped b st₁.1)⟩
    · rw [← hrun]
      exact runFor_made (hb ▸ hnone) (by omega) (hb ▸ hstep) (fuel + n)
    · rw [hsteps]
      show b.steps + 1 + n = b.steps + (n + 1)
      omega

variable {n : Nat} {st st₁ st' : Simulation × π} (h : Simulation.Notifies n report st st₁ st')
  (hb : b.simulation = st.1) (hnone : st.1.host.irqRecords = [])

include h hb hnone

/-- **A run ends with the report** if the limit lets it get there. -/
theorem run_notified (hfits : report.Fits) (hlimit : b.steps + (n + 1) ≤ b.maxSteps) :
    ∃ b' : Bench, run (b, st.2) = .ok (some report) (b', st'.2) ∧ b'.simulation = st'.1 ∧
      b'.steps = b.steps + (n + 1) := by
  obtain ⟨left, hleft⟩ : ∃ left, b.maxSteps - b.steps + 1 = left + 1 + 1 + n :=
    ⟨b.maxSteps - b.steps - (n + 1), by omega⟩
  obtain ⟨b₁, hrun, hsimulation, hsteps, hmax⟩ :=
    runFor_unheard h.unheard hb hnone (by omega) (left + 1 + 1)
  have hnone₁ : b₁.simulation.host.irqRecords = [] := by
    rw [hsimulation, h.unheard.host_eq, hnone]
  have hheard : (b₁.stepped st'.1).simulation.host.irqRecords = [report.render] := by
    show st'.1.host.irqRecords = _
    rw [h.host, Host.interrupted, Host.record, Host.irqRecords, List.filterMap_append]
    show st.1.host.irqRecords ++ _ = _
    rw [hnone]
    rfl
  have hstep : Simulation.step (b₁.simulation, st₁.2) = .ok true (st'.1, st'.2) := by
    rw [hsimulation]
    exact h.heard
  refine ⟨b₁.stepped st'.1, ?_, rfl, ?_⟩
  · simp only [run, hleft, hrun]
    rw [runFor_made hnone₁ (by omega) hstep, runFor_reported hheard hfits]
  · show b₁.steps + 1 = _
    omega

/-- **A run ends at the limit** if that comes first. -/
theorem run_cut (hle : b.steps ≤ b.maxSteps) (hlimit : b.maxSteps < b.steps + (n + 1)) :
    ∃ (b' : Bench) (q' : π), run (b, st.2) = .error (.error (.stepLimit b.maxSteps)) (b', q') := by
  obtain ⟨mid, hmid⟩ := h.unheard.take (r := b.maxSteps - b.steps) (by omega)
  obtain ⟨b', hrun, hsimulation, hsteps, hmax⟩ := runFor_unheard hmid hb hnone (by omega) 1
  have hsteps' : b'.steps = b.maxSteps := by omega
  have hnone' : b'.simulation.host.irqRecords = [] := by
    rw [hsimulation, hmid.host_eq, hnone]
  refine ⟨b', mid.2, ?_⟩
  simp only [run, Nat.add_comm _ 1, hrun]
  rw [runFor_limit hnone' (by omega), hsteps']

end Bench

/-! ## From the configuration to the result -/

/-- A bench that is about to run the job that a configuration asks for: the registers
give it back as it was written, the engine takes it, and memory serves it. -/
structure Bench.Ready (c : Config) (b : Bench) (m : Memory) (s : Simulation) (job : JobImage)
    (p : Plan) (e : Engine) : Prop where
  created : Simulation.create c.rawGeometry = .ok s
  image : ∃ layout, c.layout = .ok layout ∧
    JobImage.ofShape c.shape c.rawGeometry layout = .ok job
  queued : b.simulation = (s.injectJob job).injectTrigger
  survives : ∀ f : RegisterFile, (f.writeAll job.writes).job = job
  accepted : job.validate c.rawGeometry = .ok p
  n : p.n = c.job.n
  k : p.k = c.job.k
  xRowTiles : p.xRowTiles = Config.tilesOver c.job.m c.rawGeometry.width
  colTiles : p.colTiles = Config.tilesOver c.job.n c.rawGeometry.width
  wColTiles : p.wColTiles = Config.tilesOver c.job.k c.rawGeometry.width
  started : Engine.start job (s.device.engine, m) = .ok () (e, m)
  served : Engine.Obliges (e, m)

/-- **Validation is enough.** A configuration that is accepted, wherever it puts its
matrices, leads to a bench whose job the registers hold, the engine takes and memory
serves. If the clock counts its cycles, the run ends with its report after as many
steps as it has subcycles and three, unless the step limit comes first, which is then
what the run ends with. What is watched makes no difference. -/
theorem Bench.run_of_validate {c : Config} (hv : c.validate = .ok ())
    (hclock : c.shape.cycles c.rawGeometry c.memory.latency < 2 ^ 53) (watch : Watch) :
    ∃ b m s job p e, create c watch = .ok (b, m) ∧ Ready c b m s job p e ∧
      (c.shape.subcycles c.rawGeometry + 3 ≤ c.run.maxSteps → ∃ report b' m' events e',
        run (b, m) = .ok (some report) (b', m') ∧
        b'.steps = c.shape.subcycles c.rawGeometry + 3 ∧
        report.cycles = c.shape.cycles c.rawGeometry c.memory.latency ∧
        b'.simulation.time = .ofNat .double report.cycles ∧
        Engine.deliveries (c.shape.subcycles c.rawGeometry + 2) (e, m) =
          .ok (events, some report) (e', m')) ∧
      (c.run.maxSteps < c.shape.subcycles c.rawGeometry + 3 → ∃ b' m',
        run (b, m) = .error (.error (.stepLimit c.run.maxSteps)) (b', m')) := by
  obtain ⟨layout, hc⟩ := Config.exists_accepted hv
  have hg := hc.valid
  -- the bench, and the job that it has queued
  obtain ⟨s, hs, hsound, hidle, hqueue, -⟩ := Simulation.create_sound hg
  obtain ⟨hhost, htime⟩ := Simulation.create_fresh hs
  obtain ⟨b, m, hcreate, halike, hqueued, hmax, hsteps⟩ := exists_create hc hs watch
  obtain ⟨p, hp⟩ := hc.fits.exists_validate hg hc.holds
  have hplans := hc.fits.plans hp
  have haccepted := JobImage.accepted_of_validate hp
  have hpsound := haccepted.sound hg
  have hpacked := haccepted.packed hg (lt_of_eq_of_lt hplans.xRowTiles hc.fits.rowTiles_lt)
    (lt_of_eq_of_lt hplans.colTiles hc.fits.colTiles_lt)
    (lt_of_eq_of_lt hplans.wColTiles hc.fits.wColTiles_lt)
  -- memory has all cells of it
  have hinside : p.Inside c.rawGeometry m := by
    refine hplans.inside hc.holds ?_
    rw [halike.base, halike.size]
    exact hc.inside
  have hcycles : p.subcycles c.rawGeometry + m.latency * Engine.jobBeats c.rawGeometry p =
      c.shape.cycles c.rawGeometry c.memory.latency := by
    rw [hplans.subcycles_eq, hplans.jobBeats_eq, halike.latency]
    rfl
  obtain ⟨e, htaken, hstart⟩ := hsound.device.standing.taken (π := Memory) hg hidle hp
  have hserved := htaken.obliges_of_inside Engine.backed_self hg hpsound hinside
  have hlimit : 2 ^ 53 < Word.limit := by decide
  have hcounts := htaken.not_overruns_of_lt Engine.backed_self hg hpsound hinside
    (by rw [hcycles]; exact Nat.lt_trans hclock hlimit)
  -- and so the job is carried out
  obtain ⟨events, report, e', m', st₁, s', hdel, hnotifies, hfits, -, hsum, htime'⟩ :=
    hsound.carried hg hqueue hidle (RegisterFile.job_writeAll _ hpacked) hpsound htaken (hstart m)
      hserved hcounts
  rw [hplans.subcycles_eq, ← hqueued] at hnotifies
  rw [hplans.subcycles_eq] at hdel
  have hnone : b.simulation.host.irqRecords = [] := by
    rw [hqueued, Simulation.injectTrigger_injectJob, hhost]
    rfl
  refine ⟨b, m, s, c.shape.image c.rawGeometry layout, p, e, hcreate, ?_, fun hle => ?_,
    fun hlt => ?_⟩
  · exact {
      created := hs
      image := ⟨layout, hc.placed, hc.fits.ofShape_eq hg layout⟩
      queued := hqueued
      survives := fun f => f.job_writeAll hpacked
      accepted := hp
      n := hplans.cols .x
      k := hplans.cols .w
      xRowTiles := hplans.xRowTiles
      colTiles := hplans.colTiles
      wColTiles := hplans.wColTiles
      started := hstart m
      served := hserved }
  · obtain ⟨b', hrun, hsimulation, hsteps'⟩ := run_notified hnotifies rfl hnone hfits (by omega)
    have hdrain := Engine.drain_eq_deliveries (c.shape.subcycles c.rawGeometry + 2) (e, m)
    rw [hdel] at hdrain
    have hreport := htaken.cycles_eq Engine.backed_self hg hpsound hinside hdrain
    rw [hcycles] at hreport
    refine ⟨report, b', m', events, e', hrun, by omega, hreport, ?_, hdel⟩
    have hzero : s.time = .ofNat .double 0 := by
      rw [htime]
      decide
    rw [hsimulation]
    dsimp only
    rw [htime', hzero, Simulation.elapsed_ofNat (by omega), Nat.zero_add, hsum]
  · obtain ⟨b', q', hrun⟩ := run_cut hnotifies rfl hnone (by omega) (by omega)
    rw [hmax] at hrun
    exact ⟨b', q', hrun⟩

/-- A problem with a leftover on every axis whose matrices lie across each other. -/
def Config.overlapping (maxSteps : Nat) : Config where
  array := ⟨2, 2, .fp16⟩
  memory := ⟨0x100, 0x100, 3⟩
  job := ⟨7, 9, 6, 42, 2, some 0x100, some 0x120, some 0x110, some 0x100⟩
  run := ⟨true, false, "", maxSteps⟩

/-- It takes 213 steps, and a limit of one less cuts it off. -/
theorem Bench.run_of_validate_overlapping :
    (Config.overlapping 213).validate = .ok () ∧ (Config.overlapping 212).validate = .ok () ∧
      (∃ b m report b' m', create (.overlapping 213) .blind = .ok (b, m) ∧
        run (b, m) = .ok (some report) (b', m') ∧ b'.steps = 213 ∧ report.cycles = 486) ∧
      ∃ b m b' m', create (.overlapping 212) .blind = .ok (b, m) ∧
        run (b, m) = .error (.error (.stepLimit 212)) (b', m') := by
  have hv : ∀ limit, (Config.overlapping limit).validate = .ok () := by
    intro limit
    cbv
  obtain ⟨b, m, _, _, _, _, hcreate, -, hrun, -⟩ :=
    run_of_validate (hv 213) (by decide) .blind
  obtain ⟨report, b', m', _, _, hok, hsteps, hcycles, -⟩ := hrun (by decide)
  obtain ⟨b₂, m₂, _, _, _, _, hcreate₂, -, -, hcut⟩ := run_of_validate (hv 212) (by decide) .blind
  obtain ⟨b₂', m₂', herror⟩ := hcut (by decide)
  exact ⟨hv 213, hv 212, ⟨b, m, report, b', m', hcreate, hok, hsteps, hcycles⟩,
    b₂, m₂, b₂', m₂', hcreate₂, herror⟩

end SystolicGemm
