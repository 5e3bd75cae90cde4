import SystolicGemm.Bench.Basic
import SystolicGemm.Proofs.Bench.Workload
import SystolicGemm.Proofs.Simulation.Step

/-!
# Benches of accepted configurations

A configuration that is accepted leads to a bench: its operands fit the memory, and the
job that asks for the problem is queued.
-/

namespace SystolicGemm

namespace Bench

/-- **An accepted configuration leads to a bench**, with the operands in memory and the
job programmed and triggered. -/
theorem exists_create {c : Config} {layout : Layout} (h : c.Accepted layout) {s : Simulation}
    (hs : Simulation.create c.rawGeometry = .ok s) (watch : Watch) :
    ∃ b m, create c watch = .ok (b, m) ∧ c.blankMemory.Alike m ∧
      b.simulation = (s.injectJob (c.shape.image c.rawGeometry layout)).injectTrigger ∧
      b.maxSteps = c.run.maxSteps ∧ b.steps = 0 := by
  obtain ⟨ops, hworkload, hfill, -⟩ := Workload.exists_ofConfig h
  obtain ⟨m, hstore, hstored⟩ := Workload.exists_store h hfill
  have hqueued : Workload.simulation ⟨c.rawGeometry, c.shape, layout, ops⟩ =
      .ok (s.injectJob (c.shape.image c.rawGeometry layout)).injectTrigger := by
    rw [Workload.simulation, hs, ok_bind, h.fits.ofShape_eq h.valid layout, ok_bind, pure_eq_ok]
  unfold Config.blankMemory at hstore
  rw [create, hworkload, ok_bind, hstore, ok_bind, hqueued, liftM_ok, ok_bind]
  exact ⟨_, m, rfl, hstored.alike, rfl, rfl, rfl⟩

end Bench

end SystolicGemm
