import SystolicGemm.Proofs.Engine.Confined
import SystolicGemm.Proofs.Job.Packed

/-!
# Any register image is safe to trigger

Whatever has been written to the registers, an idle engine refuses the job or takes it.
What can become of a job that it takes is an `Ending`, whatever the port answers.
-/

namespace SystolicGemm.Engine

variable {π : Type} [Port π]

/-- **Any register image is safe to trigger.** An engine that no job occupies
refuses the image and stays as it was, or takes it. From then on nothing but the
port and the clock stops it, and if neither does, the job ends in its report with
every beat of every stream moved. -/
theorem trigger_safe {ρ : Type} [Port ρ] {g : Geometry} (hg : g.validate = .ok ()) {e : Engine}
    (he : Reachable ρ g e) (hidle : e.busy = false) (writes : List (UInt32 × UInt32)) (port : π) :
    let job := (RegisterFile.reset.writeAll writes).job
    (∃ flaw, start job (e, port) = .error (.error (.job flaw)) (e, port)) ∨
    ∃ p e', job.validate g = .ok p ∧ start job (e, port) = .ok () (e', port) ∧
      (∀ fuel, Ending g p (e', port) fuel (drain fuel (e', port))) ∧
      (Obliges (e', port) → ¬ Overruns g p (e', port) → ∀ fuel, p.subcycles g + 2 ≤ fuel →
        ∃ delay report e'' port', drain fuel (e', port) = .ok (delay, some report) (e'', port') ∧
          ∀ o, (e''.stream o).done = (p.pattern o).total) := by
  intro job
  have hvalid := Geometry.validate_eq_ok_iff.mp hg
  have hpacked : job.Packed := RegisterFile.packed_writeAll JobImage.packed_blank writes
  cases hv : job.validate g with
  | error stop =>
    cases stop with
    -- the fields of a register image are too small for a check to trap
    | trap t => exact absurd hv (hpacked.untrapped_validate hvalid t)
    | error flaw =>
      exact .inl ⟨flaw, start_refused (he.fits hvalid hidle) hidle hvalid hv port⟩
  | ok p =>
    obtain ⟨e', htaken, hstart⟩ := he.taken hvalid hidle hv
    have hp := (JobImage.accepted_of_validate hv).sound hvalid
    have hends := htaken.ending hvalid hp port
    exact .inr ⟨p, e', rfl, hstart port, hends,
      fun hport hclock fuel hfuel => (hends fuel).reports hport hclock hfuel⟩

/-- A job with a leftover on every axis, programmed register by register. The memory serves
it, and it ends with every beat of every stream moved. -/
theorem trigger_safe_ragged : ∃ e e' : Engine, create .narrow = .ok e ∧
    start (RegisterFile.reset.writeAll (JobImage.ragged 0x200 0x300).writes).job
      (e, Memory.filled 3) = .ok () (e', Memory.filled 3) ∧
    (∀ fuel, Ending .narrow (.ragged 0x200 0x300) (e', Memory.filled 3) fuel
      (drain fuel (e', Memory.filled 3))) ∧
    Obliges (e', Memory.filled 3) ∧
    ¬ Overruns .narrow (.ragged 0x200 0x300) (e', Memory.filled 3) ∧
    ∀ fuel, 212 ≤ fuel → ∃ delay report e'' m,
      drain fuel (e', Memory.filled 3) = .ok (delay, some report) (e'', m) ∧
        (e''.stream .x).done = 24 ∧ (e''.stream .w).done = 36 ∧ (e''.stream .y).done = 16 ∧
        (e''.stream .z).done = 16 := by
  have hvalid := Geometry.validate_eq_ok_iff.mp Geometry.validate_narrow
  obtain ⟨e, he, -, hidle⟩ := create_fits hvalid
  have hreach := Reachable.created (π := Memory) he
  have hjob : (RegisterFile.reset.writeAll (JobImage.ragged 0x200 0x300).writes).job =
      .ragged 0x200 0x300 := by decide
  have hv : (JobImage.ragged 0x200 0x300).validate .narrow = .ok (.ragged 0x200 0x300) := rfl
  obtain ⟨e₁, htaken, hstart₁⟩ := hreach.taken (π := Memory) hvalid hidle hv
  have hsafe := trigger_safe Geometry.validate_narrow hreach hidle
    (JobImage.ragged 0x200 0x300).writes (Memory.filled 3)
  rw [hjob] at hsafe ⊢
  rcases hsafe with ⟨flaw, hrefused⟩ | ⟨p, e', hvalidate, hstart, hends, hreports⟩
  · rw [hstart₁] at hrefused
    cases hrefused
  · rw [hv] at hvalidate
    cases hvalidate
    rw [hstart₁] at hstart
    cases hstart
    obtain ⟨hport, hclock⟩ := htaken.served_ragged backed_self (.filled 3) rfl rfl rfl
    refine ⟨e, e₁, he, hstart₁ _, hends, hport, hclock, fun fuel hfuel => ?_⟩
    obtain ⟨delay, report, e'', m, hdrain, hdone⟩ := hreports hport hclock fuel hfuel
    exact ⟨delay, report, e'', m, hdrain, hdone .x, hdone .w, hdone .y, hdone .z⟩

end SystolicGemm.Engine
