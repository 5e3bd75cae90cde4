import SystolicGemm.Proofs.Engine.Hosted

/-!
# The product in memory

A job on a flat memory that has all of its cells leaves the product in the cells
of Z and every other byte as it was: with Z apart from the other matrices
(`drain_computes`), and with Z in the place of Y (`drain_computes_inPlace`).

Both come down to `Undisturbed`. That no beat reads what a beat of Z has written
before is a statement about the order of a run, too, and `Unspoilt` is that
statement for a log.
-/

namespace SystolicGemm.Engine

variable {g : Geometry} {p : Plan} {e : Engine} {n : Nat}

/-! ## The order of beats -/

/-- Whether no beat of X, W or Y moves a byte that an earlier beat of Z has
written. -/
def Unspoilt (log : List Beat) : Prop :=
  log.Pairwise fun a b => a.operand = .z → b.operand ≠ .z →
    ∀ j ∈ Memory.enabled a.request, ∀ i ∈ Memory.enabled b.request,
      b.request.addr + i ≠ a.request.addr + j

/-- A beat of a log is one of those that its station counts. -/
theorem OnTrack.isBeat_of_mem (h : e.OnTrack g p n) (hp : p.Sound g) {log : List Beat}
    (hlog : Logged g p log e.station) {a : Beat} (ha : a ∈ log) :
    ∃ u < e.station.moved g p a.operand, IsBeat g p a.request a.operand u := by
  obtain ⟨u, hu, houtline⟩ := hlog.exists_outline ha
  exact ⟨u, hu, Nat.lt_of_lt_of_le hu (h.loaded.moved_le hp a.operand), houtline⟩

/-- The next beat moves no byte that Z has been written to. -/
theorem OnTrack.apart_of_mem (h : e.OnTrack g p n) (hg : g.Valid) (hp : p.Sound g)
    (hu : p.Undisturbed g) {log : List Beat} (hlog : Logged g p log e.station) {t : Transfer}
    (hpay : payload? g p e.tile e.phase = some (.transfer t)) (ht : t.operand ≠ .z) {a : Beat}
    (ha : a ∈ log) (hz : a.operand = .z) {i j : Nat} (hj : j ∈ Memory.enabled a.request)
    (hi : i ∈ Memory.enabled (e.request g p t)) :
    (e.request g p t).addr + i ≠ a.request.addr + j := by
  have hbeat := h.isBeat hg hp hpay
  obtain ⟨u, hlt, hbeat'⟩ := h.isBeat_of_mem hp hlog ha
  rw [hz] at hlt hbeat'
  obtain ⟨hi, hc⟩ := (hbeat.mem_enabled hg hp).mp hi
  obtain ⟨hj, hc'⟩ := (hbeat'.mem_enabled hg hp).mp hj
  rw [hbeat.addr, hbeat'.addr]
  -- Y is ahead of Z, so the beat of Y is the later one
  refine hu _ _ i u j ht hbeat.lt hbeat'.lt (fun hy => ?_) hi hj hc hc'
  rw [hy]
  exact Nat.lt_of_lt_of_le hlt e.station.z_le_y

variable {π : Type} [Port π]

/-- **No beat comes too late.** -/
theorem kept_unspoilt (hg : g.Valid) (hp : p.Sound g) (hu : p.Undisturbed g) :
    Kept g p fun log e (_ : π) => Logged g p log e.station ∧ Unspoilt log where
  idle := by
    rintro log e port pay h ⟨hlog, hun⟩ hpay hbeat
    exact ⟨hlog.idle hg hp h hpay hbeat 1 [], hun⟩
  served := by
    rintro log e port port' t reply h ⟨hlog, hun⟩ hpay hacc hstatus
    refine ⟨hlog.served hg hp h hpay hstatus _ _, ?_⟩
    refine List.pairwise_append.mpr ⟨hun, List.pairwise_singleton _ _, fun a ha b hb => ?_⟩
    rw [List.mem_singleton.mp hb]
    intro hz ht j hj i hi
    exact h.apart_of_mem hg hp hu hlog hpay ht ha hz hj hi

theorem Taken.unspoilt (h : e.Taken g p) (hg : g.Valid) (hp : p.Sound g) (hu : p.Undisturbed g)
    {port : π} {log : List Beat} {st : Engine × π} (hruns : Runs (e, port) log st) :
    Unspoilt log := by
  have halong := hruns.along hg hp (kept_unspoilt hg hp hu) (h.along ⟨h.logged, List.Pairwise.nil⟩)
  cases halong with
  | running _ _ hinv | retired _ _ hinv => exact hinv.2

/-! ## What a job leaves behind -/

/-- What a job that has reported leaves in its memory. -/
theorem Taken.computes (h : e.Taken g p) (hg : g.Valid) (hp : p.Sound g) {m m' : Memory}
    (hin : p.Inside g m) (hu : p.Undisturbed g) {fuel delay : Nat} {report : JobReport}
    {e' : Engine} (hdrain : drain fuel (e, m) = .ok (delay, some report) (e', m')) :
    p.Computes g m m' ∧ report.cycles = p.subcycles g + m.latency * jobBeats g p := by
  obtain ⟨log, e₁, d, hruns, hpend, hfin, -⟩ := h.completed hg hp hdrain
  obtain ⟨-, hstocked⟩ := (h.hosted backed_self hg hp hin hu hruns).of_pending hpend
  have hover := hstocked.overlaid
  rw [moved_of_finished hfin] at hover
  exact ⟨hover.computes hp hin, h.cycles_eq backed_self hg hp hin hdrain⟩

/-- A job on a memory that has all of its cells gets to its report. -/
theorem Taken.reports (h : e.Taken g p) (hg : g.Valid) (hp : p.Sound g) {m : Memory}
    (hin : p.Inside g m) (hclock : p.subcycles g + m.latency * jobBeats g p < Word.limit)
    {fuel : Nat} (hfuel : p.subcycles g + 2 ≤ fuel) :
    ∃ delay report e' m', drain fuel (e, m) = .ok (delay, some report) (e', m') := by
  obtain ⟨delay, report, e', m', hdrain, -⟩ := (h.ending hg hp m fuel).reports
    (h.obliges_of_inside backed_self hg hp hin)
    (h.not_overruns_of_lt backed_self hg hp hin hclock) hfuel
  exact ⟨delay, report, e', m', hdrain⟩

variable {ρ : Type} [Port ρ] {job : JobImage} {m : Memory}

/-- **End to end.** A job on a memory that has all of its cells, with Z apart from
the other matrices, ends in its report and leaves `Y + X * W` in Z. -/
theorem drain_computes (hg : g.validate = .ok ()) (he : Reachable ρ g e) (hidle : e.busy = false)
    (hv : job.validate g = .ok p) (hin : p.Inside g m) (hapart : ∀ o, o ≠ .z → p.Apart g o)
    (hclock : p.subcycles g + m.latency * jobBeats g p < Word.limit) :
    ∃ e', start job (e, m) = .ok () (e', m) ∧ ∀ fuel, p.subcycles g + 2 ≤ fuel →
      ∃ delay report e'' m', drain fuel (e', m) = .ok (delay, some report) (e'', m') ∧
        p.Computes g m m' ∧ report.cycles = p.subcycles g + m.latency * jobBeats g p := by
  have hvalid := Geometry.validate_eq_ok_iff.mp hg
  have hp := (JobImage.accepted_of_validate hv).sound hvalid
  have hu := Plan.undisturbed_of_apart hapart
  obtain ⟨e', htaken, hstart⟩ := he.taken (π := Memory) hvalid hidle hv
  refine ⟨e', hstart m, fun fuel hfuel => ?_⟩
  obtain ⟨delay, report, e'', m', hdrain⟩ := htaken.reports hvalid hp hin hclock hfuel
  exact ⟨delay, report, e'', m', hdrain, htaken.computes hvalid hp hin hu hdrain⟩

/-- A job with a leftover on every axis, and the last cell of its product. -/
theorem drain_computes_ragged : ∃ e e' : Engine, create .narrow = .ok e ∧
    start (.ragged 0x200 0x300) (e, Memory.filled 3) = .ok () (e', Memory.filled 3) ∧
    ∀ fuel, 212 ≤ fuel → ∃ delay report e'' m',
      drain fuel (e', Memory.filled 3) = .ok (delay, some report) (e'', m') ∧
        (Plan.ragged 0x200 0x300).Computes .narrow (Memory.filled 3) m' ∧
        m'.readBytes? 0x35E 2 = some [0x7C, 0x4B] ∧ report.cycles = 486 := by
  obtain ⟨e, he, -, hidle⟩ := create_fits (Geometry.validate_eq_ok_iff.mp Geometry.validate_narrow)
  have hv : (JobImage.ragged 0x200 0x300).validate .narrow = .ok (.ragged 0x200 0x300) := rfl
  have hin : (Plan.ragged 0x200 0x300).Inside .narrow (Memory.filled 3) :=
    Plan.inside_ragged rfl rfl (by decide) (by decide)
  obtain ⟨e', hstart, hreports⟩ := drain_computes Geometry.validate_narrow
    (Reachable.created (π := Memory) he) hidle hv hin (fun _ ho => Plan.apart_ragged_of_ne ho)
    (by decide)
  have hcell : Geometry.narrow.format.encode
      ((Plan.ragged 0x200 0x300).gemm .narrow (Memory.filled 3) 6 5) = [0x7C, 0x4B] := by
    decide +kernel
  refine ⟨e, e', he, hstart, fun fuel hfuel => ?_⟩
  obtain ⟨delay, report, e'', m', hdrain, hcomputes, hcycles⟩ := hreports fuel hfuel
  have hlast := hcomputes.cells 6 5 (by decide) (by decide)
  rw [hcell] at hlast
  exact ⟨delay, report, e'', m', hdrain, hcomputes, hlast, hcycles⟩

/-- **In place.** With Z in the place of Y a job that has reported has left the
product there, and whatever a run has done so far, no beat has moved a byte that Z
had been written to before. -/
theorem drain_computes_inPlace (hg : g.validate = .ok ()) (he : Reachable ρ g e)
    (hidle : e.busy = false) (hv : job.validate g = .ok p) (hplace : job.yAddr = job.zAddr)
    (hin : p.Inside g m) (hx : p.Apart g .x) (hw : p.Apart g .w) :
    ∃ e', start job (e, m) = .ok () (e', m) ∧
      (∀ fuel delay report e'' m', drain fuel (e', m) = .ok (delay, some report) (e'', m') →
        p.Computes g m m') ∧
      (∀ log st, Runs (e', m) log st → Unspoilt log) ∧
      (p.subcycles g + m.latency * jobBeats g p < Word.limit → ∀ fuel, p.subcycles g + 2 ≤ fuel →
        ∃ delay report e'' m', drain fuel (e', m) = .ok (delay, some report) (e'', m')) := by
  have hvalid := Geometry.validate_eq_ok_iff.mp hg
  have hacc := JobImage.accepted_of_validate hv
  have hp := hacc.sound hvalid
  have hbase : p.y.base = p.z.base := by rw [hacc.y, hacc.z, hplace]
  have hpitch : p.pitch .y = p.pitch .z := by
    rw [Plan.pitch, Plan.pitch, Plan.pattern, Plan.pattern, hacc.y, hacc.z]
  have hu := hp.undisturbed_of_inPlace hbase hpitch hx hw
  obtain ⟨e', htaken, hstart⟩ := he.taken (π := Memory) hvalid hidle hv
  exact ⟨e', hstart m, fun _ _ _ _ _ hdrain => (htaken.computes hvalid hp hin hu hdrain).1,
    fun _ _ hruns => htaken.unspoilt hvalid hp hu hruns,
    fun hclock _ hfuel => htaken.reports hvalid hp hin hclock hfuel⟩

/-- The same job with Y and Z in one place, where the last cell of Y is 1.375. -/
theorem drain_computes_inPlace_ragged : ∃ e e' : Engine, create .narrow = .ok e ∧
    start (.ragged 0x200 0x200) (e, Memory.filled 3) = .ok () (e', Memory.filled 3) ∧
    (Memory.filled 3).readBytes? 0x25E 2 = some [0x80, 0x3D] ∧
    (∀ fuel delay report e'' m',
      drain fuel (e', Memory.filled 3) = .ok (delay, some report) (e'', m') →
        (Plan.ragged 0x200 0x200).Computes .narrow (Memory.filled 3) m' ∧
        m'.readBytes? 0x25E 2 = some [0x7C, 0x4B]) ∧
    (∀ log st, Runs (e', Memory.filled 3) log st → Unspoilt log) ∧
    ∀ fuel, 212 ≤ fuel → ∃ delay report e'' m',
      drain fuel (e', Memory.filled 3) = .ok (delay, some report) (e'', m') := by
  obtain ⟨e, he, -, hidle⟩ := create_fits (Geometry.validate_eq_ok_iff.mp Geometry.validate_narrow)
  have hv : (JobImage.ragged 0x200 0x200).validate .narrow = .ok (.ragged 0x200 0x200) := rfl
  have hin : (Plan.ragged 0x200 0x200).Inside .narrow (Memory.filled 3) :=
    Plan.inside_ragged rfl rfl (by decide) (by decide)
  obtain ⟨e', hstart, hcomputes, hunspoilt, hreports⟩ := drain_computes_inPlace
    Geometry.validate_narrow (Reachable.created (π := Memory) he) hidle hv rfl hin
    (Plan.apart_ragged (by decide)) (Plan.apart_ragged (by decide))
  have hcell : Geometry.narrow.format.encode
      ((Plan.ragged 0x200 0x200).gemm .narrow (Memory.filled 3) 6 5) = [0x7C, 0x4B] := by
    decide +kernel
  refine ⟨e, e', he, hstart, by decide +kernel, fun fuel delay report e'' m' hdrain => ?_,
    hunspoilt, hreports (by decide)⟩
  have hproduct := hcomputes fuel delay report e'' m' hdrain
  have hlast := hproduct.cells 6 5 (by decide) (by decide)
  rw [hcell] at hlast
  exact ⟨hproduct, hlast⟩

end SystolicGemm.Engine
