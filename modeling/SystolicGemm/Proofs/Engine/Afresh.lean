import SystolicGemm.Proofs.Engine.Timing

/-!
# One job after another

An engine that no job occupies keeps nothing of the jobs that it has done, begun
or refused: what it holds besides its array is cleared when it takes the next
one. Taking a job therefore leads to one and the same engine, whatever it has
been through, and everything after that is the same as well.
-/

namespace SystolicGemm

namespace TileStore

variable {s s' : TileStore} {g : Geometry}

/-- **Nothing of a store outlives an allocation** but its array and the sizes that
the array gives its buffers. -/
theorem Fits.alloc_eq (h : s.Fits g) (h' : s'.Fits g) (n : Nat) (leftovers : Leftovers) :
    s.alloc n leftovers = s'.alloc n leftovers := by
  have hgeo : s.geometry = s'.geometry := h.geometry.trans h'.geometry.symm
  have hy : s.y.clear = s'.y.clear := by rw [Block.clear, Block.clear, h.ySize, h'.ySize]
  have hz : s.z.clear = s'.z.clear := by rw [Block.clear, Block.clear, h.zSize, h'.zSize]
  have hyc : s.yCursor.reset = s'.yCursor.reset := by
    rw [Ring.reset, Ring.reset, h.yCapacity, h'.yCapacity]
  have hzc : s.zCursor.reset = s'.zCursor.reset := by
    rw [Ring.reset, Ring.reset, h.zCapacity, h'.zCapacity]
  simp only [alloc, hgeo, hy, hz, hyc, hzc]

end TileStore

/-- Nothing of a stream outlives a pattern but what it moves and how. -/
theorem Stream.configure_eq {s s' : Stream} (ho : s.operand = s'.operand)
    (hd : s.direction = s'.direction) (hb : s.beatBytes = s'.beatBytes) (p : Pattern) :
    s.configure p = s'.configure p := by
  rw [configure, configure, ho, hd, hb]

namespace Engine

variable {π : Type} {g : Geometry} {p : Plan} {e e₀ : Engine}

/-! ## Taking a job -/

/-- What an idle engine makes of a plan is settled by its array. -/
theorem Fits.begin_eq (h : e.Fits g) (hidle : e.busy = false) (h₀ : e₀.Fits g)
    (hidle₀ : e₀.busy = false) (p : Plan) : e.begin p = e₀.begin p := by
  obtain ⟨-, hpend⟩ := busy_eq_false_iff.mp hidle
  obtain ⟨-, hpend₀⟩ := busy_eq_false_iff.mp hidle₀
  have hgeo : e.geometry = e₀.geometry := h.geometry.trans h₀.geometry.symm
  have hstream : ∀ o, (e.stream o).configure (p.pattern o) =
      (e₀.stream o).configure (p.pattern o) := fun o =>
    Stream.configure_eq ((h.operand o).trans (h₀.operand o).symm)
      ((h.direction o).trans (h₀.direction o).symm) ((h.beatBytes o).trans (h₀.beatBytes o).symm) _
  have hx : e.x.configure p.x = e₀.x.configure p.x := hstream .x
  have hw : e.w.configure p.w = e₀.w.configure p.w := hstream .w
  have hy : e.y.configure p.y = e₀.y.configure p.y := hstream .y
  have hz : e.z.configure p.z = e₀.z.configure p.z := hstream .z
  simp only [begin, h.store.alloc_eq h₀.store, hgeo, hpend, hpend₀, hx, hw, hy, hz]

/-- **Taking a job forgets what was before it.** -/
theorem Fits.start_eq (h : e.Fits g) (hidle : e.busy = false) (h₀ : e₀.Fits g)
    (hidle₀ : e₀.busy = false) (hg : g.Valid) {job : JobImage} (hv : job.validate g = .ok p)
    (port : π) : start job (e, port) = start job (e₀, port) := by
  have hgeo := Geometry.validate_eq_ok_iff.mpr hg
  have hp := (JobImage.accepted_of_validate hv).sound hg
  obtain ⟨s, halloc, -⟩ := TileStore.exists_alloc h₀.store hp hg
  have hbegin : ∃ e', e₀.begin p = .ok e' := by
    simp only [begin, halloc, ok_bind]
    exact ⟨_, rfl⟩
  obtain ⟨e', hbegin⟩ := hbegin
  simp only [start, run_get_bind, hidle, hidle₀, h.geometry, h₀.geometry, hgeo, hv,
    Failure.liftGeometry, Failure.liftJob, Bool.false_eq_true, if_false]
  show ((liftM (e.begin p) : Run Failure (Engine × π) Engine) >>= _) (e, port) =
    ((liftM (e₀.begin p) : Run Failure (Engine × π) Engine) >>= _) (e₀, port)
  rw [h.begin_eq hidle h₀ hidle₀, hbegin]
  rfl

/-! ## What is seen of a job -/

/-- What an engine shows between two deliveries. -/
structure Sight where
  phase : Phase
  /-- The armed event and its delay. -/
  pending : Option (Event × Nat)
  cycles : Nat
  xOffset : Nat
  yOffset : Nat
  deriving DecidableEq, Repr

/-- What the engine shows. -/
def sight (e : Engine) : Sight := ⟨e.phase, e.pending, e.cycles, e.store.xOffset, e.store.yOffset⟩

/-- Delivers armed events as `deliveries` does, and says what the engine shows
after each of them. -/
def watch [Port π] : (fuel : Nat) → Run Failure (Engine × π) (List Sight × Option JobReport)
  | 0 => return ([], none)
  | fuel + 1 => do
    match (← get).1.pending with
    | none => return ([], none)
    | some (event, _) =>
      let report ← deliver event
      let seen := (← get).1.sight
      match report with
      | some report => return ([seen], some report)
      | none =>
        let (rest, report) ← watch fuel
        return (seen :: rest, report)

/-- Starts a job and runs it: what the engine shows when it has taken the job and
after every delivery. -/
def attempt [Port π] (job : JobImage) (fuel : Nat) :
    Run Failure (Engine × π) (List Sight × Option JobReport) := do
  start job
  let seen := (← get).1.sight
  let (rest, report) ← watch fuel
  return (seen :: rest, report)

variable [Port π] {st st' : Engine × π}

/-- A watched job goes the way of its deliveries, and each of these is what the
engine had shown as armed. -/
theorem watch_of_deliveries {fuel : Nat} {events : List (Event × Nat)} {report : Option JobReport}
    (h : deliveries fuel st = .ok (events, report) st') :
    ∃ seen, watch fuel st = .ok (seen, report) st' ∧
      (st.1.sight :: seen).map (·.pending) = events.map some ++ [st'.1.pending] := by
  induction fuel generalizing st events report with
  | zero =>
    cases h
    exact ⟨[], rfl, rfl⟩
  | succ fuel ih =>
    cases hpend : st.1.pending with
    | none =>
      rw [deliveries_succ_none hpend] at h
      cases h
      refine ⟨[], ?_, rfl⟩
      simp only [watch, run_get_bind, hpend]
      rfl
    | some armed =>
      obtain ⟨event, d⟩ := armed
      have hwatch : watch (fuel + 1) st = (do
          let report ← deliver event
          let seen := (← get).1.sight
          match report with
          | some report => return ([seen], some report)
          | none =>
            let (rest, report) ← watch fuel
            return (seen :: rest, report)) st := by
        simp only [watch, run_get_bind, hpend]
      cases hd : deliver event st with
      | error stop st₁ =>
        rw [deliveries_succ_error hpend hd] at h
        cases h
      | ok r st₁ =>
        rw [run_bind_ok hd, run_get_bind] at hwatch
        cases r with
        | some r =>
          rw [deliveries_succ_reported hpend hd] at h
          cases h
          exact ⟨[st'.1.sight], hwatch, by simp [sight, hpend]⟩
        | none =>
          rw [deliveries_succ_ok hpend hd] at h
          split at h
          · next rest r st₂ hrest =>
            cases h
            obtain ⟨seen, hseen, hshown⟩ := ih hrest
            refine ⟨st₁.1.sight :: seen, hwatch.trans (run_bind_ok hseen), ?_⟩
            rw [List.map_cons, hshown]
            simp [sight, hpend]
          · cases h

/-! ## Histories of jobs -/

theorem Reachable.start (he : Reachable π g e) {job : JobImage} {e' : Engine} {port port' : π}
    (h : Engine.start job (e, port) = .ok () (e', port')) : Reachable π g e' :=
  .called (c := .start job) he ⟨port, port', .inl h⟩

theorem Reachable.deliver (he : Reachable π g e) {event : Event} {r : Option JobReport}
    {e' : Engine} {port port' : π} (h : Engine.deliver event (e, port) = .ok r (e', port')) :
    Reachable π g e' :=
  .called (c := .deliver event) he ⟨port, port', .inl (run_bind_ok h)⟩

/-- A job that has come to its report leaves the engine to the next one. -/
theorem Reachable.deliveries (he : Reachable π g e) (hg : g.Valid) {fuel : Nat} {port : π}
    {events : List (Event × Nat)} {report : JobReport}
    (h : Engine.deliveries fuel (e, port) = .ok (events, some report) st') :
    Reachable π g st'.1 ∧ st'.1.busy = false := by
  induction fuel generalizing e port events with
  | zero => cases h
  | succ fuel ih =>
    cases hpend : e.pending with
    | none =>
      rw [deliveries_succ_none hpend] at h
      cases h
    | some armed =>
      obtain ⟨event, d⟩ := armed
      cases hd : Engine.deliver event (e, port) with
      | error stop st₁ =>
        rw [deliveries_succ_error hpend hd] at h
        cases h
      | ok r st₁ =>
        cases r with
        | some r =>
          rw [deliveries_succ_reported hpend hd] at h
          cases h
          obtain ⟨-, -, -, hidle, -⟩ := (he.standing hg).reported hg hpend hd
          exact ⟨he.deliver hd, hidle⟩
        | none =>
          rw [deliveries_succ_ok hpend hd] at h
          split at h
          · next rest r st₂ hrest =>
            cases h
            exact ih (he.deliver hd) hrest
          · cases h

/-- **A job does not depend on what was before it.** Whatever an engine has been
through, once it is idle it goes about a job as a new one of its array does: the
same states, the same accesses and answers, the same memory and the same report,
or the same failure at the same place. With a port that serves every beat it
comes to the report. -/
theorem attempt_afresh {ρ : Type} [Port ρ] (hg : g.validate = .ok ()) (he : Reachable ρ g e)
    (hidle : e.busy = false) {job : JobImage} (hv : job.validate g = .ok p) (port : π) :
    ∃ e₀, create g = .ok e₀ ∧
      (∀ fuel, attempt job fuel (e, Recorded.fresh port) =
        attempt job fuel (e₀, Recorded.fresh port)) ∧
      ∃ e', Engine.start job (e₀, Recorded.fresh port) = .ok () (e', Recorded.fresh port) ∧
        (Obliges (e', Recorded.fresh port) → ¬ Overruns g p (e', Recorded.fresh port) →
          ∀ fuel, p.subcycles g + 2 ≤ fuel → ∃ seen report e'' q,
            attempt job fuel (e, Recorded.fresh port) = .ok (seen, some report) (e'', q) ∧
            seen.length = p.subcycles g + 3) := by
  have hvalid := Geometry.validate_eq_ok_iff.mp hg
  have hp := (JobImage.accepted_of_validate hv).sound hvalid
  obtain ⟨e₀, h₀, hfits₀, hidle₀⟩ := create_fits hvalid
  obtain ⟨e', htaken, hstart₀⟩ :=
    (Reachable.created (π := ρ) h₀).taken (π := Recorded π) hvalid hidle₀ hv
  have hstart : ∀ port : Recorded π, Engine.start job (e, port) = .ok () (e', port) := fun port =>
    ((he.fits hvalid hidle).start_eq hidle hfits₀ hidle₀ hvalid hv port).trans (hstart₀ port)
  refine ⟨e₀, h₀, fun fuel => ?_, e', hstart₀ _, fun hport hclock fuel hfuel => ?_⟩
  · rw [attempt, run_bind_ok (hstart _), run_bind_ok (hstart₀ _)]
  · obtain ⟨events, report, st, hdel, hevents, -⟩ := htaken.completes hvalid hp hport hclock hfuel
    obtain ⟨seen, hwatch, hshown⟩ := watch_of_deliveries hdel
    have hattempt : attempt job fuel (e, Recorded.fresh port) =
        .ok (e'.sight :: seen, some report) st := by
      rw [attempt, run_bind_ok (hstart _), run_get_bind]
      exact run_bind_ok hwatch
    -- one sight for each delivery, and one before the first
    have hcount : events.length = p.subcycles g + 2 := by
      have hlength := congrArg List.length hevents
      simpa using hlength
    refine ⟨_, report, st.1, st.2, hattempt, ?_⟩
    have hlength := congrArg List.length hshown
    simpa [hcount] using hlength

/-- A second job on an engine that has finished one, refused an image and had its
interrupt line cleared. -/
theorem attempt_afresh_ragged : ∃ (e₀ e₁ e₂ : Engine) (events : List (Event × Nat))
    (report : JobReport) (m : Memory), create .narrow = .ok e₀ ∧
    Engine.start (.ragged 0x200 0x300) (e₀, Memory.zeroed 0 0x400 3) =
      .ok () (e₁, Memory.zeroed 0 0x400 3) ∧
    Engine.deliveries 212 (e₁, Memory.zeroed 0 0x400 3) = .ok (events, some report) (e₂, m) ∧
    (∃ flaw, Engine.start .blank (e₂, m) = .error (.error (.job flaw)) (e₂, m)) ∧
    ∀ fuel, attempt (.ragged 0x100 0x380) fuel (e₂.clearIrq, Recorded.fresh m) =
      attempt (.ragged 0x100 0x380) fuel (e₀, Recorded.fresh m) := by
  have hvalid := Geometry.validate_eq_ok_iff.mp Geometry.validate_narrow
  obtain ⟨e₀, h₀, -, hidle₀⟩ := create_fits hvalid
  have hreach₀ := Reachable.created (π := Memory) h₀
  have hv := JobImage.validate_ragged 0x200 0x300
  have hp := (JobImage.accepted_of_validate hv).sound hvalid
  obtain ⟨e₁, htaken, hstart⟩ := hreach₀.taken (π := Memory) hvalid hidle₀ hv
  obtain ⟨hport, hclock⟩ := htaken.served_ragged backed_self (.zeroed 0 0x400 3) rfl rfl rfl
  obtain ⟨events, report, ⟨e₂, m⟩, hdel, -⟩ := htaken.completes hvalid hp hport hclock
    (Nat.le_refl 212)
  obtain ⟨hreach₂, hidle₂⟩ := (hreach₀.start (hstart m)).deliveries hvalid hdel
  have hreach : Reachable Memory .narrow e₂.clearIrq :=
    .called (c := .clearIrq) hreach₂ ⟨m, m, .inl rfl⟩
  obtain ⟨e₀', h₀', hsame, -⟩ := attempt_afresh Geometry.validate_narrow hreach hidle₂
    (JobImage.validate_ragged 0x100 0x380) m
  rw [h₀] at h₀'
  cases h₀'
  have hrefused : Engine.start .blank (e₂, m) =
      .error (.error (.job (.noTiles ⟨0, 0⟩ ⟨0, 0⟩))) (e₂, m) :=
    start_refused (hreach₂.fits hvalid hidle₂) hidle₂ hvalid (by decide) m
  exact ⟨e₀, e₁, e₂, events, report, m, h₀, hstart _, hdel, ⟨_, hrefused⟩, hsame⟩

end Engine

end SystolicGemm
