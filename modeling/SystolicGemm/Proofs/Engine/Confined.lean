import SystolicGemm.Proofs.Engine.Overlay
import SystolicGemm.Proofs.Engine.Safety
import SystolicGemm.Proofs.Engine.Window

/-!
# A job whose cells all lie in memory

A memory that has all cells of a job serves every beat of it, wherever the matrices
lie and whatever they hold: they may overlap, and Z may run over what is still to
be read. Extent and latency of a memory never change, and every beat takes the same
time (`Confined`), so that the time of the whole job is known before it begins.

A port counts as well if there is a flat memory behind it (`Backed`).
-/

namespace SystolicGemm

namespace Engine

/-! ## One beat -/

/-- A request that is a beat of a job. -/
structure IsBeat (g : Geometry) (p : Plan) (r : Request) (o : Operand) (b : Nat) : Prop where
  lt : b < p.beats g.width o
  outline : outline r = beatOutline g p o b

namespace IsBeat

variable {g : Geometry} {p : Plan} {r : Request} {o : Operand} {b : Nat} {m₀ m : Memory}
  (h : IsBeat g p r o b)

include h

theorem direction : r.direction = o.direction := congrArg (·.1) h.outline

theorem direction_eq_read (ho : o ≠ .z) : r.direction = .read := by
  rw [h.direction]
  cases o
  case z => exact absurd rfl ho
  all_goals rfl

theorem addr : r.addr = p.addr g o b := congrArg (·.2.1) h.outline

theorem length : r.data.length = g.beatBytes := congrArg (·.2.2.1) h.outline

theorem enables (hg : g.Valid) (hp : p.Sound g) {i : Nat} (hi : i < g.beatBytes) :
    r.strobe.enables i = decide (p.Covers g o b i) := by
  have hstrobe : r.strobe = strobe g.format p (p.transfer g.width o b) :=
    congrArg (·.2.2.2) h.outline
  rw [hstrobe, hp.enables_strobe hg h.lt hi]

theorem mem_enabled (hg : g.Valid) (hp : p.Sound g) {i : Nat} :
    i ∈ Memory.enabled r ↔ i < g.beatBytes ∧ p.Covers g o b i := by
  rw [Memory.mem_enabled, h.length]
  refine and_congr_right fun hi => ?_
  rw [h.enables hg hp hi, decide_eq_true_iff]

/-- A memory with all cells of a job serves its beats. -/
theorem contains (hg : g.Valid) (hp : p.Sound g) (hin : p.Inside g m) : m.Contains r := by
  intro i hi
  obtain ⟨-, hrow, hbyte⟩ := (h.mem_enabled hg hp).mp hi
  rw [h.addr, p.addr_add]
  exact hin o _ _ hrow hbyte

theorem access (hg : g.Valid) (hp : p.Sound g) (hin : p.Inside g m) :
    Port.access r m = .ok (m.serve r).1 (m.serve r).2 := by
  refine Memory.access_of_contains (h.contains hg hp hin) fun i hi => ?_
  have hbeat := ((h.mem_enabled hg hp).mp hi).1
  have haddr := hp.addr_lt h.lt
  have hle := hg.beatBytes_le
  rw [h.addr]
  omega

end IsBeat

variable {e : Engine} {g : Geometry} {p : Plan} {m₀ m : Memory} {n : Nat}

theorem OnTrack.isBeat (h : e.OnTrack g p n) (hg : g.Valid) (hp : p.Sound g) {t : Transfer}
    (hpay : payload? g p e.tile e.phase = some (.transfer t)) :
    IsBeat g p (e.request g p t) t.operand (e.station.moved g p t.operand) :=
  ⟨((h.valid.moves hg hp hpay).due t rfl).2, h.outline_request hg hp hpay⟩

theorem OnTrack.beats_stepped (h : e.OnTrack g p n) (hg : g.Valid) (hp : p.Sound g) {pay : Payload}
    (hpay : payload? g p e.tile e.phase = some pay) (cost : Nat) (data : Bytes) :
    (e.stepped g p pay cost data).station.beats g p =
      e.station.beats g p + if pay.beat?.isSome then 1 else 0 := by
  simp only [Station.beats, h.moved_stepped hg hp hpay]
  cases hb : pay.beat? with
  | none => simp
  | some o => cases o <;> simp <;> omega

/-- Beats of a whole job. -/
def jobBeats (g : Geometry) (p : Plan) : Nat :=
  p.beats g.width .x + p.beats g.width .w + p.beats g.width .y + p.beats g.width .z

/-- No more beats are made than the job has. -/
theorem OnTrack.beats_le (h : e.OnTrack g p n) (hp : p.Sound g) :
    e.station.beats g p ≤ jobBeats g p := by
  have hx := h.loaded.moved_le hp .x
  have hw := h.loaded.moved_le hp .w
  have hy := h.loaded.moved_le hp .y
  have hz := h.loaded.moved_le hp .z
  unfold Station.beats jobBeats
  omega

/-- A beat that is due is one that has not been made. -/
theorem OnTrack.beats_lt (h : e.OnTrack g p n) (hg : g.Valid) (hp : p.Sound g) {t : Transfer}
    (hpay : payload? g p e.tile e.phase = some (.transfer t)) :
    e.station.beats g p < jobBeats g p := by
  have hdue := ((h.valid.moves hg hp hpay).due _ rfl).2
  have hx := h.loaded.moved_le hp .x
  have hw := h.loaded.moved_le hp .w
  have hy := h.loaded.moved_le hp .y
  have hz := h.loaded.moved_le hp .z
  unfold Station.beats jobBeats
  generalize Transfer.operand _ = o at hdue
  cases o <;> omega

/-! ## The invariant -/

/-- A job on a memory of a fixed extent that takes its time for each beat. -/
structure Confined (g : Geometry) (p : Plan) (m₀ : Memory) (e : Engine) (m : Memory) (n : Nat) :
    Prop where
  base : m.base = m₀.base
  size : m.size = m₀.size
  latency : m.latency = m₀.latency
  waited : n = m₀.latency * e.station.beats g p

theorem Taken.confined_self (h : e.Taken g p) (m : Memory) : Confined g p m e m (waited []) where
  base := rfl
  size := rfl
  latency := rfl
  waited := by simp [waited, Station.beats, h.moved]

theorem Confined.inside (h : Confined g p m₀ e m n) (hin : p.Inside g m₀) : p.Inside g m := by
  intro o r i hr hi
  obtain ⟨h1, h2⟩ := hin o r i hr hi
  exact ⟨h.base ▸ h1, h.base ▸ h.size ▸ h2⟩

/-- The memory of a confined job serves the next beat. -/
theorem Confined.access (h : Confined g p m₀ e m n) (ht : e.OnTrack g p n) (hg : g.Valid)
    (hp : p.Sound g) (hin : p.Inside g m₀) {t : Transfer}
    (hpay : payload? g p e.tile e.phase = some (.transfer t)) :
    Port.access (e.request g p t) m =
      .ok (m.serve (e.request g p t)).1 (m.serve (e.request g p t)).2 :=
  (ht.isBeat hg hp hpay).access hg hp (h.inside hin)

/-- The time of the beats of a confined job is at most that of all of them. -/
theorem Confined.waited_le (h : Confined g p m₀ e m n) (ht : e.OnTrack g p n) (hp : p.Sound g) :
    n ≤ m₀.latency * jobBeats g p := by
  rw [h.waited]
  exact Nat.mul_le_mul_left _ (ht.beats_le hp)

/-- A beat still to be made has its time. -/
theorem Confined.waited_add_le (h : Confined g p m₀ e m n) (ht : e.OnTrack g p n) (hg : g.Valid)
    (hp : p.Sound g) {t : Transfer} (hpay : payload? g p e.tile e.phase = some (.transfer t)) :
    n + m₀.latency ≤ m₀.latency * jobBeats g p := by
  rw [h.waited, ← Nat.mul_succ]
  exact Nat.mul_le_mul_left _ (ht.beats_lt hg hp hpay)

/-! ## Ports with a memory behind them -/

variable {π : Type} [Port π]

/-- Whether a port answers as the memory behind it does. -/
def Backed (view : π → Memory) : Prop :=
  ∀ {r : Request} {port : π} {reply : Reply} {m : Memory},
    Port.access r (view port) = .ok reply m →
    ∃ port', Port.access r port = .ok reply port' ∧ view port' = m

theorem backed_self : Backed fun m : Memory => m := fun h => ⟨_, h, rfl⟩

variable {view : π → Memory} (hview : Backed view) (hg : g.Valid) (hp : p.Sound g)

include hview hg hp

/-- **A confined job stays confined**, whatever it reads and writes. -/
theorem kept_confined (hin : p.Inside g m₀) :
    Kept g p fun log e (port : π) => Confined g p m₀ e (view port) (waited log) where
  idle := by
    intro log e port pay ht h hpay hbeat
    refine ⟨h.base, h.size, h.latency, ?_⟩
    rw [ht.beats_stepped hg hp hpay, hbeat]
    exact h.waited
  served := by
    intro log e port port' t reply ht h hpay hacc hstatus
    obtain ⟨_, haccess, hport⟩ := hview (h.access ht hg hp hin hpay)
    rw [hacc] at haccess
    cases haccess
    refine ⟨?_, ?_, ?_, ?_⟩
    · rw [hport, Memory.base_serve, h.base]
    · rw [hport, Memory.size_serve, h.size]
    · rw [hport, Memory.latency_serve, h.latency]
    · rw [ht.beats_stepped hg hp hpay, waited_append, Memory.latency_reply, h.latency, h.waited]
      simp [Payload.beat?, Nat.mul_add]

variable (h : e.Taken g p) {port : π} (hin : p.Inside g (view port))

include h hin

/-- The memory behind a job, wherever a run of it gets to. -/
theorem Taken.confined {log : List Beat} {st : Engine × π} (hruns : Runs (e, port) log st) :
    Along g p (fun log e q => Confined g p (view port) e (view q) (waited log)) log st :=
  hruns.along hg hp (kept_confined hview hg hp hin) (h.along (h.confined_self _))

/-- **A memory with all cells of a job inside serves all of its beats**, wherever the
matrices lie. -/
theorem Taken.obliges_of_inside : Obliges (e, port) := by
  intro log e' q o r hruns hasks
  cases h.confined hview hg hp hin hruns with
  | running ht _ hconf =>
    obtain ⟨t, hpay, -, rfl⟩ := ht.exists_transfer hg hp hasks
    obtain ⟨q', hacc, -⟩ := hview (hconf.access ht hg hp hin hpay)
    exact ⟨_, q', hacc, Memory.status_reply _ _⟩
  | retired => cases hasks

/-- A job takes as many cycles as it has subcycles, and the latency of the memory
for each of its beats. -/
theorem Taken.not_overruns_of_lt
    (hclock : p.subcycles g + (view port).latency * jobBeats g p < Word.limit) :
    ¬ Overruns g p (e, port) := by
  rintro ⟨log, e', q, last, hruns, -, hlast, hle⟩
  suffices hwaited : waited log + last ≤ (view port).latency * jobBeats g p by omega
  have halong := h.confined hview hg hp hin hruns
  -- the last subcycle is idle, or has the latency of one more beat
  rcases hlast with rfl | ⟨o, r, reply, q', hasks, hacc, rfl⟩
  · cases halong with
    | running ht _ hconf | retired ht _ hconf => exact hconf.waited_le ht hp
  · cases halong with
    | running ht _ hconf =>
      obtain ⟨t, hpay, -, rfl⟩ := ht.exists_transfer hg hp hasks
      obtain ⟨_, haccess, -⟩ := hview (hconf.access ht hg hp hin hpay)
      rw [hacc] at haccess
      cases haccess
      rw [Memory.latency_reply, hconf.latency]
      exact hconf.waited_add_le ht hg hp hpay
    | retired => cases hasks

/-- **What a job takes**, to the cycle. -/
theorem Taken.cycles_eq {fuel delay : Nat} {report : JobReport} {st : Engine × π}
    (hdrain : drain fuel (e, port) = .ok (delay, some report) st) :
    report.cycles = p.subcycles g + (view port).latency * jobBeats g p := by
  obtain ⟨log, e₁, d, hruns, hpend, hfin, rfl⟩ := h.completed hg hp hdrain
  obtain ⟨ht, hconf⟩ := (h.confined hview hg hp hin hruns).of_pending hpend
  have hwaited := hconf.waited
  simp only [Station.beats, moved_of_finished hfin] at hwaited
  show e₁.report.cycles = _
  rw [ht.cycles, steps_of_finished hfin, hwaited]
  rfl

omit hview hg hp h hin

/-- The job with a leftover on every axis is served, and in time. -/
theorem Taken.served_ragged {e : Engine} (h : e.Taken .narrow (.ragged 0x200 0x300))
    (hview : Backed view) (port : π) (hbase : (view port).base = 0) (hsize : (view port).size = 0x400)
    (hlatency : (view port).latency = 3) :
    Obliges (e, port) ∧ ¬ Overruns .narrow (.ragged 0x200 0x300) (e, port) := by
  have hg := Geometry.validate_eq_ok_iff.mp Geometry.validate_narrow
  have hp := (JobImage.accepted_of_validate (JobImage.validate_ragged 0x200 0x300)).sound hg
  have hin : (Plan.ragged 0x200 0x300).Inside .narrow (view port) :=
    Plan.inside_ragged hbase hsize (by decide) (by decide)
  refine ⟨h.obliges_of_inside hview hg hp hin, h.not_overruns_of_lt hview hg hp hin ?_⟩
  rw [hlatency]
  decide

end Engine

end SystolicGemm
