import Mathlib.Logic.Function.Iterate
import SystolicGemm.Proofs.Engine.Run

/-!
# How a job ends

Whatever the port answers, a job that an engine has taken ends in its report or in a
failure that the port has caused. The program stops only where the port does, or when
a clock would leave its word.

`Ending` lists what can become of a run. It has no case for a cursor that parts
from the engine's counters, a slot outside its buffer, a product that does not
fit a word, or a job that finishes with a stream half way.
-/

namespace SystolicGemm

/-- Whether every byte of a beat has an address. -/
def Request.Addressable (r : Request) : Prop := r.addr + Geometry.maxBeatBytes ≤ Word.limit

namespace Engine

variable {π : Type} [Port π]

/-- Whether the port serves every beat of a run. -/
def Obliges (st : Engine × π) : Prop :=
  ∀ log e port o r, Runs st log (e, port) → e.asks? = some (o, r) →
    ∃ reply port', Port.access r port = .ok reply port' ∧ reply.status = .ok

/-- Whether the subcycles of a job and the answers to it take more cycles than a
word counts. The last answer is the one that the run stops at. -/
def Overruns (g : Geometry) (p : Plan) (st : Engine × π) : Prop :=
  ∃ log e port last, Runs st log (e, port) ∧ AllOk log ∧
    (last = 0 ∨ ∃ o r reply port', e.asks? = some (o, r) ∧
      Port.access r port = .ok reply port' ∧ reply.latency = last) ∧
    Word.limit ≤ p.subcycles g + (waited log + last)

/-- What can become of a job with at most `fuel` deliveries, from the state in
which the engine has taken it. -/
inductive Ending (g : Geometry) (p : Plan) (st : Engine × π) (fuel : Nat) :
    EStateM.Result (Stop Failure) (Engine × π) (Nat × Option JobReport) → Prop
  | reported {e e' : Engine} {port : π} {log : List Beat} {delay : Nat} {report : JobReport}
      (hruns : Runs st log (e, port)) (hok : AllOk log)
      (hdone : ∀ o, (e'.stream o).done = (p.pattern o).total) :
      Ending g p st fuel (.ok (delay, some report) (e', port))
  | underWay {e e' : Engine} {port : π} {log : List Beat} {delay : Nat}
      (hfuel : fuel < p.subcycles g + 2) (hruns : Runs st log (e, port)) (hok : AllOk log)
      (hdone : e'.phase = .finished → ∀ o, (e'.stream o).done = (p.pattern o).total) :
      Ending g p st fuel (.ok (delay, none) (e', port))
  | refused {e e' : Engine} {port port' : π} {log : List Beat} {o : Operand} {r : Request}
      {reply : Reply} (hruns : Runs st log (e, port)) (hok : AllOk log)
      (hasks : e.asks? = some (o, r)) (hr : r.Addressable)
      (hacc : Port.access r port = .ok reply port') (hstatus : reply.status ≠ .ok) :
      Ending g p st fuel (.error (.error (.transaction o r.addr reply.status)) (e', port'))
  | poisoned {e e' : Engine} {port port' : π} {log : List Beat} {o : Operand} {r : Request}
      (hruns : Runs st log (e, port)) (hok : AllOk log) (hasks : e.asks? = some (o, r))
      (hr : r.Addressable) (hacc : Port.access r port = .error .poisoned port') :
      Ending g p st fuel (.error (.error .portPoisoned) (e', port'))
  | trapped {e e' : Engine} {port port' : π} {log : List Beat} {o : Operand} {r : Request}
      {t : Trap} (hruns : Runs st log (e, port)) (hok : AllOk log) (hasks : e.asks? = some (o, r))
      (hr : r.Addressable) (hacc : Port.access r port = .error (.trap t) port') :
      Ending g p st fuel (.error (.trap t) (e', port'))
  | late {st' : Engine × π} (hover : Overruns g p st) :
      Ending g p st fuel (.error (.trap .overflow) st')

variable {e : Engine} {g : Geometry} {p : Plan} {st : Engine × π} {n : Nat}

theorem OnTrack.done_of_finished (hp : p.Sound g) (h : e.OnTrack g p n) (hfin : e.phase = .finished)
    (o : Operand) : (e.stream o).done = (p.pattern o).total := by
  rw [(h.loaded.moved o).done, moved_of_finished hfin, hp.total]

theorem OnTrack.addressable (hg : g.Valid) (hp : p.Sound g) (h : e.OnTrack g p n) {t : Transfer}
    (hpay : payload? g p e.tile e.phase = some (.transfer t)) : (e.request g p t).Addressable :=
  hp.addr_lt ((h.valid.moves hg hp hpay).due t rfl).2

/-- A subcycle of a job leaves at least itself to be run. -/
theorem OnTrack.cycles_succ_le (hp : p.Sound g) (h : e.OnTrack g p n) (hne : e.phase ≠ .finished) :
    e.report.cycles + 1 ≤ p.subcycles g + n := by
  have hsteps := h.valid.steps_lt hp hne
  rw [h.cycles]
  omega

/-- A delivery that stops a job stops it for the port's sake, or because a clock
would leave its word. -/
theorem OnTrack.ending_of_stopped (hg : g.Valid) (hp : p.Sound g) {log : List Beat} {d fuel : Nat}
    {port : π} (h : e.OnTrack g p (waited log)) (hpend : e.pending = some (.mainLoop, d))
    (hruns : Runs st log (e, port)) (hok : AllOk log) {stop : Stop Failure} {st' : Engine × π}
    (hwake : wake (e, port) = .error stop st') : Ending g p st fuel (.error stop st') := by
  have hw := h.wakes hg hp hpend port
  rw [hwake] at hw
  cases hw with
  | idleLate hpay hbeat hle =>
    have hcycles := h.cycles_succ_le hp (phase_ne_finished hpay)
    exact .late ⟨log, e, port, 0, hruns, hok, .inl rfl, by omega⟩
  | late hpay hacc hstatus hle =>
    have hcycles := h.cycles_succ_le hp (phase_ne_finished hpay)
    exact .late ⟨log, e, port, _, hruns, hok,
      .inr ⟨_, _, _, _, h.asks?_transfer hg hp hpay, hacc, rfl⟩, by omega⟩
  | refused hpay hacc hstatus =>
    exact .refused hruns hok (h.asks?_transfer hg hp hpay) (h.addressable hg hp hpay) hacc hstatus
  | poisoned hpay hacc =>
    exact .poisoned hruns hok (h.asks?_transfer hg hp hpay) (h.addressable hg hp hpay) hacc
  | trapped hpay hacc =>
    exact .trapped hruns hok (h.asks?_transfer hg hp hpay) (h.addressable hg hp hpay) hacc

/-- **How a job ends.** -/
theorem Taken.ending (hg : g.Valid) (hp : p.Sound g) (h : e.Taken g p) (port : π) (fuel : Nat) :
    Ending g p (e, port) fuel (drain fuel (e, port)) := by
  have hstation : ∀ {log : List Beat} {e' : Engine} {port' : π} {d : Nat},
      Runs (e, port) log (e', port') → e'.pending = some (.mainLoop, d) →
      e'.OnTrack g p (waited log) ∧ Logged g p log e'.station := fun hruns hpend =>
    (hruns.along hg hp (kept_logged hg hp) (h.along h.logged)).of_pending hpend
  have hretired : ∀ {e : Engine} (event : Option (Event × Nat)) (o : Operand),
      (({ e.retire with pending := event } : Engine).stream o).done = (e.stream o).done :=
    fun event o => by cases o <;> rfl
  have hdrained := h.drained hg hp port fuel
  generalize drain fuel (e, port) = r at hdrained
  cases hdrained with
  | reported hruns hpend hfin =>
    obtain ⟨htrack, hlog⟩ := hstation hruns hpend
    exact .reported hruns hlog.ok fun o =>
      (hretired none o).trans (htrack.done_of_finished hp hfin o)
  | retired hruns hpend hfin hfuel =>
    obtain ⟨htrack, hlog⟩ := hstation hruns hpend
    exact .underWay hfuel hruns hlog.ok fun _ o =>
      (hretired _ o).trans (htrack.done_of_finished hp hfin o)
  | waiting hruns hpend hfuel =>
    obtain ⟨htrack, hlog⟩ := hstation hruns hpend
    exact .underWay hfuel hruns hlog.ok fun hfin => htrack.done_of_finished hp hfin
  | stopped hruns hpend hwake =>
    obtain ⟨htrack, hlog⟩ := hstation hruns hpend
    exact htrack.ending_of_stopped hg hp hpend hruns hlog.ok hwake

/-- A port that serves every beat lets a job end in its report, if the clock
holds. -/
theorem Ending.reports {fuel : Nat}
    {r : EStateM.Result (Stop Failure) (Engine × π) (Nat × Option JobReport)}
    (h : Ending g p st fuel r) (hport : Obliges st) (hclock : ¬ Overruns g p st)
    (hfuel : p.subcycles g + 2 ≤ fuel) :
    ∃ delay report e port, r = .ok (delay, some report) (e, port) ∧
      ∀ o, (e.stream o).done = (p.pattern o).total := by
  cases h with
  | reported hruns hok hdone => exact ⟨_, _, _, _, rfl, hdone⟩
  | underWay hlt => exact absurd hfuel (Nat.not_le.mpr hlt)
  | refused hruns hok hasks hr hacc hstatus =>
    obtain ⟨reply, port', hacc', hstatus'⟩ := hport _ _ _ _ _ hruns hasks
    rw [hacc] at hacc'
    cases hacc'
    exact absurd hstatus' hstatus
  | poisoned hruns _ hasks _ hacc | trapped hruns _ hasks _ hacc =>
    obtain ⟨reply, port', hacc', -⟩ := hport _ _ _ _ _ hruns hasks
    rw [hacc] at hacc'
    cases hacc'
  | late hover => exact absurd hover hclock

/-- **A port that serves every beat lets a run get to every station**, if the clock holds. -/
theorem Taken.exists_runs (hg : g.Valid) (hp : p.Sound g) (h : e.Taken g p) {port : π}
    (hport : Obliges (e, port)) (hclock : ¬ Overruns g p (e, port)) {k : Nat}
    (hk : k ≤ p.subcycles g) : ∃ log e' q d, Runs (e, port) log (e', q) ∧
      e'.OnTrack g p (waited log) ∧ e'.pending = some (.mainLoop, d) ∧
      e'.station = (Station.next g p)^[k] ⟨.starting 0, ⟨0, 0⟩⟩ ∧ e'.station.steps g p = k := by
  induction k with
  | zero =>
    have hsteps : e.station.steps g p = 0 := by
      rw [h.station]
      rfl
    exact ⟨[], e, port, 0, .none, h.onTrack, h.pending, h.station, hsteps⟩
  | succ k ih =>
    obtain ⟨log, e', q, d, hruns, htrack, hpend, hstation, hsteps⟩ := ih (Nat.le_of_succ_le hk)
    have hlog := ((hruns.along hg hp (kept_logged hg hp) (h.along h.logged)).of_pending hpend).2
    have hnext : ∀ {pay : Payload} (cost : Nat) (data : Bytes),
        payload? g p e'.tile e'.phase = some pay →
        (e'.stepped g p pay cost data).station =
            (Station.next g p)^[k + 1] ⟨.starting 0, ⟨0, 0⟩⟩ ∧
          (e'.stepped g p pay cost data).station.steps g p = k + 1 := by
      intro pay cost data hpay
      have hcarries := htrack.valid.carries hg hp (phase_ne_finished hpay)
      rw [station_stepped, hcarries.steps, hsteps, Function.iterate_succ_apply', hstation]
      exact ⟨rfl, rfl⟩
    have hw := htrack.wakes hg hp hpend q
    generalize hr : wake (e', q) = r at hw
    cases r with
    | error stop st =>
      -- port and clock are what stops a run
      obtain ⟨delay, report, e'', q', hreported, -⟩ :=
        (htrack.ending_of_stopped hg hp hpend hruns hlog.ok hr).reports hport hclock
          (Nat.le_refl _)
      cases hreported
    | ok r st =>
      cases hw with
      | idle hpay hbeat hlt =>
        obtain ⟨hstation', hsteps'⟩ := hnext 1 [] hpay
        exact ⟨log, _, q, 1, hruns.idle (htrack.asks?_eq_none hpay hbeat) hr,
          htrack.next hg hp hpay (fun _ => rfl) [] hlt, rfl, hstation', hsteps'⟩
      | @served t reply port' hpay hacc hstatus hlt =>
        obtain ⟨hstation', hsteps'⟩ := hnext (reply.latency + 1) reply.data hpay
        have hruns' := hruns.beat (b := ⟨t.operand, e'.request g p t, reply⟩)
          (htrack.asks?_transfer hg hp hpay) hacc hr
        refine ⟨_, _, port', _, hruns', ?_, rfl, hstation', hsteps'⟩
        rw [waited_append]
        exact htrack.next hg hp hpay nofun _ hlt
      | retired hfin =>
        have hlast := steps_of_finished (g := g) (p := p) hfin
        omega

/-- A run that gets to the report does so from the last station. -/
theorem Taken.completed (hg : g.Valid) (hp : p.Sound g) (h : e.Taken g p) {port port' : π}
    {fuel delay : Nat} {report : JobReport} {e'' : Engine}
    (hdrain : drain fuel (e, port) = .ok (delay, some report) (e'', port')) :
    ∃ log e' d, Runs (e, port) log (e', port') ∧ e'.pending = some (.mainLoop, d) ∧
      e'.phase = .finished ∧ report = e'.retire.report := by
  have hdrained := h.drained hg hp port fuel
  rw [hdrain] at hdrained
  cases hdrained with
  | reported hruns hpend hfin => exact ⟨_, _, _, hruns, hpend, hfin, rfl⟩

end Engine

end SystolicGemm
