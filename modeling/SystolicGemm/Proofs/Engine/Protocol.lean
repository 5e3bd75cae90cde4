import SystolicGemm.Proofs.Engine.Partial
import SystolicGemm.Proofs.Engine.Timing

/-!
# The protocol of an engine

Whoever drives an engine may call it in any order: start jobs that do not fit its array
or come too early, deliver events that are not armed, clear the interrupt line at any
time, all of that also on an array that can be built and is not valid. `Started` and
`Delivered` are everything that the two calls can do then.

`History` is a list of such calls with their answers, and `Accounted` is what it leaves
of the engine: calls that are rejected are as if they had not been made, a job is under
way as long as one more has been accepted than has been reported, and until an access
to memory fails a job under way always has an event armed.
-/

namespace SystolicGemm

namespace TileStore

theorem allocated_create {g : Geometry} {s : TileStore} (h : create g = .ok s) :
    s.allocated = false := by
  obtain ⟨l, -, h⟩ := bind_eq_ok_iff.mp h
  obtain ⟨beat, -, h⟩ := bind_eq_ok_iff.mp h
  obtain ⟨yRows, -, h⟩ := bind_eq_ok_iff.mp h
  obtain ⟨y, -, h⟩ := bind_eq_ok_iff.mp h
  obtain ⟨yBytes, -, h⟩ := bind_eq_ok_iff.mp h
  obtain ⟨z, -, h⟩ := bind_eq_ok_iff.mp h
  obtain ⟨zBytes, -, h⟩ := bind_eq_ok_iff.mp h
  cases h
  rfl

theorem allocated_free (s : TileStore) : s.free.allocated = false := by
  unfold free
  split
  · rfl
  · next h => exact Bool.eq_false_iff.mpr h

end TileStore

/-! ## Engines of any array -/

namespace Engine

variable {π : Type} {g : Geometry} {e e' : Engine} {job : JobImage} {q q' : π}

/-- An engine as its history leaves it. One whose array is not valid has never had
a job. -/
inductive Poised (g : Geometry) (e : Engine) : Prop
  | valid (hg : g.Valid) (h : Standing g e)
  | invalid (hg : ¬ g.Valid) (hgeo : e.geometry = g) (hidle : e.busy = false)

theorem create_poised (h : create g = .ok e) : Poised g e ∧ e.busy = false := by
  have hmade : e.geometry = g ∧ e.busy = false := by
    obtain ⟨beat, -, h⟩ := bind_eq_ok_iff.mp h
    obtain ⟨s, -, h⟩ := bind_eq_ok_iff.mp h
    cases h
    exact ⟨rfl, rfl⟩
  by_cases hg : g.Valid
  · obtain ⟨e', he', hfits, hidle⟩ := create_fits hg
    cases h.symm.trans he'
    obtain ⟨hphase, hpend⟩ := busy_eq_false_iff.mp hidle
    exact ⟨.valid hg (.idle hfits hphase hpend), hidle⟩
  · exact ⟨.invalid hg hmade.1 hmade.2, hmade.2⟩

theorem Poised.clearIrq (h : Poised g e) : Poised g e.clearIrq := by
  cases h with
  | valid hg h => exact .valid hg h.clearIrq
  | invalid hg hgeo hidle => exact .invalid hg hgeo hidle

/-! ## Starting -/

/-- Everything that starting a job can do. -/
inductive Started (g : Geometry) (e : Engine) (q : π) (job : JobImage) :
    EStateM.Result (Stop Failure) (Engine × π) Unit → Prop
  | busy (hbusy : e.busy = true) : Started g e q job (.error (.error .busy) (e, q))
  | invalid {flaw : GeometryFlaw} (hidle : e.busy = false)
      (hv : g.validate = .error (.error flaw)) :
      Started g e q job (.error (.error (.geometry flaw)) (e, q))
  | refused {flaw : JobFlaw} (hidle : e.busy = false)
      (hv : job.validate g = .error (.error flaw)) :
      Started g e q job (.error (.error (.job flaw)) (e, q))
  | trapped {t : Trap} (hidle : e.busy = false)
      (hv : g.validate = .error (.trap t) ∨ job.validate g = .error (.trap t)) :
      Started g e q job (.error (.trap t) (e, q))
  | accepted {p : Plan} {s : TileStore} (hidle : e.busy = false) (hg : g.Valid)
      (hfits : e.Fits g) (hv : job.validate g = .ok p) (hp : p.Sound g)
      (hs : s.At g p.n p.colTiles .none) :
      Started g e q job (.ok () (e.begun p s, q))

theorem Poised.starts (h : Poised g e) (job : JobImage) (q : π) :
    Started g e q job (start job (e, q)) := by
  cases hidle : e.busy with
  | true =>
    rw [start_busy hidle]
    exact .busy hidle
  | false =>
    cases h with
    | valid hg h =>
      have hfits := h.fits hidle
      cases hv : job.validate g with
      | ok p =>
        obtain ⟨s, hs, hstart⟩ := start_accepted (π := π) hfits hidle hg hv
        rw [hstart]
        exact .accepted hidle hg hfits hv ((JobImage.accepted_of_validate hv).sound hg) hs
      | error stop =>
        cases stop with
        | error flaw =>
          rw [start_refused hfits hidle hg hv]
          exact .refused hidle hv
        | trap t =>
          rw [start_trapped hfits hidle hg hv]
          exact .trapped hidle (.inr hv)
    | invalid hg hgeo =>
      obtain rfl := hgeo
      simp only [start, run_get_bind, hidle, Bool.false_eq_true, if_false]
      cases hv : e.geometry.validate with
      | ok u => exact absurd (Geometry.validate_eq_ok_iff.mp hv) hg
      | error stop =>
        cases stop with
        | error flaw => exact .invalid hidle hv
        | trap t => exact .trapped hidle (.inl hv)

/-- An idle engine that does not take a job stays as it is. -/
theorem Poised.start_failed (h : Poised g e) {stop : Stop Failure}
    (hs : start job (e, q) = .error stop (e', q')) : e' = e := by
  have hstarts := h.starts job q
  rw [hs] at hstarts
  cases hstarts <;> rfl

/-- One that takes a job is busy from then on. -/
theorem Poised.started (h : Poised g e) (hs : start job (e, q) = .ok () (e', q')) :
    Poised g e' ∧ e'.busy = true := by
  have hstarts := h.starts job q
  rw [hs] at hstarts
  cases hstarts with
  | accepted _ hg hfits _ hp hat => exact ⟨.valid hg (standing_begun hfits hp hat), rfl⟩

/-! ## Delivering -/

theorem busy_of_armed {armed : Event × Nat} (h : e.pending = some armed) : e.busy = true := by
  rw [busy, h]
  exact Bool.or_true _

theorem busy_of_phase (h : e.phase ≠ .idle) : e.busy = true := by
  rw [← Bool.not_eq_false]
  exact fun hidle => h (busy_eq_false_iff.mp hidle).1

/-- Why a call does not come back: the job keeps its checks from an answer, the port stops
the armed subcycle, or the cycles of the job can no longer be counted. -/
inductive Call.Stops [Port π] (g : Geometry) (e : Engine) (q : π) : Call → Trap → Prop
  | job {job : JobImage} {t : Trap} (hv : job.validate g = .error (.trap t)) :
      Stops g e q (.start job) t
  | port {o : Operand} {r : Request} {t : Trap} {q' : π} (hasks : e.asks? = some (o, r))
      (hacc : Port.access r q = .error (.trap t) q') : Stops g e q (.deliver .mainLoop) t
  | clock {o : Operand} {r : Request} {reply : Reply} {q' : π} (hasks : e.asks? = some (o, r))
      (hacc : Port.access r q = .ok reply q')
      (hover : Word.limit ≤ e.report.cycles + (reply.latency + 1)) :
      Stops g e q (.deliver .mainLoop) .overflow
  | idleClock (hasks : e.asks? = none) (hover : Word.limit ≤ e.report.cycles + 1) :
      Stops g e q (.deliver .mainLoop) .overflow

/-- Everything that delivering an event can do. -/
inductive Delivered [Port π] (g : Geometry) (e : Engine) (q : π) :
    Event → EStateM.Result (Stop Failure) (Engine × π) (Option JobReport) → Prop
  | unexpected {event : Event} (hne : e.pending.map (·.1) ≠ some event) :
      Delivered g e q event
        (.error (.error (.unexpectedEvent event (e.pending.map (·.1)))) (e, q))
  | continued {d : Nat} {e' : Engine} {q' : π} (hpend : e.pending = some (.mainLoop, d))
      (hnext : Poised g e') (harmed : e'.pending ≠ none)
      (hfreed : e'.phase = .idle → e'.store.allocated = false) :
      Delivered g e q .mainLoop (.ok none (e', q'))
  | completed {d : Nat} (hpend : e.pending = some (.completion, d)) (hphase : e.phase = .idle)
      (hnext : Poised g { e with pending := none }) :
      Delivered g e q .completion (.ok (some e.report) ({ e with pending := none }, q))
  | failed {d : Nat} {failure : Failure} {e' : Engine} {q' : π}
      (hpend : e.pending = some (.mainLoop, d)) (hfailure : PortFailure failure)
      (hnext : Poised g e') (hphase : e'.phase ≠ .idle) :
      Delivered g e q .mainLoop (.error (.error failure) (e', q'))
  | stopped {d : Nat} {t : Trap} {st : Engine × π} (hpend : e.pending = some (.mainLoop, d))
      (hstops : Call.Stops g e q (.deliver .mainLoop) t) :
      Delivered g e q .mainLoop (.error (.trap t) st)

section

variable [Port π] {event : Event}

/-- Only a valid array has an event to deliver. -/
theorem Poised.standing {armed : Event × Nat} (h : Poised g e) (hpend : e.pending = some armed) :
    g.Valid ∧ Standing g e := by
  cases h with
  | valid hg h => exact ⟨hg, h⟩
  | invalid _ _ hidle => exact absurd (busy_of_armed hpend) (by rw [hidle]; decide)

/-- Delivering the subcycle of a job. -/
theorem OnTrack.delivers {p : Plan} {waited d : Nat} (h : e.OnTrack g p waited) (hg : g.Valid)
    (hp : p.Sound g) (hirq : e.irq = false) (hpend : e.pending = some (.mainLoop, d)) (q : π) :
    Delivered g e q .mainLoop (deliver .mainLoop (e, q)) := by
  have hwakes := h.wakes hg hp hpend q
  rw [wake_eq_deliver hpend] at hwakes
  have hphase := h.valid.phase_ne_idle
  -- a subcycle that went well leaves the job under way
  have hstepped : ∀ {pay : Payload} {latency : Nat} (data : Bytes),
      payload? g p e.tile e.phase = some pay → (pay.beat? = none → latency = 0) →
      e.report.cycles + (latency + 1) < Word.limit →
      Standing g (e.stepped g p pay (latency + 1) data) ∧
        (e.stepped g p pay (latency + 1) data).phase ≠ .idle := fun _ hpay hidle hlt =>
    ⟨h.standing_stepped hg hp hirq hpay hidle hlt,
      (h.next hg hp hpay hidle _ hlt).valid.phase_ne_idle⟩
  cases hd : deliver .mainLoop (e, q) with
  | ok r st =>
    rw [hd] at hwakes
    cases hwakes with
    | idle hpay hbeat hlt =>
      obtain ⟨hstanding, hphase'⟩ := hstepped [] hpay (fun _ => rfl) hlt
      exact .continued hpend (.valid hg hstanding) nofun fun hidle => absurd hidle hphase'
    | @served t reply q' hpay hacc hstatus hlt =>
      obtain ⟨hstanding, hphase'⟩ := hstepped reply.data hpay nofun hlt
      exact .continued hpend (.valid hg hstanding) nofun fun hidle => absurd hidle hphase'
    | retired hfin =>
      refine .continued hpend (.valid hg ?_) nofun fun _ => TileStore.allocated_free e.store
      exact (h.standing_of_deliver hg hp hirq hpend (.inl ⟨_, hd⟩))
  | error stop st =>
    rw [hd] at hwakes
    cases hwakes with
    | idleLate hpay hbeat hle => exact .stopped hpend (.idleClock (h.asks?_eq_none hpay hbeat) hle)
    | late hpay hacc _ hle =>
      exact .stopped hpend (.clock (h.asks?_transfer hg hp hpay) hacc hle)
    | trapped hpay hacc => exact .stopped hpend (.port (h.asks?_transfer hg hp hpay) hacc)
    | refused => exact .failed hpend (.transaction ..) (.valid hg (.stuck hphase rfl)) hphase
    | poisoned => exact .failed hpend .poisoned (.valid hg (.stuck hphase rfl)) hphase

/-- **Delivering an event does one of these things**, whatever came before. -/
theorem Poised.delivers (h : Poised g e) (event : Event) (q : π) :
    Delivered g e q event (deliver event (e, q)) := by
  by_cases hev : e.pending.map (·.1) = some event
  case neg =>
    rw [deliver_unexpected hev]
    exact .unexpected hev
  obtain ⟨⟨event, d⟩, hpend, rfl⟩ := Option.map_eq_some_iff.mp hev
  obtain ⟨hg, h⟩ := h.standing hpend
  cases h with
  | running hp h hpend' _ hirq =>
    cases hpend.symm.trans hpend'
    exact h.delivers hg hp hirq hpend q
  | completing hfits hphase hpend' =>
    cases hpend.symm.trans hpend'
    rw [deliver_armed hpend]
    exact .completed hpend hphase
      (.valid hg (.idle (hfits.congr rfl rfl fun o => stream_disarmed _ o) hphase rfl))
  | idle _ _ hpend' | stuck _ hpend' => cases hpend.symm.trans hpend'

/-- A job that goes on keeps the engine busy. -/
theorem Poised.continued (h : Poised g e) (hd : deliver event (e, q) = .ok none (e', q')) :
    Poised g e' ∧ e'.busy = true := by
  have hdelivers := h.delivers event q
  rw [hd] at hdelivers
  cases hdelivers with
  | continued _ hnext harmed =>
    obtain ⟨armed, harmed⟩ := Option.ne_none_iff_exists'.mp harmed
    exact ⟨hnext, busy_of_armed harmed⟩

/-- A job that has reported leaves it idle. -/
theorem Poised.completed {report : JobReport} (h : Poised g e)
    (hd : deliver event (e, q) = .ok (some report) (e', q')) : Poised g e' ∧ e'.busy = false := by
  have hdelivers := h.delivers event q
  rw [hd] at hdelivers
  cases hdelivers with
  | completed _ hphase hnext => exact ⟨hnext, busy_eq_false_iff.mpr ⟨hphase, rfl⟩⟩

/-- A job that has failed keeps it busy for good. -/
theorem Poised.failed {failure : Failure} (h : Poised g e)
    (harmed : e.pending.map (·.1) = some event)
    (hd : deliver event (e, q) = .error (.error failure) (e', q')) :
    Poised g e' ∧ e'.busy = true := by
  have hdelivers := h.delivers event q
  rw [hd] at hdelivers
  cases hdelivers with
  | unexpected hne => exact absurd harmed hne
  | failed _ _ hnext hphase => exact ⟨hnext, busy_of_phase hphase⟩

end

/-! ## Calls and their answers -/

/-- Makes a call. The result is the report of a job that the call completes. -/
def Call.answer [Port π] : Call → Run Failure (Engine × π) (Option JobReport)
  | .start job => do
    Engine.start job
    return none
  | .deliver event => Engine.deliver event
  | .clearIrq => do
    modify fun (e, port) => (e.clearIrq, port)
    return none

theorem Call.answer_start_ok [Port π] {r : Option JobReport} {st st' : Engine × π}
    (h : (Call.start job).answer st = .ok r st') : Engine.start job st = .ok () st' ∧ r = none := by
  cases hs : Engine.start job st with
  | ok u st₁ =>
    rw [answer, run_bind_ok hs] at h
    cases h
    exact ⟨rfl, rfl⟩
  | error stop st₁ =>
    rw [answer, run_bind_error hs] at h
    cases h

theorem Call.answer_start_error [Port π] {stop : Stop Failure} {st st' : Engine × π}
    (h : (Call.start job).answer st = .error stop st') : Engine.start job st = .error stop st' := by
  cases hs : Engine.start job st with
  | ok u st₁ =>
    rw [answer, run_bind_ok hs] at h
    cases h
  | error stop st₁ =>
    rw [answer, run_bind_error hs] at h
    cases h
    rfl

/-- What a start comes back with is one of the things that it can do. -/
theorem Poised.started_of_answer [Port π] (h : Poised g e) {r : Option JobReport}
    {st : Engine × π} (hcall : (Call.start job).answer (e, q) = .ok r st) :
    Started g e q job (.ok () st) ∧ r = none := by
  obtain ⟨hs, hr⟩ := Call.answer_start_ok hcall
  exact ⟨hs ▸ h.starts job q, hr⟩

theorem Poised.not_started_of_answer [Port π] (h : Poised g e) {stop : Stop Failure}
    {st : Engine × π} (hcall : (Call.start job).answer (e, q) = .error stop st) :
    Started g e q job (.error stop st) :=
  Call.answer_start_error hcall ▸ h.starts job q

/-- And so is what a delivery comes back with. -/
theorem Poised.delivered_of_answer [Port π] (h : Poised g e) {event : Event}
    {result : EStateM.Result (Stop Failure) (Engine × π) (Option JobReport)}
    (hcall : (Call.deliver event).answer (e, q) = result) : Delivered g e q event result :=
  hcall ▸ h.delivers event q

/-- A call and what it came back with. -/
abbrev Exchange := Call × Except Failure (Option JobReport)

/-- The calls that an engine of an array has had, oldest first, whatever the port held
before each of them. -/
inductive History (π : Type) [Port π] (g : Geometry) : List Exchange → Engine → Prop
  | created {e : Engine} (h : create g = .ok e) : History π g [] e
  | returned {log : List Exchange} {e e' : Engine} {c : Call} {r : Option JobReport} {q q' : π}
      (h : History π g log e) (hcall : c.answer (e, q) = .ok r (e', q')) :
      History π g (log ++ [(c, .ok r)]) e'
  | failed {log : List Exchange} {e e' : Engine} {c : Call} {failure : Failure} {q q' : π}
      (h : History π g log e) (hcall : c.answer (e, q) = .error (.error failure) (e', q')) :
      History π g (log ++ [(c, .error failure)]) e'

/-- Whether a failure turns a call down. -/
inductive Refusal : Failure → Prop
  | busy : Refusal .busy
  | geometry (flaw : GeometryFlaw) : Refusal (.geometry flaw)
  | job (flaw : JobFlaw) : Refusal (.job flaw)
  | unexpectedEvent (event : Event) (armed : Option Event) :
      Refusal (.unexpectedEvent event armed)

/-- Whether an exchange is a start that was accepted. -/
def Exchange.accepts : Exchange → Bool
  | (.start _, .ok _) => true
  | _ => false

/-- Whether an exchange gave a report. -/
def Exchange.reports : Exchange → Bool
  | (_, .ok (some _)) => true
  | _ => false

/-- How many jobs have been accepted. -/
def accepted (log : List Exchange) : Nat := log.countP Exchange.accepts

/-- How many reports there have been. -/
def reported (log : List Exchange) : Nat := log.countP Exchange.reports

/-- Whether no access to memory has failed. -/
def Unfaulted (log : List Exchange) : Prop :=
  ∀ c failure, (c, .error failure) ∈ log → ¬ PortFailure failure

theorem accepted_append (log : List Exchange) (x : Exchange) :
    accepted (log ++ [x]) = accepted log + x.accepts.toNat := by
  rw [accepted, List.countP_append, List.countP_singleton, accepted]
  cases x.accepts <;> rfl

theorem reported_append (log : List Exchange) (x : Exchange) :
    reported (log ++ [x]) = reported log + x.reports.toNat := by
  rw [reported, List.countP_append, List.countP_singleton, reported]
  cases x.reports <;> rfl

theorem Unfaulted.init {log : List Exchange} {x : Exchange} (h : Unfaulted (log ++ [x])) :
    Unfaulted log := fun c failure hmem => h c failure (List.mem_append_left _ hmem)

theorem Unfaulted.append {log more : List Exchange} (h : Unfaulted log) (hmore : Unfaulted more) :
    Unfaulted (log ++ more) := fun c failure hmem =>
  (List.mem_append.mp hmem).elim (h c failure) (hmore c failure)

/-- What is left of calls and their answers. -/
structure Accounted (g : Geometry) (log : List Exchange) (e : Engine) : Prop where
  poised : Poised g e
  freed : e.phase = .idle → e.store.allocated = false
  armed : Unfaulted log → e.busy = true → e.pending ≠ none
  accounts : accepted log = reported log + e.busy.toNat

theorem create_accounted (h : create g = .ok e) : Accounted g [] e := by
  obtain ⟨hpoised, hidle⟩ := create_poised h
  refine ⟨hpoised, fun _ => ?_, fun _ hbusy => ?_, ?_⟩
  · obtain ⟨beat, -, h⟩ := bind_eq_ok_iff.mp h
    obtain ⟨s, hs, h⟩ := bind_eq_ok_iff.mp h
    cases h
    exact TileStore.allocated_create hs
  · exact absurd (hidle.symm.trans hbusy) (by decide)
  · rw [hidle]
    rfl

namespace Accounted

variable {log : List Exchange} {c : Call}

/-- A call that is rejected is as if it had not been made. -/
theorem rejected (h : Accounted g log e) (c : Call) (failure : Failure) :
    Accounted g (log ++ [(c, .error failure)]) e where
  poised := h.poised
  freed := h.freed
  armed := fun hlog => h.armed hlog.init
  accounts := by
    have haccepts : Exchange.accepts (c, .error failure) = false := by cases c <;> rfl
    rw [accepted_append, reported_append, haccepts, h.accounts]
    rfl

theorem started (h : Accounted g log e) {job : JobImage}
    (hs : Started g e q job (.ok () (e', q'))) :
    Accounted g (log ++ [(.start job, .ok none)]) e' := by
  cases hs with
  | accepted hidle hg hfits _ hp hat =>
    have haccounts := h.accounts
    rw [hidle] at haccounts
    refine ⟨.valid hg (standing_begun hfits hp hat), nofun, fun _ _ => nofun, ?_⟩
    rw [accepted_append, reported_append, haccounts]
    rfl

theorem cleared (h : Accounted g log e) :
    Accounted g (log ++ [(.clearIrq, .ok none)]) e.clearIrq where
  poised := h.poised.clearIrq
  freed := h.freed
  armed := fun hlog => h.armed hlog.init
  accounts := by
    rw [accepted_append, reported_append, h.accounts]
    rfl

variable [Port π]

/-- What delivering an event does to the accounts. -/
theorem delivered (h : Accounted g log e) {event : Event} {r : Option JobReport}
    (hd : Delivered g e q event (.ok r (e', q'))) :
    Accounted g (log ++ [(.deliver event, .ok r)]) e' := by
  have haccounts := h.accounts
  cases hd with
  | continued hpend hnext harmed hfreed =>
    obtain ⟨armed, harmed'⟩ := Option.ne_none_iff_exists'.mp harmed
    rw [busy_of_armed hpend] at haccounts
    refine ⟨hnext, hfreed, fun _ _ => harmed, ?_⟩
    rw [accepted_append, reported_append, haccounts, busy_of_armed harmed']
    rfl
  | completed hpend hphase hnext =>
    have hidle : ({ e with pending := none } : Engine).busy = false :=
      busy_eq_false_iff.mpr ⟨hphase, rfl⟩
    rw [busy_of_armed hpend] at haccounts
    refine ⟨hnext, h.freed, fun _ hbusy => absurd (hidle.symm.trans hbusy) (by decide), ?_⟩
    rw [accepted_append, reported_append, haccounts, hidle]
    rfl

theorem fault (h : Accounted g log e) {event : Event} {failure : Failure}
    (hd : Delivered g e q event (.error (.error failure) (e', q'))) :
    Accounted g (log ++ [(.deliver event, .error failure)]) e' := by
  cases hd with
  | unexpected => exact h.rejected _ _
  | failed hpend hfailure hnext hphase =>
    have haccounts := h.accounts
    rw [busy_of_armed hpend] at haccounts
    refine ⟨hnext, fun hidle => absurd hidle hphase, fun hlog => ?_, ?_⟩
    · exact absurd hfailure (hlog _ _ (List.mem_append_right _ List.mem_cons_self))
    · rw [accepted_append, reported_append, haccounts, busy_of_phase hphase]
      rfl

/-- **Every call keeps the accounts.** -/
theorem returned (h : Accounted g log e) {r : Option JobReport}
    (hcall : c.answer (e, q) = .ok r (e', q')) : Accounted g (log ++ [(c, .ok r)]) e' := by
  cases c with
  | start job =>
    obtain ⟨hstarted, rfl⟩ := h.poised.started_of_answer hcall
    exact h.started hstarted
  | deliver event =>
    exact h.delivered (h.poised.delivered_of_answer hcall)
  | clearIrq =>
    cases hcall
    exact h.cleared

theorem failed (h : Accounted g log e) {failure : Failure}
    (hcall : c.answer (e, q) = .error (.error failure) (e', q')) :
    Accounted g (log ++ [(c, .error failure)]) e' := by
  cases c with
  | start job =>
    cases h.poised.not_started_of_answer hcall <;> exact h.rejected _ _
  | deliver event =>
    exact h.fault (h.poised.delivered_of_answer hcall)
  | clearIrq => cases hcall

end Accounted

theorem History.accounted [Port π] {log : List Exchange} (h : History π g log e) :
    Accounted g log e := by
  induction h with
  | created h => exact create_accounted h
  | returned _ hcall ih => exact ih.returned hcall
  | failed _ hcall ih => exact ih.failed hcall

/-- The checks of an array that can be built have an answer. -/
theorem History.untrapped [Port π] {log : List Exchange} (h : History π g log e) :
    Untrapped g.validate := by
  induction h with
  | created h =>
    obtain ⟨beat, hbeat, -⟩ := bind_eq_ok_iff.mp h
    unfold Geometry.validate
    refine (untrapped_ensure _ _).bind fun _ _ => ?_
    exact (untrapped_liftM hbeat).bind fun _ _ => untrapped_ensure _ _
  | returned _ _ ih | failed _ _ ih => exact ih

section

variable [Port π] {log : List Exchange}

/-- A failure is the rejection of a call, which changes nothing, or it is that of an access
to memory. -/
theorem Accounted.failure_cases (h : Accounted g log e) {c : Call} {failure : Failure}
    (hcall : c.answer (e, q) = .error (.error failure) (e', q')) :
    Refusal failure ∧ e' = e ∧ q' = q ∨ PortFailure failure := by
  cases c with
  | start job =>
    cases h.poised.not_started_of_answer hcall with
    | busy => exact .inl ⟨.busy, rfl, rfl⟩
    | invalid => exact .inl ⟨.geometry _, rfl, rfl⟩
    | refused => exact .inl ⟨.job _, rfl, rfl⟩
  | deliver event =>
    cases h.poised.delivered_of_answer hcall with
    | unexpected => exact .inl ⟨.unexpectedEvent _ _, rfl, rfl⟩
    | failed _ hfailure => exact .inr hfailure
  | clearIrq => cases hcall

/-- A report is the answer to the completion that is armed, and to nothing else. -/
theorem Accounted.report_iff (h : Accounted g log e) (c : Call) (q : π) :
    (∃ report st, c.answer (e, q) = .ok (some report) st) ↔
      c = .deliver .completion ∧ e.pending.map (·.1) = some .completion := by
  constructor
  · rintro ⟨report, ⟨e', q'⟩, hcall⟩
    cases c with
    | start job => cases (Call.answer_start_ok hcall).2
    | deliver event =>
      cases h.poised.delivered_of_answer hcall with
      | completed hpend => exact ⟨rfl, congrArg (Option.map (·.1)) hpend⟩
    | clearIrq => cases hcall
  · rintro ⟨rfl, harmed⟩
    obtain ⟨⟨event, d⟩, hpend, rfl⟩ := Option.map_eq_some_iff.mp harmed
    exact ⟨_, _, deliver_armed hpend q⟩

/-- What the engine says of a job under way, as long as no access has failed. -/
theorem Accounted.coupled (h : Accounted g log e) (hlog : Unfaulted log) :
    (e.pending ≠ none ↔ e.busy = true) ∧
      (e.pending.map (·.1) = some .completion ↔ e.pending ≠ none ∧ e.phase = .idle) ∧
      (e.store.allocated = true ↔ e.phase ≠ .idle) := by
  cases hpend : e.pending with
  | none =>
    -- without an event the engine is idle, and so is its phase
    have hidle : e.busy = false := by
      rw [← Bool.not_eq_true]
      exact fun hbusy => h.armed hlog hbusy hpend
    obtain ⟨hphase, -⟩ := busy_eq_false_iff.mp hidle
    rw [hidle, h.freed hphase, hphase]
    exact ⟨by simp, by simp, by simp⟩
  | some armed =>
    obtain ⟨event, d⟩ := armed
    obtain ⟨-, hstanding⟩ := h.poised.standing hpend
    rw [busy_of_armed hpend]
    cases hstanding with
    | running _ htrack hpend' =>
      cases hpend.symm.trans hpend'
      have hphase : e.phase ≠ .idle := htrack.valid.phase_ne_idle
      exact ⟨by simp, by simp [hphase], by simp [hphase, htrack.loaded.store.allocated]⟩
    | completing _ hphase hpend' =>
      cases hpend.symm.trans hpend'
      exact ⟨by simp, by simp [hphase], by simp [hphase, h.freed hphase]⟩
    | idle _ _ hpend' | stuck _ hpend' => cases hpend.symm.trans hpend'

/-- A call that does not come back has a reason. -/
theorem Accounted.stops (h : Accounted g log e) (hg : Untrapped g.validate) {c : Call} {t : Trap}
    {st : Engine × π} (hcall : c.answer (e, q) = .error (.trap t) st) : c.Stops g e q t := by
  cases c with
  | start job =>
    cases h.poised.not_started_of_answer hcall with
    | trapped _ hv => exact .job (hv.resolve_left (hg t))
  | deliver event =>
    cases h.poised.delivered_of_answer hcall with
    | stopped _ hstops => exact hstops
  | clearIrq => cases hcall

/-- **The protocol of an engine.** Whatever calls an engine of any array has had, with any
answers of its port: a call that fails is rejected and changes neither engine nor memory,
or it is an access to memory that failed, and no event is ever armed over another one. A
report is what delivering the armed completion gives and nothing else does, and there is
one for every job accepted but for the one under way. As long as no access has failed, an
event is armed if and only if the engine is busy, it is the completion if and only if the
phase is idle, and the store is allocated if and only if it is not. A call that does not
come back has one of the reasons of `Call.Stops`. -/
theorem History.protocol (h : History π g log e) :
    (∀ (c : Call) q failure e' (q' : π), c.answer (e, q) = .error (.error failure) (e', q') →
      Refusal failure ∧ e' = e ∧ q' = q ∨ PortFailure failure) ∧
    (∀ (c : Call) (q : π) event armed st,
      c.answer (e, q) ≠ .error (.error (.continuationPending event armed)) st) ∧
    (∀ (c : Call) (q : π), (∃ report st, c.answer (e, q) = .ok (some report) st) ↔
      c = .deliver .completion ∧ e.pending.map (·.1) = some .completion) ∧
    accepted log = reported log + e.busy.toNat ∧
    (Unfaulted log →
      (e.pending ≠ none ↔ e.busy = true) ∧
      (e.pending.map (·.1) = some .completion ↔ e.pending ≠ none ∧ e.phase = .idle) ∧
      (e.store.allocated = true ↔ e.phase ≠ .idle)) ∧
    (∀ (c : Call) (q : π) t st, c.answer (e, q) = .error (.trap t) st → c.Stops g e q t) := by
  have haccounted := h.accounted
  refine ⟨fun c q failure e' q' hcall => haccounted.failure_cases hcall, ?_,
    haccounted.report_iff, haccounted.accounts, haccounted.coupled,
    fun c q t st hcall => haccounted.stops h.untrapped hcall⟩
  rintro c q event armed ⟨e', q'⟩ hcall
  rcases haccounted.failure_cases hcall with ⟨hrefusal, -⟩ | hport
  · cases hrefusal
  · cases hport

end

/-- Deliveries that end in a report are calls that do not fail, and give one report. -/
theorem History.delivered [Port π] {log : List Exchange} (h : History π g log e)
    {events : List (Event × Nat)} {report : JobReport} (hr : Reports e q events report q') :
    ∃ more e', History π g (log ++ more) e' ∧ Unfaulted more ∧
      accepted (log ++ more) = accepted log ∧ reported (log ++ more) = reported log + 1 := by
  induction hr generalizing log with
  | @last e e' q q' event l report hpend hd =>
    refine ⟨[(.deliver event, .ok (some report))], e', h.returned (c := .deliver event) hd, ?_, ?_,
      ?_⟩
    · simp [Unfaulted]
    · rw [accepted_append]
      rfl
    · rw [reported_append]
      rfl
  | @more e e' q q' q'' event l events report hpend hd hr ih =>
    obtain ⟨more, e'', hmore, hfine, haccepted, hreported⟩ :=
      ih (h.returned (c := .deliver event) hd)
    rw [accepted_append] at haccepted
    rw [reported_append] at hreported
    rw [List.append_assoc] at hmore haccepted hreported
    exact ⟨_, e'', hmore, by simpa [Unfaulted] using hfine, haccepted, hreported⟩

/-- A run is calls that do not fail. -/
theorem History.ran [Port π] {log : List Exchange} (h : History π g log e) {beats : List Beat}
    {st : Engine × π} (hruns : Runs (e, q) beats st) :
    ∃ more, History π g (log ++ more) st.1 ∧ Unfaulted more := by
  -- each delivery of the run goes to the end of the history
  have hdelivered : ∀ {more : List Exchange} {e e' : Engine} {q q' : π} {d : Nat},
      History π g (log ++ more) e → Unfaulted more →
      wake (e, q) = .ok (some (d, none)) (e', q') →
      ∃ more', History π g (log ++ more') e' ∧ Unfaulted more' := by
    intro more e e' q q' d hmore hfine hwake
    obtain ⟨event, -, hd⟩ := deliver_of_wake hwake
    have hnext := hmore.returned (c := .deliver event) hd
    rw [List.append_assoc] at hnext
    exact ⟨_, hnext, hfine.append (by simp [Unfaulted])⟩
  induction hruns with
  | none => exact ⟨[], by rwa [List.append_nil], by simp [Unfaulted]⟩
  | idle _ _ hwake ih =>
    obtain ⟨more, hmore, hfine⟩ := ih
    exact hdelivered hmore hfine hwake
  | beat _ _ _ hwake ih =>
    obtain ⟨more, hmore, hfine⟩ := ih
    exact hdelivered hmore hfine hwake

/-- A whole job, and calls that come too early. -/
theorem History.protocol_ragged : ∃ log e, History Memory .narrow log e ∧ Unfaulted log ∧
    accepted log = 1 ∧ reported log = 1 ∧ e.busy = false ∧ e.store.allocated = false := by
  have hvalid := Geometry.validate_eq_ok_iff.mp Geometry.validate_narrow
  have hv := JobImage.validate_ragged 0x200 0x300
  have hp := (JobImage.accepted_of_validate hv).sound hvalid
  obtain ⟨e, he, -, hidle⟩ := create_fits hvalid
  have hpend := (busy_eq_false_iff.mp hidle).2
  obtain ⟨e', htaken, hstart⟩ := (Reachable.created (π := Memory) he).taken (π := Memory) hvalid
    hidle hv
  let port : Memory := .zeroed 0 0x400 3
  obtain ⟨hserved, hclock⟩ := htaken.served_ragged backed_self port rfl rfl rfl
  obtain ⟨events, report, q, hreports⟩ := htaken.exists_reports hvalid hp hserved hclock
  have hearly := (History.created he).failed (c := .deliver .completion)
    (deliver_unexpected (by rw [hpend]; nofun) port)
  have hstarted := hearly.returned (c := .start (.ragged 0x200 0x300)) (run_bind_ok (hstart port))
  have hagain := hstarted.failed (c := .start (.ragged 0x200 0x300))
    (run_bind_error (start_busy (busy_of_armed htaken.pending) _ port))
  have hrejected : Unfaulted [(.deliver .completion, .error (.unexpectedEvent .completion
      (e.pending.map (·.1)))), (.start (.ragged 0x200 0x300), .ok none),
      (.start (.ragged 0x200 0x300), .error .busy)] := fun c failure hmem hfailure => by
    simp only [List.mem_cons, Prod.mk.injEq, Except.error.injEq, List.not_mem_nil] at hmem
    cases hfailure <;> simp at hmem
  obtain ⟨more, e'', hall, hfine, haccepted, hreported⟩ := hagain.delivered hreports
  have hlog := hrejected.append hfine
  obtain ⟨-, -, -, haccounts, hcoupled, -⟩ := hall.protocol
  obtain ⟨-, -, hallocated⟩ := hcoupled hlog
  rw [haccepted, hreported] at haccounts
  have hidle : e''.busy = false := by
    rw [← Bool.toNat_eq_zero]
    exact (Nat.add_left_cancel haccounts).symm
  have hfreed : e''.store.allocated = false := by
    rw [← Bool.not_eq_true, hallocated, not_not]
    exact (busy_eq_false_iff.mp hidle).1
  exact ⟨_, e'', hall, hlog, haccepted, hreported, hidle, hfreed⟩

end Engine

end SystolicGemm
