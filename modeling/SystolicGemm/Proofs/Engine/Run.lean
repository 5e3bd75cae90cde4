import SystolicGemm.Proofs.Engine.History

/-!
# Whole runs of a job

`Runs` is what deliveries do to engine and port, with the beats on the way. An
invariant of subcycles (`Kept`) holds along every run of a job, and a run with
enough deliveries gets to the report unless one of them stops it.
-/

namespace SystolicGemm

/-- A beat that memory has answered, and the stream that asked for it. -/
structure Beat where
  operand : Operand
  request : Request
  reply : Reply
  deriving DecidableEq, Repr

namespace Engine

variable {π : Type} {g : Geometry} {p : Plan} {e : Engine} {n : Nat}
  {Inv : List Beat → Engine → π → Prop}

/-! ## The beginning of a job -/

/-- The engine has taken a job and not begun with it. -/
structure Taken (e : Engine) (g : Geometry) (p : Plan) : Prop where
  onTrack : e.OnTrack g p 0
  station : e.station = ⟨.starting 0, ⟨0, 0⟩⟩
  pending : e.pending = some (.mainLoop, 0)
  irq : e.irq = false

theorem Taken.moved (h : e.Taken g p) (o : Operand) : e.station.moved g p o = 0 := by
  rw [h.station, Station.moved_start]

/-- An engine that no job occupies takes every job that fits the array. -/
theorem Standing.taken (he : Standing g e) (hg : g.Valid) (hidle : e.busy = false)
    {job : JobImage} (hv : job.validate g = .ok p) :
    ∃ e', e'.Taken g p ∧ ∀ port : π, Engine.start job (e, port) = .ok () (e', port) := by
  have hfits := he.fits hidle
  obtain ⟨s, hs, hstart⟩ := start_accepted hfits hidle hg hv
  have hp := (JobImage.accepted_of_validate hv).sound hg
  exact ⟨e.begun p s, ⟨onTrack_begun hfits hp hs, rfl, rfl, rfl⟩, hstart⟩

/-- **So it does whatever it has been through.** -/
theorem Reachable.taken {ρ : Type} [Port ρ] (he : Reachable ρ g e) (hg : g.Valid)
    (hidle : e.busy = false) {job : JobImage} (hv : job.validate g = .ok p) :
    ∃ e', e'.Taken g p ∧ ∀ port : π, start job (e, port) = .ok () (e', port) :=
  (he.standing hg).taken hg hidle hv

/-! ## Where a run can be -/

/-- Cycles that the answers took. -/
def waited : List Beat → Nat
  | [] => 0
  | b :: log => b.reply.latency + waited log

/-- Whether every answer was `ok`. -/
def AllOk (log : List Beat) : Prop := ∀ b ∈ log, b.reply.status = .ok

/-- The requests of one stream. -/
def requests (log : List Beat) (o : Operand) : List Request :=
  (log.filter (·.operand = o)).map (·.request)

@[simp] theorem waited_append (log : List Beat) (b : Beat) :
    waited (log ++ [b]) = waited log + b.reply.latency := by
  induction log with
  | nil => exact Nat.add_comm ..
  | cons c log ih => rw [List.cons_append, waited, ih, waited, Nat.add_assoc]

theorem AllOk.append {log : List Beat} (h : AllOk log) {b : Beat} (hb : b.reply.status = .ok) :
    AllOk (log ++ [b]) := by
  intro c hc
  rcases List.mem_append.mp hc with hc | hc
  · exact h c hc
  · rw [List.mem_singleton.mp hc]
    exact hb

theorem requests_append (log : List Beat) (b : Beat) (o : Operand) :
    requests (log ++ [b]) o = requests log o ++ if b.operand = o then [b.request] else [] := by
  unfold requests
  split <;> simp [*]

/-- Where a run of a job can be: under way, or about to report. -/
inductive Along (g : Geometry) (p : Plan) (Inv : List Beat → Engine → π → Prop) (log : List Beat) :
    Engine × π → Prop
  | running {e : Engine} {port : π} {d : Nat} (h : e.OnTrack g p (waited log))
      (hpend : e.pending = some (.mainLoop, d)) (hinv : Inv log e port) :
      Along g p Inv log (e, port)
  | retired {e : Engine} {port : π} (h : e.OnTrack g p (waited log)) (hfin : e.phase = .finished)
      (hinv : Inv log e port) :
      Along g p Inv log ({ e.retire with pending := some (.completion, 0) }, port)

/-- An armed subcycle is one of the run's. -/
theorem Along.of_pending {log : List Beat} {e : Engine} {port : π} {d : Nat}
    (h : Along g p Inv log (e, port)) (hpend : e.pending = some (.mainLoop, d)) :
    e.OnTrack g p (waited log) ∧ Inv log e port := by
  cases h with
  | running h _ hinv => exact ⟨h, hinv⟩
  | retired => cases hpend

theorem Taken.along (h : e.Taken g p) {port : π} (hinv : Inv [] e port) :
    Along g p Inv [] (e, port) :=
  .running h.onTrack h.pending hinv

variable [Port π]

/-! ## Beats of a run -/

/-- What the armed subcycle is going to ask of the port, and for which stream. -/
def asks? (e : Engine) : Option (Operand × Request) :=
  match e.plan with
  | none => none
  | some p =>
    match payload? e.geometry p e.tile e.phase with
    | some (.transfer t) =>
      match takeSlot e.store t, (e.stream t.operand).addr with
      | .ok (slot, store), .ok addr =>
        some (t.operand, ⟨(e.stream t.operand).direction, addr, store.read slot,
          strobe e.geometry.format p t⟩)
      | _, _ => none
    | _ => none

/-- Delivering armed events leads from one state to another, and these are the
beats on the way, oldest first. -/
inductive Runs (st : Engine × π) : List Beat → Engine × π → Prop
  | none : Runs st [] st
  | idle {log : List Beat} {e e' : Engine} {port : π} {d : Nat} (h : Runs st log (e, port))
      (hasks : e.asks? = none) (hwake : wake (e, port) = .ok (some (d, none)) (e', port)) :
      Runs st log (e', port)
  | beat {log : List Beat} {e e' : Engine} {port port' : π} {d : Nat} {b : Beat}
      (h : Runs st log (e, port)) (hasks : e.asks? = some (b.operand, b.request))
      (hacc : Port.access b.request port = .ok b.reply port')
      (hwake : wake (e, port) = .ok (some (d, none)) (e', port')) :
      Runs st (log ++ [b]) (e', port')

theorem OnTrack.asks?_eq_none (h : e.OnTrack g p n) {pay : Payload}
    (hpay : payload? g p e.tile e.phase = some pay) (hbeat : pay.beat? = none) :
    e.asks? = none := by
  simp only [asks?, h.loaded.plan, h.loaded.geometry, hpay]
  cases pay with
  | transfer t => cases hbeat
  | paddingW | bubble => rfl

theorem OnTrack.asks?_transfer (hg : g.Valid) (hp : p.Sound g) (h : e.OnTrack g p n) {t : Transfer}
    (hpay : payload? g p e.tile e.phase = some (.transfer t)) :
    e.asks? = some (t.operand, e.request g p t) := by
  have hdue := (h.valid.moves hg hp hpay).due t rfl
  have hm := h.loaded.moved t.operand
  have haddr : (e.stream t.operand).addr =
      .ok (p.addr g t.operand (e.station.moved g p t.operand)) := by
    rw [Stream.addr, hm.pattern, hm.pos, Nat.mod_eq_of_lt (hp.total _ ▸ hdue.2),
      hp.addr_posAt hdue.2]
  simp only [asks?, h.loaded.plan, h.loaded.geometry, hpay,
    h.loaded.takeSlot (TileStore.roomy hp hg) hdue, haddr, h.loaded.direction, read_waiting]
  rfl

theorem OnTrack.asks?_finished (h : e.OnTrack g p n) (hfin : e.phase = .finished) :
    e.asks? = none := by
  simp only [asks?, h.loaded.plan, hfin]
  rfl

/-- Only the beat of a subcycle is asked for. -/
theorem OnTrack.exists_transfer (hg : g.Valid) (hp : p.Sound g) (h : e.OnTrack g p n)
    {o : Operand} {r : Request} (hasks : e.asks? = some (o, r)) :
    ∃ t : Transfer, payload? g p e.tile e.phase = some (.transfer t) ∧ o = t.operand ∧
      r = e.request g p t := by
  by_cases hfin : e.phase = .finished
  · rw [h.asks?_finished hfin] at hasks
    cases hasks
  obtain ⟨pay, hpay⟩ := h.valid.exists_payload hfin
  cases pay with
  | transfer t =>
    rw [h.asks?_transfer hg hp hpay] at hasks
    cases hasks
    exact ⟨t, hpay, rfl, rfl⟩
  | paddingW | bubble =>
    rw [h.asks?_eq_none hpay rfl] at hasks
    cases hasks

/-! ## Invariants along a run -/

/-- An invariant of the beats so far, engine and port that subcycles preserve. -/
structure Kept (g : Geometry) (p : Plan) (Inv : List Beat → Engine → π → Prop) : Prop where
  idle : ∀ {log : List Beat} {e : Engine} {port : π} {pay : Payload}, e.OnTrack g p (waited log) →
    Inv log e port → payload? g p e.tile e.phase = some pay → pay.beat? = none →
    Inv log (e.stepped g p pay 1 []) port
  served : ∀ {log : List Beat} {e : Engine} {port port' : π} {t : Transfer} {reply : Reply},
    e.OnTrack g p (waited log) → Inv log e port →
    payload? g p e.tile e.phase = some (.transfer t) →
    Port.access (e.request g p t) port = .ok reply port' → reply.status = .ok →
    Inv (log ++ [⟨t.operand, e.request g p t, reply⟩])
      (e.stepped g p (.transfer t) (reply.latency + 1) reply.data) port'

/-- **What subcycles preserve, a run preserves.** -/
theorem Runs.along (hg : g.Valid) (hp : p.Sound g) (hkept : Kept g p Inv) {st st' : Engine × π}
    {log : List Beat} (h : Runs st log st') (hst : Along g p Inv [] st) :
    Along g p Inv log st' := by
  induction h with
  | none => exact hst
  | @idle log e e' port d _ hasks hwake ih =>
    cases ih with
    | running h hpend hinv =>
      have hw := h.wakes hg hp hpend port
      rw [hwake] at hw
      cases hw with
      | idle hpay hbeat hlt =>
        exact .running (h.next hg hp hpay (fun _ => rfl) [] hlt) rfl (hkept.idle h hinv hpay hbeat)
      | served hpay =>
        rw [h.asks?_transfer hg hp hpay] at hasks
        cases hasks
      | retired hfin => exact .retired h hfin hinv
    | retired =>
      -- the completion reports, and `idle` and `beat` deliver no report
      rw [wake_completion rfl port] at hwake
      cases hwake
  | @beat log e e' port port' d b _ hasks hacc hwake ih =>
    cases ih with
    | running h hpend hinv =>
      obtain ⟨t, hpay, ho, hr⟩ := h.exists_transfer hg hp hasks
      have hw := h.wakes hg hp hpend port
      rw [hwake] at hw
      cases hw with
      | idle hpay' hbeat =>
        -- the subcycle has one payload, and it is a beat
        rw [hpay] at hpay'
        cases hpay'
        cases hbeat
      | served hpay' hacc' hstatus hlt =>
        rw [hpay] at hpay'
        cases hpay'
        rw [hr, hacc'] at hacc
        cases hacc
        obtain ⟨o, r, reply⟩ := b
        subst ho hr
        refine .running ?_ rfl (hkept.served h hinv hpay hacc' hstatus)
        rw [waited_append]
        exact h.next hg hp hpay (fun hbeat => by cases hbeat) _ hlt
      | retired hfin => exact absurd hfin (phase_ne_finished hpay)
    | retired =>
      rw [wake_completion rfl port] at hwake
      cases hwake

/-! ## Deliveries one after the other -/

theorem drain_succ_ok {st st' : Engine × π} {d : Nat} (h : wake st = .ok (some (d, none)) st')
    (fuel : Nat) :
    drain (fuel + 1) st =
      match drain fuel st' with
      | .ok (rest, report) st'' => .ok (d + rest, report) st''
      | .error stop st'' => .error stop st'' := by
  rw [drain, run_bind_ok h]
  cases hd : drain fuel st' with
  | ok r st'' => exact run_bind_ok hd
  | error stop st'' => exact run_bind_error hd

theorem drain_succ_reported {st st' : Engine × π} {d : Nat} {report : JobReport}
    (h : wake st = .ok (some (d, some report)) st') (fuel : Nat) :
    drain (fuel + 1) st = .ok (d, some report) st' := by
  rw [drain, run_bind_ok h]
  rfl

theorem drain_succ_error {st st' : Engine × π} {stop : Stop Failure}
    (h : wake st = .error stop st') (fuel : Nat) : drain (fuel + 1) st = .error stop st' := by
  rw [drain, run_bind_error h]

/-- Where at most `fuel` deliveries get to, of `left` that would complete the
job: `before` is what the clock showed at the start, with the armed delay still
to come. -/
inductive Drained (g : Geometry) (p : Plan) (st : Engine × π) (before left fuel : Nat) :
    EStateM.Result (Stop Failure) (Engine × π) (Nat × Option JobReport) → Prop
  | reported {log : List Beat} {e : Engine} {port : π} {delay d : Nat}
      (hruns : Runs st log (e, port)) (hpend : e.pending = some (.mainLoop, d))
      (hfin : e.phase = .finished) (hdelay : before + delay = e.report.cycles) :
      Drained g p st before left fuel
        (.ok (delay, some e.retire.report) ({ e.retire with pending := none }, port))
  | retired {log : List Beat} {e : Engine} {port : π} {delay d : Nat}
      (hruns : Runs st log (e, port)) (hpend : e.pending = some (.mainLoop, d))
      (hfin : e.phase = .finished) (hfuel : fuel < left) :
      Drained g p st before left fuel
        (.ok (delay, none) ({ e.retire with pending := some (.completion, 0) }, port))
  | waiting {log : List Beat} {e : Engine} {port : π} {delay d : Nat}
      (hruns : Runs st log (e, port)) (hpend : e.pending = some (.mainLoop, d))
      (hfuel : fuel < left) :
      Drained g p st before left fuel (.ok (delay, none) (e, port))
  | stopped {log : List Beat} {e : Engine} {port : π} {d : Nat} {stop : Stop Failure}
      {st' : Engine × π} (hruns : Runs st log (e, port)) (hpend : e.pending = some (.mainLoop, d))
      (hwake : wake (e, port) = .error stop st') :
      Drained g p st before left fuel (.error stop st')

/-- A delivery before a run. -/
theorem Drained.succ {st : Engine × π} {before left fuel d : Nat}
    {r : EStateM.Result (Stop Failure) (Engine × π) (Nat × Option JobReport)} :
    Drained g p st (before + d) left fuel r →
    Drained g p st before (left + 1) (fuel + 1)
      (match r with
      | .ok (rest, report) st => .ok (d + rest, report) st
      | .error stop st => .error stop st) := by
  intro h
  cases h with
  | reported hruns hpend hfin hdelay => exact .reported hruns hpend hfin (by omega)
  | retired hruns hpend hfin hfuel => exact .retired hruns hpend hfin (Nat.succ_lt_succ hfuel)
  | waiting hruns hpend hfuel => exact .waiting hruns hpend (Nat.succ_lt_succ hfuel)
  | stopped hruns hpend hwake => exact .stopped hruns hpend hwake

/-- **Where deliveries get to.** They are counted from a station that a run has
come to. -/
theorem OnTrack.drained (hg : g.Valid) (hp : p.Sound g) {st : Engine × π} (fuel : Nat)
    {log : List Beat} {e : Engine} {port : π} {d before left : Nat} (h : e.OnTrack g p (waited log))
    (hruns : Runs st log (e, port)) (hpend : e.pending = some (.mainLoop, d))
    (hbefore : before + d = e.report.cycles)
    (hleft : e.station.steps g p + left = p.subcycles g + 2) :
    Drained g p st before left fuel (drain fuel (e, port)) := by
  have hsteps := h.valid.steps_le hp
  -- induction on the deliveries, for every station that a run can have come to
  induction fuel generalizing log e port d before left with
  | zero => exact .waiting hruns hpend (by omega)
  | succ fuel ih =>
    have hw := h.wakes hg hp hpend port
    -- one delivery takes the run to the next station, or ends it
    have hnext : ∀ {log' : List Beat} {pay : Payload} {latency : Nat} {data : Bytes} {port' : π},
        payload? g p e.tile e.phase = some pay → (pay.beat? = none → latency = 0) →
        e.report.cycles + (latency + 1) < Word.limit → waited log' = waited log + latency →
        Runs st log' (e.stepped g p pay (latency + 1) data, port') →
        wake (e, port) = .ok (some (d, none)) (e.stepped g p pay (latency + 1) data, port') →
        Drained g p st before left (fuel + 1) (drain (fuel + 1) (e, port)) := by
      intro log' pay latency data port' hpay hidle hlt hwaited hruns' hwake
      have hstep := h.next hg hp hpay hidle data hlt
      have hcount : (e.stepped g p pay (latency + 1) data).station.steps g p =
          e.station.steps g p + 1 := by
        rw [station_stepped, (h.valid.carries hg hp (phase_ne_finished hpay)).steps]
      have hclock : (e.stepped g p pay (latency + 1) data).report.cycles =
          e.report.cycles + (latency + 1) := by
        rw [hstep.cycles, h.cycles, hcount]
        omega
      have hbound := hstep.valid.steps_le hp
      obtain ⟨left, rfl⟩ : ∃ l, left = l + 1 := ⟨left - 1, by omega⟩
      rw [← hwaited] at hstep
      have hrest : Drained g p st (before + d) left fuel
          (drain fuel (e.stepped g p pay (latency + 1) data, port')) :=
        ih hstep hruns' rfl (by omega) (by omega) hbound
      rw [drain_succ_ok hwake]
      exact hrest.succ
    generalize hr : wake (e, port) = r at hw
    cases hw with
    | idle hpay hbeat hlt =>
      exact hnext hpay (fun _ => rfl) hlt rfl (hruns.idle (h.asks?_eq_none hpay hbeat) hr) hr
    | @served t reply port' hpay hacc hstatus hlt =>
      exact hnext hpay (fun hbeat => by cases hbeat) hlt (waited_append _ _)
        (hruns.beat (b := ⟨t.operand, e.request g p t, reply⟩) (h.asks?_transfer hg hp hpay)
          hacc hr) hr
    | retired hfin =>
      -- retiring and completing take the last two deliveries
      have hleft : left = 2 := by
        have hend := steps_of_finished (g := g) (p := p) hfin
        omega
      rw [drain_succ_ok hr]
      cases fuel with
      | zero => exact .retired hruns hpend hfin (by omega)
      | succ fuel =>
        rw [drain_succ_reported (wake_completion rfl port)]
        exact .reported hruns hpend hfin hbefore
    | idleLate | late | refused | poisoned | trapped =>
      rw [drain_succ_error hr]
      exact .stopped hruns hpend hr

/-- Where the deliveries of a job get to. -/
theorem Taken.drained (h : e.Taken g p) (hg : g.Valid) (hp : p.Sound g) (port : π) (fuel : Nat) :
    Drained g p (e, port) 0 (p.subcycles g + 2) fuel (drain fuel (e, port)) := by
  have hsteps : e.station.steps g p = 0 := by
    rw [h.station]
    rfl
  have hcycles : e.report.cycles = 0 := by rw [h.onTrack.cycles, hsteps]
  have htrack : e.OnTrack g p (waited []) := h.onTrack
  exact htrack.drained hg hp fuel .none h.pending hcycles.symm (by rw [hsteps, Nat.zero_add])

/-! ## The beats of a job -/

/-- What a request is but for its data. -/
def outline (r : Request) : Direction × Nat × Nat × Strobe :=
  (r.direction, r.addr, r.data.length, r.strobe)

/-- Beat `b` of an operand but for its data. -/
def beatOutline (g : Geometry) (p : Plan) (o : Operand) (b : Nat) :
    Direction × Nat × Nat × Strobe :=
  (o.direction, p.addr g o b, g.beatBytes, strobe g.format p (p.transfer g.width o b))

/-- A log of a job that is at a station: every answer was `ok`, and the beats of
each operand are its first ones, in order, none left out. -/
structure Logged (g : Geometry) (p : Plan) (log : List Beat) (s : Station) : Prop where
  ok : AllOk log
  beats : ∀ o, (requests log o).map outline =
    (List.range (s.moved g p o)).map (beatOutline g p o)

/-- A log has only beats of the job in it. -/
theorem Logged.exists_outline {s : Station} {log : List Beat} (h : Logged g p log s) {b : Beat}
    (hb : b ∈ log) :
    ∃ u < s.moved g p b.operand, outline b.request = beatOutline g p b.operand u := by
  have hmem : outline b.request ∈ (requests log b.operand).map outline :=
    List.mem_map_of_mem (List.mem_map_of_mem (List.mem_filter.mpr ⟨hb, by simp⟩))
  rw [h.beats] at hmem
  obtain ⟨u, hu, heq⟩ := List.mem_map.mp hmem
  exact ⟨u, List.mem_range.mp hu, heq.symm⟩

/-- What a subcycle with a payload adds to the beats moved. -/
theorem OnTrack.moved_stepped (hg : g.Valid) (hp : p.Sound g) (h : e.OnTrack g p n) {pay : Payload}
    (hpay : payload? g p e.tile e.phase = some pay) (cost : Nat) (data : Bytes) (o : Operand) :
    (e.stepped g p pay cost data).station.moved g p o =
      e.station.moved g p o + if pay.beat? = some o then 1 else 0 := by
  rw [station_stepped, (h.valid.carries hg hp (phase_ne_finished hpay)).moved,
    (h.valid.moves hg hp hpay).moved]

theorem OnTrack.outline_request (hg : g.Valid) (hp : p.Sound g) (h : e.OnTrack g p n) {t : Transfer}
    (hpay : payload? g p e.tile e.phase = some (.transfer t)) :
    outline (e.request g p t) = beatOutline g p t.operand (e.station.moved g p t.operand) := by
  have hlength : (e.request g p t).data.length = g.beatBytes := by
    rw [request, TileStore.read, Block.length_read, TileStore.size_slotOf]
  rw [outline, hlength, beatOutline, ← ((h.valid.moves hg hp hpay).due t rfl).1]
  rfl

theorem Taken.logged (h : e.Taken g p) : Logged g p [] e.station where
  ok := fun _ h => absurd h List.not_mem_nil
  beats := fun o => by
    rw [h.moved]
    rfl

/-- A subcycle without a beat adds nothing to the log. -/
theorem Logged.idle (hg : g.Valid) (hp : p.Sound g) {log : List Beat}
    (hlog : Logged g p log e.station) (h : e.OnTrack g p n) {pay : Payload}
    (hpay : payload? g p e.tile e.phase = some pay) (hbeat : pay.beat? = none) (cost : Nat)
    (data : Bytes) : Logged g p log (e.stepped g p pay cost data).station := by
  refine ⟨hlog.ok, fun o => ?_⟩
  rw [h.moved_stepped hg hp hpay, hbeat, hlog.beats]
  rfl

/-- A beat goes to the end of the log. -/
theorem Logged.served (hg : g.Valid) (hp : p.Sound g) {log : List Beat}
    (hlog : Logged g p log e.station) (h : e.OnTrack g p n) {t : Transfer}
    (hpay : payload? g p e.tile e.phase = some (.transfer t)) {reply : Reply}
    (hstatus : reply.status = .ok) (cost : Nat) (data : Bytes) :
    Logged g p (log ++ [⟨t.operand, e.request g p t, reply⟩])
      (e.stepped g p (.transfer t) cost data).station := by
  refine ⟨hlog.ok.append hstatus, fun o => ?_⟩
  rw [h.moved_stepped hg hp hpay, requests_append, List.map_append, hlog.beats]
  by_cases ho : t.operand = o
  · subst ho
    simp [Payload.beat?, List.range_succ, h.outline_request hg hp hpay]
  · simp [Payload.beat?, ho]

/-- **The log of a run is that of its station.** -/
theorem kept_logged (hg : g.Valid) (hp : p.Sound g) :
    Kept g p fun log e (_ : π) => Logged g p log e.station where
  idle := fun h hlog hpay hbeat => hlog.idle hg hp h hpay hbeat 1 []
  served := fun h hlog hpay _ hstatus => hlog.served hg hp h hpay hstatus _ _

end Engine

end SystolicGemm
