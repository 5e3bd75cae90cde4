import SystolicGemm.Proofs.Engine.Protocol

/-!
# What is there when a hypercycle begins

X comes in by three ways: up to two chunks before the first tile, up to two more with the
store phase before every other row of tiles, and one more chunk with each hypercycle of a
row's first tile. W comes in row by row while a tile is computed, Y with the phase before it.
`Supplied` is what this comes to whenever a hypercycle begins, in numbers of beats, and
`Present` says that these beats are in the buffers: the chunks of X that the hypercycle may
use and the rows of Y of its tile.

Z has been stored by then. It is written over when a tile has been computed, and during all of
the computing phase nothing of an earlier tile is left to be stored.
-/

namespace SystolicGemm

variable {π : Type} {g : Geometry} {p : Plan}

namespace Plan

/-- The chunks of X that are there when hypercycle `hyper` of a tile begins. The first tile of
a row is two chunks ahead, and leaves all of them to the tiles after it. -/
def chunksBy (p : Plan) (t : Tile) (hyper : Nat) : Nat :=
  if t.col = 0 then min p.colTiles (hyper + 2) else p.colTiles

theorem lt_chunksBy (t : Tile) {hyper : Nat} (h : hyper < p.colTiles) :
    hyper < p.chunksBy t hyper := by
  unfold chunksBy
  split <;> omega

theorem chunksBy_le (p : Plan) (t : Tile) (hyper : Nat) : p.chunksBy t hyper ≤ p.colTiles := by
  unfold chunksBy
  split <;> omega

end Plan

namespace Station

/-- What has gone through the store when a hypercycle begins. -/
theorem tally_computing (g : Geometry) (p : Plan) (hyper : Nat) (t : Tile) :
    tally g p ⟨.computing hyper 0 0, t⟩ = {
      x := (t.row * p.colTiles + p.chunksBy t hyper) * g.width
      w := p.index t * (p.colTiles * g.width) + hyper * g.width
      y := (p.index t + 1) * g.width
      z := p.index t * g.width
      retired := t.row
      computed := p.index t } := by
  have hbegun : cyclesBegun 0 0 = 0 := rfl
  simp only [tally, slotsBefore_zero, hbegun, Nat.zero_min, Nat.add_zero, Plan.xRowBeats,
    Plan.chunksBy, Nat.add_mul _ _ g.width, Nat.mul_assoc]
  split
  · rw [← Nat.mul_min_mul_right, Nat.add_mul]
  · rfl

end Station

namespace Engine

variable {e e' : Engine} {n : Nat} {q q' : π}

/-! ## Beats -/

/-- The beats that the streams have completed when hypercycle `hyper` of a tile begins. Its
own chunk of X is among them. -/
structure Supplied (g : Geometry) (p : Plan) (e : Engine) (hyper : Nat) : Prop where
  row_lt : e.tile.row < p.xRowTiles
  col_lt : e.tile.col < p.wColTiles
  chunk_lt : hyper < p.chunksBy e.tile hyper
  x : e.x.stats.transactions =
    e.tile.row * p.colTiles * g.width + g.width * p.chunksBy e.tile hyper
  w : e.w.stats.transactions = p.index e.tile * p.n + min p.n (hyper * g.width)
  y : e.y.stats.transactions = (p.index e.tile + 1) * g.width
  z : e.z.stats.transactions = p.index e.tile * g.width

theorem station_computing {hyper cycle sub : Nat}
    (hphase : e.phase = .computing hyper cycle sub) :
    e.station = ⟨.computing hyper cycle sub, e.tile⟩ := by rw [station, hphase]

/-- **Nothing of an earlier tile is left to be stored while a tile is computed.** -/
theorem OnTrack.stored_computing {hyper cycle sub : Nat} (h : e.OnTrack g p n)
    (hphase : e.phase = .computing hyper cycle sub) :
    e.z.stats.transactions = p.index e.tile * g.width := by
  have hmoved := (h.loaded.moved .z).transactions
  rw [station_computing hphase] at hmoved
  exact hmoved

/-- **What the streams have completed when a hypercycle begins.** -/
theorem OnTrack.supplied {hyper : Nat} (h : e.OnTrack g p n)
    (hphase : e.phase = .computing hyper 0 0) : Supplied g p e hyper := by
  have hvalid := h.valid
  have hmoved : ∀ o, (e.stream o).stats.transactions =
      Station.moved g p ⟨.computing hyper 0 0, e.tile⟩ o := fun o => by
    rw [← station_computing hphase]
    exact (h.loaded.moved o).transactions
  have htally := Station.tally_computing g p hyper e.tile
  rw [station_computing hphase] at hvalid
  cases hvalid with
  | computing hh _ _ hrow hcol =>
    refine ⟨hrow, hcol, p.lt_chunksBy e.tile hh, ?_, ?_, ?_, ?_⟩
    · have hx := hmoved .x
      rw [Station.moved, htally] at hx
      exact hx.trans (by rw [Nat.add_mul, Nat.mul_comm g.width])
    · exact hmoved .w
    · have hy := hmoved .y
      rw [Station.moved, htally] at hy
      exact hy
    · exact h.stored_computing hphase

/-! ## Answers -/

/-- What the answers for one stream have brought. -/
def replies (log : List Beat) (o : Operand) : List Bytes :=
  (log.filter (·.operand = o)).map (·.reply.data)

/-- Whether every answer has brought as many bytes as its request has, as it must where a port
writes them over those of the request. -/
def Sized (log : List Beat) : Prop :=
  ∀ b ∈ log, b.reply.data.length = b.request.data.length

theorem length_replies (log : List Beat) (o : Operand) :
    (replies log o).length = (requests log o).length := by
  rw [replies, requests, List.length_map, List.length_map]

/-- A beat is found behind those before it. -/
theorem getElem?_replies {log full : List Beat} {b : Beat} (h : log ++ [b] <+: full) :
    (replies full b.operand)[(replies log b.operand).length]? = some b.reply.data := by
  obtain ⟨rest, rfl⟩ := h
  simp [replies]

/-- What the buffers hold along a run. The beats that they are to hold may be those of a run
that goes on from there. -/
structure Fed (g : Geometry) (p : Plan) (log : List Beat) (e : Engine) : Prop where
  logged : Logged g p log e.station
  resident : ∀ full, log <+: full → Sized full →
    e.store.Resident g p.colTiles (e.station.tally g p)
      (TileStore.heldOf g p.n p.colTiles (replies full) fun _ => none)

theorem Taken.fed (h : e.Taken g p) : Fed g p [] e where
  logged := h.logged
  resident := fun full _ _ => by
    rw [h.station, Station.tally_start]
    exact TileStore.resident_none _ _ _ _

/-- The buffers after a subcycle, when a beat has brought the next of its operand. -/
theorem OnTrack.resident_of_replies (h : e.OnTrack g p n) (hg : g.Valid) (hp : p.Sound g)
    {beats : Operand → List Bytes}
    (hres : e.store.Resident g p.colTiles (e.station.tally g p)
      (TileStore.heldOf g p.n p.colTiles beats fun _ => none)) {pay : Payload}
    (hpay : payload? g p e.tile e.phase = some pay) (cost : Nat) {data : Bytes}
    (hdata : ∀ t, pay = .transfer t → data.length = g.beatBytes ∧
      (beats t.operand)[e.station.moved g p t.operand]? = some data) :
    (e.stepped g p pay cost data).store.Resident g p.colTiles
      ((e.stepped g p pay cost data).station.tally g p)
      (TileStore.heldOf g p.n p.colTiles beats fun _ => none) := by
  have hm := h.valid.moves hg hp hpay
  refine h.buffers_stepped hg hp hres hpay cost (fun t heq => ?_) (fun heq => ?_) ?_
  · obtain ⟨hlength, hbeat⟩ := hdata t heq
    refine ⟨hlength, fun raw hraw => ?_⟩
    subst heq
    by_cases hz : t.operand = .z
    · rw [hz] at hraw
      cases hraw
    · rw [TileStore.heldOf_count hz (h.valid.w_lt hm), ← h.valid.moved_eq_beats hp, hbeat] at hraw
      exact (Option.some.inj hraw).symm
  · subst heq
    exact if_neg (h.valid.not_w_lt hm)
  · rintro s t - - - - i - raw hraw
    cases hraw

/-- How many answers there have been for a stream. -/
theorem Logged.length_replies {log : List Beat} {s : Station} (h : Logged g p log s)
    (o : Operand) : (replies log o).length = s.moved g p o := by
  have hlength := congrArg List.length (h.beats o)
  rw [List.length_map, List.length_map, List.length_range] at hlength
  rw [Engine.length_replies, hlength]

/-! ## The buffers when a hypercycle begins -/

/-- What the kernel finds when hypercycle `hyper` of a tile begins: in its rows of X the
beats of the tile's chunks so far, and as rows of Y the beats of the tile. -/
structure Present (g : Geometry) (p : Plan) (log : List Beat) (e : Engine) (hyper : Nat) :
    Prop where
  x : ∀ i < g.width, ∃ xs, e.store.xRow i = .ok xs ∧ ∀ c < p.chunksBy e.tile hyper, ∃ raw,
    (replies log .x)[(e.tile.row * p.colTiles + c) * g.width + i]? = some raw ∧
    ∀ j < g.width, c * g.width + j < p.n → xs[c * g.width + j]? = some (g.elementOf raw j)
  y : ∀ i < g.width, ∃ raw, (replies log .y)[p.index e.tile * g.width + i]? = some raw ∧
    e.store.yRow i = .ok ((List.range g.width).map (g.elementOf raw))

/-- **The chunks of X and the rows of Y are there when a hypercycle begins.** -/
theorem Fed.present {log : List Beat} {hyper : Nat} (h : Fed g p log e) (ht : e.OnTrack g p n)
    (hg : g.Valid) (hp : p.Sound g) (hphase : e.phase = .computing hyper 0 0)
    (hsized : Sized log) : Present g p log e hyper := by
  have hres := h.resident log (List.prefix_refl log) hsized
  have hat := ht.loaded.store
  have htally := Station.tally_computing g p hyper e.tile
  have hle := p.chunksBy_le e.tile hyper
  have hlength : ∀ o, (replies log o).length =
      Station.moved g p ⟨.computing hyper 0 0, e.tile⟩ o := fun o => by
    rw [← station_computing hphase]
    exact h.logged.length_replies o
  have hlengthX : (replies log .x).length = (Station.tally g p _).x := hlength .x
  have hlengthY : (replies log .y).length = (Station.tally g p _).y := hlength .y
  rw [htally] at hlengthX hlengthY
  rw [station_computing hphase, htally] at hres hat
  constructor
  · intro i hi
    refine ⟨_, hat.xRow (TileStore.roomy hp hg) hi, fun c hc => ?_⟩
    -- the chunks of the row tile so far are the ones that came in last
    have hlast : (e.tile.row * p.colTiles + c) * g.width + i <
        (e.tile.row * p.colTiles + p.chunksBy e.tile hyper) * g.width :=
      rowMajor_lt (by omega) hi
    have hwindow : (e.tile.row * p.colTiles + p.chunksBy e.tile hyper) * g.width ≤
        (e.tile.row * p.colTiles + c) * g.width + i + (p.colTiles + 2) * g.width := by
      have hmul := Nat.mul_le_mul_right g.width
        (show e.tile.row * p.colTiles + p.chunksBy e.tile hyper ≤
          e.tile.row * p.colTiles + c + (p.colTiles + 2) by omega)
      rw [Nat.add_mul _ (p.colTiles + 2)] at hmul
      omega
    obtain ⟨raw, hraw⟩ : ∃ raw,
        (replies log .x)[(e.tile.row * p.colTiles + c) * g.width + i]? = some raw :=
      ⟨_, List.getElem?_eq_getElem (hlengthX ▸ hlast)⟩
    refine ⟨raw, hraw, fun j hj hn => ?_⟩
    rw [TileStore.xRowAt, hat.length, List.getElem?_map, List.getElem?_range hn, Option.map_some,
      hres.elementAt_x hat hj hi hlast hwindow hraw]
  · intro i hi
    have hlast : p.index e.tile * g.width + i < (p.index e.tile + 1) * g.width :=
      rowMajor_lt (Nat.lt_succ_self _) hi
    have hwindow : (p.index e.tile + 1) * g.width ≤
        p.index e.tile * g.width + i + 2 * g.width := by
      rw [Nat.succ_mul]
      omega
    obtain ⟨raw, hraw⟩ : ∃ raw, (replies log .y)[p.index e.tile * g.width + i]? = some raw :=
      ⟨_, List.getElem?_eq_getElem (hlengthY ▸ hlast)⟩
    refine ⟨raw, hraw, ?_⟩
    have hrow : ∀ j ∈ List.range g.width,
        e.store.elementAt .y ((i + e.store.yOffset) * g.width + j) = g.elementOf raw j :=
      fun j hj => hres.elementAt_y hat (List.mem_range.mp hj) hi hlast hwindow hraw
    rw [hat.yRow hi, List.map_congr_left hrow]

/-! ## Jobs of a history -/

/-- The job that an exchange has started, if any. -/
def Exchange.job? : Exchange → Option JobImage
  | (.start job, .ok _) => some job
  | _ => none

/-- The jobs that have been accepted, oldest first. -/
def jobs (log : List Exchange) : List JobImage := log.filterMap Exchange.job?

theorem jobs_append (log : List Exchange) (x : Exchange) :
    jobs (log ++ [x]) = jobs log ++ x.job?.toList := by
  rw [jobs, List.filterMap_append, jobs]
  cases hx : x.job? <;> simp [hx]

/-- A plan is that of the job accepted last. -/
def Planned (g : Geometry) (log : List Exchange) (e : Engine) : Prop :=
  ∀ p, e.plan = some p → ∃ job, (jobs log).getLast? = some job ∧ job.validate g = .ok p

/-- An exchange that starts nothing and brings no other plan. -/
theorem Planned.append {log : List Exchange} (h : Planned g log e) {x : Exchange}
    (hx : x.job? = none) (hplan : e'.plan = e.plan ∨ e'.plan = none) :
    Planned g (log ++ [x]) e' := by
  intro p hp
  rcases hplan with hsame | hnone
  · obtain ⟨job, hlast, hv⟩ := h p (hsame ▸ hp)
    refine ⟨job, ?_, hv⟩
    rw [jobs_append, hx, Option.toList_none, List.append_nil]
    exact hlast
  · rw [hnone] at hp
    cases hp

/-- A job that is not about to report is under way, as long as no access has failed. -/
theorem Accounted.onTrack {log : List Exchange} (h : Accounted g log e) (hlog : Unfaulted log)
    (hphase : e.phase ≠ .idle) : ∃ p n, e.OnTrack g p n := by
  have harmed := h.armed hlog (busy_of_phase hphase)
  obtain ⟨armed, hpend⟩ := Option.ne_none_iff_exists'.mp harmed
  obtain ⟨-, hstanding⟩ := h.poised.standing hpend
  cases hstanding with
  | running _ htrack => exact ⟨_, _, htrack⟩
  | idle _ hidle | completing _ hidle => exact absurd hidle hphase
  | stuck _ hnone => exact absurd hnone harmed

variable [Port π]

/-- A delivery keeps the plan, or it is the last one of the job. -/
theorem Standing.plan_delivered (h : Standing g e) (hg : g.Valid) {event : Event} {d : Nat}
    (hpend : e.pending = some (event, d)) {r : Option JobReport}
    (hd : Engine.deliver event (e, q) = .ok r (e', q')) :
    e'.plan = e.plan ∨ e'.plan = none := by
  cases h with
  | running hp h hpend' =>
    cases hpend.symm.trans hpend'
    have hw := h.wakes hg hp hpend q
    rw [wake_eq_deliver hpend, hd] at hw
    cases hw with
    | idle hpay hbeat hlt =>
      have hnext := h.next hg hp hpay (fun _ => rfl) [] hlt
      exact .inl (hnext.loaded.plan.trans h.loaded.plan.symm)
    | @served t reply q' hpay hacc hstatus hlt =>
      have hnext := h.next hg hp hpay nofun reply.data hlt
      exact .inl (hnext.loaded.plan.trans h.loaded.plan.symm)
    | retired => exact .inr rfl
  | completing _ _ hpend' =>
    cases hpend.symm.trans hpend'
    rw [deliver_armed hpend] at hd
    cases hd
    exact .inl rfl
  | idle _ _ hpend' | stuck _ hpend' => cases hpend.symm.trans hpend'

/-- A call that comes back leaves the plan of the job accepted last. -/
theorem Planned.returned {log : List Exchange} (h : Planned g log e) (hpoised : Poised g e)
    {c : Call} {r : Option JobReport} (hcall : c.answer (e, q) = .ok r (e', q')) :
    Planned g (log ++ [(c, .ok r)]) e' := by
  cases c with
  | start job =>
    obtain ⟨hstarted, -⟩ := hpoised.started_of_answer hcall
    cases hstarted with
    | @accepted p s _ _ _ hv =>
      intro p' hplan
      cases hplan
      refine ⟨job, ?_, hv⟩
      rw [jobs_append]
      exact List.getLast?_concat ..
  | deliver event =>
    by_cases harmed : e.pending.map (·.1) = some event
    · obtain ⟨⟨event, d⟩, hpend, rfl⟩ := Option.map_eq_some_iff.mp harmed
      obtain ⟨hg, hstanding⟩ := hpoised.standing hpend
      exact h.append rfl (hstanding.plan_delivered hg hpend hcall)
    · have hrejected := deliver_unexpected harmed q
      rw [show Engine.deliver event (e, q) = _ from hcall] at hrejected
      cases hrejected
  | clearIrq =>
    cases hcall
    exact h.append rfl (.inl rfl)

theorem History.planned {log : List Exchange} (h : History π g log e) (hlog : Unfaulted log) :
    Planned g log e := by
  induction h with
  | created h =>
    intro p hplan
    obtain ⟨beat, -, h⟩ := bind_eq_ok_iff.mp h
    obtain ⟨s, -, h⟩ := bind_eq_ok_iff.mp h
    cases h
    cases hplan
  | returned h hcall ih => exact (ih hlog.init).returned h.accounted.poised hcall
  | @failed log e e' c failure _ _ h hcall ih =>
    rcases h.accounted.failure_cases hcall with ⟨-, rfl, -⟩ | hport
    · have hnone : Exchange.job? (c, .error failure) = none := by cases c <;> rfl
      exact (ih hlog.init).append hnone (.inl rfl)
    · exact absurd hport (hlog c failure (List.mem_append_right _ List.mem_cons_self))

/-! ## Along a history, and along a run -/

/-- A port that answers in place of the request keeps the sizes. -/
theorem Runs.sized {st st' : Engine × π} {log : List Beat} (h : Runs st log st')
    (hport : ∀ r (q : π) reply q', Port.access r q = .ok reply q' →
      reply.data.length = r.data.length) : Sized log := by
  induction h with
  | none => exact fun _ hb => absurd hb List.not_mem_nil
  | idle _ _ _ ih => exact ih
  | beat _ _ hacc _ ih =>
    intro b hb
    rcases List.mem_append.mp hb with hb | hb
    · exact ih b hb
    · rw [List.mem_singleton.mp hb]
      exact hport _ _ _ _ hacc

/-- **Every subcycle leaves in the buffers what the answers have brought.** -/
theorem kept_fed (hg : g.Valid) (hp : p.Sound g) :
    Kept g p fun log e (_ : π) => Fed g p log e where
  idle := by
    intro log e port pay ht h hpay hbeat
    refine ⟨h.logged.idle hg hp ht hpay hbeat 1 [], fun full hfull hsized => ?_⟩
    refine ht.resident_of_replies hg hp (h.resident full hfull hsized) hpay 1 fun t heq => ?_
    rw [heq] at hbeat
    cases hbeat
  served := by
    intro log e port port' t reply ht h hpay hacc hstatus
    refine ⟨h.logged.served hg hp ht hpay hstatus _ _, fun full hfull hsized => ?_⟩
    have hbefore := h.resident full ((List.prefix_append ..).trans hfull) hsized
    refine ht.resident_of_replies hg hp hbefore hpay _ fun u heq => ?_
    cases heq
    have hmem : ⟨t.operand, e.request g p t, reply⟩ ∈ full :=
      hfull.subset (List.mem_append_right _ List.mem_cons_self)
    refine ⟨(hsized _ hmem).trans (ht.isBeat hg hp hpay).length, ?_⟩
    rw [← h.logged.length_replies]
    exact getElem?_replies hfull

/-- **Operands are there in time.** Whatever calls an engine has had, as long as no access to
memory has failed: a computing phase belongs to the job accepted last, nothing of an earlier
tile is left to be stored during it, and when a hypercycle begins the four streams have
completed what `Supplied` says. Along the run of a job the beats of each stream are then the
first ones of that job, and if the answers kept to the sizes of the requests, the chunks of X
and the rows of Y that they brought are what the kernel finds in its buffers. -/
theorem hypercycle_supplied {ρ : Type} [Port ρ] {g : Geometry} (hg : g.validate = .ok ()) :
    (∀ log e, History π g log e → Unfaulted log → ∀ hyper cycle sub,
      e.phase = .computing hyper cycle sub →
      ∃ job p, (jobs log).getLast? = some job ∧ job.validate g = .ok p ∧ e.plan = some p ∧
        e.z.stats.transactions = p.index e.tile * g.width ∧
        (cycle = 0 → sub = 0 → Supplied g p e hyper)) ∧
    ∀ e, Reachable ρ g e → e.busy = false → ∀ job p, job.validate g = .ok p → ∀ port : π,
      ∃ e', start job (e, port) = .ok () (e', port) ∧
        ∀ log e'' q hyper, Runs (e', port) log (e'', q) → e''.phase = .computing hyper 0 0 →
          Supplied g p e'' hyper ∧
          (∀ o, (requests log o).map outline =
            (List.range (e''.stream o).stats.transactions).map (beatOutline g p o)) ∧
          (Sized log → Present g p log e'' hyper) := by
  have hvalid := Geometry.validate_eq_ok_iff.mp hg
  constructor
  · intro log e h hlog hyper cycle sub hphase
    obtain ⟨p, n, htrack⟩ := h.accounted.onTrack hlog (by rw [hphase]; exact nofun)
    obtain ⟨job, hlast, hv⟩ := h.planned hlog p htrack.loaded.plan
    refine ⟨job, p, hlast, hv, htrack.loaded.plan, htrack.stored_computing hphase, ?_⟩
    rintro rfl rfl
    exact htrack.supplied hphase
  · intro e he hidle job p hv port
    have hp := (JobImage.accepted_of_validate hv).sound hvalid
    obtain ⟨e', htaken, hstart⟩ := he.taken (π := π) hvalid hidle hv
    refine ⟨e', hstart port, fun log e'' q hyper hruns hphase => ?_⟩
    have halong := hruns.along hvalid hp (kept_fed hvalid hp) (htaken.along htaken.fed)
    cases halong with
    | running htrack _ hfed =>
      refine ⟨htrack.supplied hphase, fun o => ?_, hfed.present htrack hvalid hp hphase⟩
      rw [hfed.logged.beats, (htrack.loaded.moved o).transactions]
    | retired => cases hphase

/-- The second hypercycle of a tile that is not the first of its row. -/
theorem hypercycle_supplied_ragged : ∃ (log : List Exchange) (e : Engine) (beats : List Beat),
    History Memory .narrow log e ∧ Unfaulted log ∧ e.phase = .computing 1 0 0 ∧
    e.tile = ⟨0, 1⟩ ∧ Supplied .narrow (.ragged 0x200 0x300) e 1 ∧ Sized beats ∧
    Present .narrow (.ragged 0x200 0x300) beats e 1 := by
  have hvalid := Geometry.validate_eq_ok_iff.mp Geometry.validate_narrow
  have hv := JobImage.validate_ragged 0x200 0x300
  have hp := (JobImage.accepted_of_validate hv).sound hvalid
  obtain ⟨hcounts, hbuffers⟩ := hypercycle_supplied (π := Memory) (ρ := Memory)
    Geometry.validate_narrow
  obtain ⟨e, he, -, hidle⟩ := create_fits hvalid
  have hreach := Reachable.created (π := Memory) he
  obtain ⟨e', htaken, hstart⟩ := hreach.taken (π := Memory) hvalid hidle hv
  let port : Memory := .zeroed 0 0x400 3
  obtain ⟨e₁, hstart₁, hfound⟩ := hbuffers e hreach hidle _ _ hv port
  cases (hstart port).symm.trans hstart₁
  obtain ⟨hserved, hclock⟩ := htaken.served_ragged backed_self port rfl rfl rfl
  obtain ⟨beats, e'', q, d, hruns, htrack, -, hstation, -⟩ := htaken.exists_runs hvalid hp
    hserved hclock (show 72 ≤ (Plan.ragged 0x200 0x300).subcycles .narrow by decide)
  have hreached : e''.station = ⟨.computing 1 0 0, ⟨0, 1⟩⟩ := hstation.trans (by decide +kernel)
  obtain ⟨hphase, htile⟩ := Station.mk.inj hreached
  have hsized := hruns.sized fun _ _ _ _ hacc => Memory.length_access hacc
  obtain ⟨-, -, hpresent⟩ := hfound beats e'' q 1 hruns hphase
  have hbegun := (History.created he).returned (c := .start (.ragged 0x200 0x300))
    (run_bind_ok (hstart port))
  obtain ⟨more, hall, hfine⟩ := hbegun.ran hruns
  have hfirst : Unfaulted [(.start (.ragged 0x200 0x300), .ok none)] := by simp [Unfaulted]
  have hlog := hfirst.append hfine
  obtain ⟨job, p, -, -, hplan, -, hsupplied⟩ := hcounts _ e'' hall hlog 1 0 0 hphase
  cases htrack.loaded.plan.symm.trans hplan
  exact ⟨_, e'', beats, hall, hlog, hphase, htile, hsupplied rfl rfl, hsized, hpresent hsized⟩

end Engine

end SystolicGemm
