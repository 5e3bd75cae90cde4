import SystolicGemm.Proofs.Engine.Confined

/-!
# A job on a flat memory

`Stocked` is the invariant of a job on a memory that it does not disturb: the
buffers hold the beats of the memory as it was in the beginning, and the memory is
that one with the beats of Z that are done laid over it.
-/

namespace SystolicGemm

namespace Engine

/-! ## One beat -/

namespace IsBeat

variable {g : Geometry} {p : Plan} {r : Request} {o : Operand} {b : Nat} {m₀ m : Memory}
  (h : IsBeat g p r o b)

include h

/-- **What comes in is what the memory held in the beginning.** -/
theorem data_read (hg : g.Valid) (hp : p.Sound g) (hin : m.Contains r) (ho : o ≠ .z)
    {done : Nat} (hm : p.Overlaid g m₀ m done) (hdone : done ≤ p.beats g.width .z)
    (hu : p.Undisturbed g) (hy : o = .y → done ≤ b) :
    (m.serve r).1.data = p.beatData g m₀ o b := by
  have hdir := h.direction_eq_read ho
  rw [Memory.data_read hdir hin, h.length, Plan.beatData]
  refine List.map_congr_left fun i hi => ?_
  have hi := List.mem_range.mp hi
  rw [h.enables hg hp hi, Plan.paddedByte]
  by_cases hc : p.Covers g o b i
  · -- no beat of Z that is done has written this byte
    have hkept := hm.kept (p.addr g o b + i) fun u hlt j hj hcz heq =>
      hu o b i u j ho h.lt (Nat.lt_of_lt_of_le hlt hdone)
        (fun hoy => Nat.lt_of_lt_of_le hlt (hy hoy)) hi hj hc hcz heq.symm
    rw [if_pos (decide_eq_true hc), h.addr, hkept, p.addr_add]
    exact (if_pos hc).symm
  · rw [if_neg (by simpa using hc)]
    exact (if_neg hc).symm

/-- A read leaves the memory as it was. -/
theorem overlaid_read (ho : o ≠ .z) {done : Nat} (hm : p.Overlaid g m₀ m done) :
    p.Overlaid g m₀ (m.serve r).2 done := by
  have hdir := h.direction_eq_read ho
  exact {
    base := (Memory.base_serve m r).trans hm.base
    size := (Memory.size_serve m r).trans hm.size
    latency := (Memory.latency_serve m r).trans hm.latency
    written := fun b hb i hi hc => (Memory.byte_read hdir _).trans (hm.written b hb i hi hc)
    kept := fun a ha => (Memory.byte_read hdir a).trans (hm.kept a ha) }

end IsBeat

/-- **What goes out is laid over the memory.** -/
theorem IsBeat.overlaid_write {g : Geometry} {p : Plan} {r : Request} {b : Nat} {m₀ m : Memory}
    (h : IsBeat g p r .z b) (hg : g.Valid) (hp : p.Sound g) (hin : m.Contains r)
    (hm : p.Overlaid g m₀ m b) (hdata : r.data = p.beatResult g m₀ b) :
    p.Overlaid g m₀ (m.serve r).2 (b + 1) := by
  obtain ⟨hvalue, hrest⟩ := Memory.byte_write h.direction hin
  refine ⟨(Memory.base_serve m r).trans hm.base, (Memory.size_serve m r).trans hm.size,
    (Memory.latency_serve m r).trans hm.latency, fun u hu i hi hc => ?_, fun a ha => ?_⟩
  · rcases Nat.lt_succ_iff_lt_or_eq.mp hu with hlt | rfl
    · -- an earlier beat keeps its bytes, since beats of Z share none
      rw [hrest _ fun j hj heq => ?_]
      · exact hm.written u hlt i hi hc
      · obtain ⟨hj, hcj⟩ := (h.mem_enabled hg hp).mp hj
        rw [h.addr] at heq
        exact Nat.ne_of_gt hlt (hp.covers_inj (by decide) hj hi hcj hc heq).1
    · have hmem := (h.mem_enabled hg hp).mpr ⟨hi, hc⟩
      rw [← h.addr, hvalue i hmem, hdata]
  · rw [hrest a fun i hi heq => ?_]
    · exact hm.kept a fun u hu => ha u (Nat.lt_succ_of_lt hu)
    · obtain ⟨hi, hc⟩ := (h.mem_enabled hg hp).mp hi
      rw [h.addr] at heq
      exact ha b (Nat.lt_succ_self b) i hi hc heq

/-! ## The buffers over a subcycle -/

variable {e : Engine} {g : Geometry} {p : Plan} {m₀ : Memory} {n : Nat}

/-- **A subcycle leaves in the buffers what they are to hold**, whatever that is: it is what
comes in with a beat, nothing where W is padded, and the rows that the kernel computes. -/
theorem OnTrack.buffers_stepped {held : Operand → Nat → Option Bytes} (h : e.OnTrack g p n)
    (hg : g.Valid) (hp : p.Sound g)
    (hres : e.store.Resident g p.colTiles (e.station.tally g p) held) {pay : Payload}
    (hpay : payload? g p e.tile e.phase = some pay) (cost : Nat) {data : Bytes}
    (hdata : ∀ t, pay = .transfer t → data.length = g.beatBytes ∧
      ∀ raw, held t.operand ((e.station.tally g p).count t.operand) = some raw → raw = data)
    (hpad : pay = .paddingW → held .w (e.station.tally g p).w = none)
    (hrows : ∀ {s : TileStore} {t : Tally}, t = (e.station.tick g).tally g p →
      e.station.closes g p = true → s.Resident g p.colTiles t held → s.At g p.n p.colTiles t →
      ∀ i < g.width, ∀ raw, held .z (t.computed * g.width + i) = some raw → raw = s.rowBytes i) :
    (e.stepped g p pay cost data).store.Resident g p.colTiles
      ((e.stepped g p pay cost data).station.tally g p) held := by
  have hr := TileStore.roomy hp hg
  have hm := h.valid.moves hg hp hpay
  have hc := h.valid.carries hg hp (phase_ne_finished hpay)
  obtain ⟨-, -, -, htile, -⟩ := paid_rest e g p pay cost data
  have hst := station_paid e g p pay cost data
  -- the payload takes the buffers to the tick
  have hpaid : (e.paid g p pay cost data).store.Resident g p.colTiles
      ((e.station.tick g).tally g p) held ∧
      (e.paid g p pay cost data).store.At g p.n p.colTiles ((e.station.tick g).tally g p) := by
    rw [store_paid, hm.tally]
    cases pay with
    | transfer t =>
      obtain ⟨hlength, hheld⟩ := hdata t rfl
      refine ⟨hres.fill h.loaded.store hr hlength hheld fun hz => ?_,
        (h.loaded.store.passed _).fill _ _⟩
      exact hm.z_lt hz
    | paddingW => exact ⟨hres.pad (hpad rfl), h.loaded.store.passed _⟩
    | bubble => exact ⟨hres, h.loaded.store⟩
  obtain ⟨hresident, hat⟩ := hpaid
  rw [station_stepped, hc.tally]
  show (if (e.paid g p pay cost data).station.closes g p then _ else _ : TileStore).Resident _ _ _ _
  rw [hst, htile]
  split
  · next hcloses => exact hresident.computed hat _ (hrows rfl hcloses hresident hat)
  · exact hresident

/-- The buffers of a job on a memory. -/
theorem OnTrack.resident_stepped (h : e.OnTrack g p n) (hg : g.Valid) (hp : p.Sound g)
    (hres : e.store.Resident g p.colTiles (e.station.tally g p) (p.held g m₀)) {pay : Payload}
    (hpay : payload? g p e.tile e.phase = some pay) (cost : Nat) {data : Bytes}
    (hdata : ∀ t, pay = .transfer t →
      data = p.carried g m₀ t.operand (e.station.moved g p t.operand)) :
    (e.stepped g p pay cost data).store.Resident g p.colTiles
      ((e.stepped g p pay cost data).station.tally g p) (p.held g m₀) := by
  have hm := h.valid.moves hg hp hpay
  refine h.buffers_stepped hg hp hres hpay cost (fun t heq => ⟨?_, fun raw hraw => ?_⟩) ?_ ?_
  · rw [hdata t heq, Plan.length_carried]
  · subst heq
    rw [h.valid.held_due hp hm, Option.some.injEq] at hraw
    rw [← hraw, hdata t rfl]
  · rintro rfl
    exact h.valid.held_padding hm
  · -- the subcycle closes a tile, of which all beats are resident
    rintro s t rfl hcloses hresident hat i hi raw hraw
    have hready := h.valid.ready hcloses
    rw [hready.computed, Plan.held, Option.some.injEq] at hraw
    rw [← hraw, hresident.rowBytes_eq hat hp hready (h.valid.col_lt hcloses) hi]

/-! ## The invariant -/

/-- Buffers and memory of a job, on a memory that was `m₀` when it began. -/
structure Stocked (g : Geometry) (p : Plan) (m₀ : Memory) (e : Engine) (m : Memory) : Prop where
  overlaid : p.Overlaid g m₀ m (e.station.moved g p .z)
  resident : e.store.Resident g p.colTiles (e.station.tally g p) (p.held g m₀)

theorem Taken.stocked (h : e.Taken g p) (m : Memory) : Stocked g p m e m where
  overlaid := by
    rw [h.moved]
    exact p.overlaid_zero g m
  resident := by
    rw [h.station, Station.tally_start]
    exact TileStore.resident_none _ _ _ _

section

variable {m : Memory} (h : Stocked g p m₀ e m) (ht : e.OnTrack g p n) (hg : g.Valid)
  (hp : p.Sound g)

include h ht hg hp

/-- A subcycle without a beat leaves buffers and memory alone. -/
theorem Stocked.idle {pay : Payload} (hpay : payload? g p e.tile e.phase = some pay)
    (hbeat : pay.beat? = none) : Stocked g p m₀ (e.stepped g p pay 1 []) m where
  overlaid := by
    rw [ht.moved_stepped hg hp hpay, hbeat]
    exact h.overlaid
  resident := ht.resident_stepped hg hp h.resident hpay 1 fun t heq => by
    rw [heq] at hbeat
    cases hbeat

variable {t : Transfer} (hpay : payload? g p e.tile e.phase = some (.transfer t))

include hpay

/-- A row of Z goes out as it was computed. -/
theorem Stocked.data_request (hz : t.operand = .z) :
    (e.request g p t).data = p.beatResult g m₀ (e.station.moved g p .z) := by
  obtain ⟨hlt, hle⟩ := (ht.valid.moves hg hp hpay).z_lt hz
  have hslot := h.resident .z (e.station.tally g p).z _ hlt hle rfl
  rw [request, hz, TileStore.read, TileStore.operand_slotOf, TileStore.size_slotOf,
    TileStore.start_slotOf]
  exact hslot

variable (hin : m.Contains (e.request g p t))

include hin

/-- The memory after the next beat is the initial one with the beats of Z done by
then laid over it. -/
theorem Stocked.overlaid_serve :
    p.Overlaid g m₀ (m.serve (e.request g p t)).2
      (e.station.moved g p .z + if t.operand = .z then 1 else 0) := by
  have hbeat := ht.isBeat hg hp hpay
  by_cases hz : t.operand = .z
  · have hdata := h.data_request ht hg hp hpay hz
    rw [if_pos hz]
    rw [hz] at hbeat
    exact hbeat.overlaid_write hg hp hin h.overlaid hdata
  · rw [if_neg hz]
    exact hbeat.overlaid_read hz h.overlaid

/-- A beat that is served carries what it should. -/
theorem Stocked.data_serve (hu : p.Undisturbed g) :
    (m.serve (e.request g p t)).1.data =
      p.carried g m₀ t.operand (e.station.moved g p t.operand) := by
  have hbeat := ht.isBeat hg hp hpay
  by_cases hz : t.operand = .z
  · have hdata := h.data_request ht hg hp hpay hz
    rw [Memory.data_write (by rw [hbeat.direction, hz]; rfl), hdata, hz]
    rfl
  · have hcarried : p.carried g m₀ t.operand = p.beatData g m₀ t.operand := by
      cases ho : t.operand
      case z => exact absurd ho hz
      all_goals rfl
    have hdone := ht.loaded.moved_le hp .z
    rw [hcarried, hbeat.data_read hg hp hin hz h.overlaid hdone hu fun hy => ?_]
    rw [hy]
    exact e.station.z_le_y

/-- **Buffers and memory after a beat that is served.** -/
theorem Stocked.served (hu : p.Undisturbed g) (cost : Nat) :
    Stocked g p m₀ (e.stepped g p (.transfer t) cost (m.serve (e.request g p t)).1.data)
      (m.serve (e.request g p t)).2 where
  overlaid := by
    rw [ht.moved_stepped hg hp hpay]
    simpa [Payload.beat?] using h.overlaid_serve ht hg hp hpay hin
  resident := ht.resident_stepped hg hp h.resident hpay _ fun u heq => by
    cases heq
    exact h.data_serve ht hg hp hpay hin hu

end

/-! ## Ports with a memory behind them -/

variable {π : Type} [Port π] {view : π → Memory} (hview : Backed view) (hg : g.Valid)
  (hp : p.Sound g)

include hview hg hp

/-- **A job on a memory that it does not disturb stays stocked.** -/
theorem kept_stocked (hin : p.Inside g m₀) (hu : p.Undisturbed g) :
    Kept g p fun _ e (port : π) => Stocked g p m₀ e (view port) where
  idle := fun ht h hpay hbeat => h.idle ht hg hp hpay hbeat
  served := by
    intro log e port port' t reply ht h hpay hacc hstatus
    have hinside := h.overlaid.inside hin
    have hbeat := ht.isBeat hg hp hpay
    obtain ⟨_, haccess, hport⟩ := hview (hbeat.access hg hp hinside)
    rw [hacc] at haccess
    cases haccess
    rw [hport]
    exact h.served ht hg hp hpay (hbeat.contains hg hp hinside) hu _

variable (h : e.Taken g p) {port : π} (hin : p.Inside g (view port)) (hu : p.Undisturbed g)

include h hin hu

/-- Buffers and memory of a job, wherever a run of it gets to. -/
theorem Taken.hosted {log : List Beat} {st : Engine × π} (hruns : Runs (e, port) log st) :
    Along g p (fun _ e q => Stocked g p (view port) e (view q)) log st :=
  hruns.along hg hp (kept_stocked hview hg hp hin hu) (h.along (h.stocked _))

end Engine

end SystolicGemm
