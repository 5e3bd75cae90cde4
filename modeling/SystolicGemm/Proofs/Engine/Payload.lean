import SystolicGemm.Engine.Drain
import SystolicGemm.Proofs.Engine.Schedule
import SystolicGemm.Proofs.Stream.Step

/-!
# What a payload does

`Loaded` says that streams and store are where a station says. From there every
payload goes through: a transfer is one access to the port, and padding and
bubbles are none. What is left of a payload to go wrong is the answer of the port
and a clock at its end, and afterwards streams and store are at the tick of their
station.
-/

namespace SystolicGemm

/-- Which way an operand goes. -/
def Operand.direction : Operand → Direction
  | .x | .w | .y => .read
  | .z => .write

/-- Bytes that the strobes of the first `u` beats of an operand enable. -/
def Plan.strobed (p : Plan) (g : Geometry) (o : Operand) : Nat → Nat
  | 0 => 0
  | u + 1 =>
    p.strobed g o u + (Engine.strobe g.format p (p.transfer g.width o u)).count g.beatBytes

namespace Engine

variable {π : Type}

@[simp] theorem setStream_stream (e : Engine) (o : Operand) : e.setStream o (e.stream o) = e := by
  cases o <;> rfl

theorem runStream_ok {α : Type} {o : Operand} {act : Run Failure (Stream × π) α} {e : Engine}
    {port port' : π} {a : α} {s : Stream} (h : act (e.stream o, port) = .ok a (s, port')) :
    runStream o act (e, port) = .ok a (e.setStream o s, port') := by
  simp only [runStream, h]

theorem runStream_error {α : Type} {o : Operand} {act : Run Failure (Stream × π) α} {e : Engine}
    {port port' : π} {stop : Stop Failure}
    (h : act (e.stream o, port) = .error stop (e.stream o, port')) :
    runStream o act (e, port) = .error stop (e, port') := by
  simp only [runStream, h, setStream_stream]

/-! ## What a payload does -/

/-- Where the engine is in its job. -/
def station (e : Engine) : Station := ⟨e.phase, e.tile⟩

theorem moved_of_finished {e : Engine} {g : Geometry} {p : Plan} (h : e.phase = .finished)
    (o : Operand) : e.station.moved g p o = p.beats g.width o := by
  rw [station, h, Station.moved_finished]

theorem steps_of_finished {e : Engine} {g : Geometry} {p : Plan} (h : e.phase = .finished) :
    e.station.steps g p = p.subcycles g := by
  rw [station, h]
  rfl

/-- Streams and store are where a station says. -/
structure Loaded (e : Engine) (g : Geometry) (p : Plan) (s : Station) : Prop where
  geometry : e.geometry = g
  plan : e.plan = some p
  store : e.store.At g p.n p.colTiles (s.tally g p)
  operand : ∀ o, (e.stream o).operand = o
  direction : ∀ o, (e.stream o).direction = o.direction
  beatBytes : ∀ o, (e.stream o).beatBytes = g.beatBytes
  moved : ∀ o, (e.stream o).Moved (p.pattern o) (s.moved g p o)
  bytes : ∀ o, (e.stream o).stats.bytes = p.strobed g o (s.moved g p o)

/-- No stream moves more beats than it has. -/
theorem Loaded.moved_le {e : Engine} {g : Geometry} {p : Plan} {s : Station}
    (h : e.Loaded g p s) (hp : p.Sound g) (o : Operand) : s.moved g p o ≤ p.beats g.width o :=
  hp.total o ▸ (h.moved o).le

/-- Cycles that the four streams have counted. -/
def elapsed (e : Engine) : Nat :=
  e.x.stats.latency + e.w.stats.latency + e.y.stats.latency + e.z.stats.latency

/-- Beats and bubbles of the four streams. -/
def actions (e : Engine) : Nat :=
  (e.x.stats.transactions + e.x.stats.bubbles) + (e.w.stats.transactions + e.w.stats.bubbles) +
    (e.y.stats.transactions + e.y.stats.bubbles) + (e.z.stats.transactions + e.z.stats.bubbles)

theorem latency_le_elapsed (e : Engine) (o : Operand) :
    (e.stream o).stats.latency ≤ e.elapsed := by
  unfold elapsed
  cases o <;> simp only [stream] <;> omega

/-- The request with which a transfer reaches the port. -/
def request (e : Engine) (g : Geometry) (p : Plan) (t : Transfer) : Request where
  direction := t.operand.direction
  addr := p.addr g t.operand (e.station.moved g p t.operand)
  data := e.store.read (TileStore.slotOf g p.colTiles (e.station.tally g p) t.operand)
  strobe := strobe g.format p t

/-- The engine between the request of a transfer and the answer. -/
def waiting (e : Engine) (g : Geometry) (p : Plan) (t : Transfer) : Engine :=
  { e with store := e.store.passed g p.colTiles (e.station.tally g p) t.operand }

/-- The engine after a payload: what it cost, and the data that came back. -/
def paid (e : Engine) (g : Geometry) (p : Plan) (pay : Payload) (cost : Nat) (data : Bytes) :
    Engine :=
  match pay with
  | .transfer t =>
    let slot := TileStore.slotOf g p.colTiles (e.station.tally g p) t.operand
    { (e.waiting g p t).setStream t.operand
        ((e.stream t.operand).past cost (strobe g.format p t)) with
      store := (e.waiting g p t).store.fill slot data }
  | .paddingW =>
    { e with store := e.store.passed g p.colTiles (e.station.tally g p) .w }.setStream .w e.w.idled
  | .bubble o => e.setStream o (e.stream o).idled

theorem stream_withStore (e : Engine) (s : TileStore) (o : Operand) :
    ({ e with store := s } : Engine).stream o = e.stream o := by cases o <;> rfl

theorem store_setStream (e : Engine) (o : Operand) (s : Stream) :
    (e.setStream o s).store = e.store := by cases o <;> rfl

section

variable [Port π] {e : Engine} {g : Geometry} {p : Plan} {t : Transfer} {port port' : π}
  {slot : Slot} {store : TileStore}

theorem move_ok {latency : Nat} {held data : Bytes} {s : Stream} (hg : e.geometry = g)
    (htake : takeSlot e.store t = .ok (slot, store)) (hread : store.read slot = held)
    (hbeat : Stream.beat held (strobe g.format p t) (e.stream t.operand, port) =
      .ok (latency, data) (s, port')) :
    move p t (e, port) = .ok latency
      ({ ({ e with store := store } : Engine).setStream t.operand s with
        store := store.fill slot data }, port') := by
  subst hg hread
  have hrun : runStream t.operand (Stream.beat (store.read slot) (strobe e.geometry.format p t))
      ({ e with store := store }, port) =
        .ok (latency, data) (({ e with store := store } : Engine).setStream t.operand s, port') :=
    runStream_ok (by rw [stream_withStore]; exact hbeat)
  simp only [move, run_get_bind, htake]
  show (runStream t.operand _ >>= _) ({ e with store := store }, port) = _
  rw [run_bind_ok hrun]
  show EStateM.Result.ok _ _ = _
  simp only [store_setStream]

theorem move_error {held : Bytes} {stop : Stop Failure} (hg : e.geometry = g)
    (htake : takeSlot e.store t = .ok (slot, store)) (hread : store.read slot = held)
    (hbeat : Stream.beat held (strobe g.format p t) (e.stream t.operand, port) =
      .error stop (e.stream t.operand, port')) :
    move p t (e, port) = .error stop ({ e with store := store }, port') := by
  subst hg hread
  have hrun : runStream t.operand (Stream.beat (store.read slot) (strobe e.geometry.format p t))
      ({ e with store := store }, port) = .error stop ({ e with store := store }, port') :=
    runStream_error (by rw [stream_withStore]; exact hbeat)
  simp only [move, run_get_bind, htake]
  show (runStream t.operand _ >>= _) ({ e with store := store }, port) = _
  exact run_bind_error hrun

end

variable {e : Engine} {g : Geometry} {p : Plan}

theorem Loaded.takeSlot (h : e.Loaded g p e.station) (hr : TileStore.Roomy g p.colTiles)
    {t : Transfer} (hdue : e.station.Due g p t) :
    takeSlot e.store t = .ok (TileStore.slotOf g p.colTiles (e.station.tally g p) t.operand,
      (e.waiting g p t).store) := by
  obtain ⟨ht, -⟩ := hdue
  cases t with
  | loadX row chunk rowTile =>
    -- only X is checked against its cursor
    have hpeek : e.store.peekX = (row, chunk) := by
      simp only [Plan.transfer, Transfer.operand, Transfer.of, Transfer.loadX.injEq] at ht
      obtain ⟨rfl, rfl, -⟩ := ht
      simp [TileStore.peekX, h.store.xCursor, TileStore.xCursorAt, Station.moved, Plan.lines,
        Plan.columns]
    rw [Engine.takeSlot, if_pos hpeek]
    exact h.store.takeX hr
  | loadW => exact h.store.takeW hr
  | loadY => exact h.store.takeY hr
  | storeZ => exact h.store.takeZ hr

theorem read_waiting (t : Transfer) :
    (e.waiting g p t).store.read
        (TileStore.slotOf g p.colTiles (e.station.tally g p) t.operand) =
      (e.request g p t).data := by
  simp [TileStore.read, waiting, request]

/-- **A transfer is one access to the port.** -/
theorem Loaded.perform_transfer [Port π] (h : e.Loaded g p e.station) (hg : g.Valid)
    (hp : p.Sound g) (hr : TileStore.Roomy g p.colTiles) {t : Transfer}
    (hdue : e.station.Due g p t) (port : π) :
    perform p (.transfer t) (e, port) =
      match Port.access (e.request g p t) port with
      | .error .poisoned port => .error (.error .portPoisoned) (e.waiting g p t, port)
      | .error (.trap tr) port => .error (.trap tr) (e.waiting g p t, port)
      | .ok reply port =>
        if reply.status ≠ .ok then
          .error (.error (.transaction t.operand (e.request g p t).addr reply.status))
            (e.waiting g p t, port)
        else if (e.stream t.operand).stats.latency + (reply.latency + 1) < Word.limit then
          .ok (reply.latency + 1) (e.paid g p (.transfer t) (reply.latency + 1) reply.data, port)
        else .error (.trap .overflow) (e.waiting g p t, port) := by
  have hu := hdue.2
  rw [← hp.total] at hu
  have hdata : (e.request g p t).data.length = (e.stream t.operand).beatBytes := by
    rw [request, TileStore.read, Block.length_read, TileStore.size_slotOf, h.beatBytes]
  have hbeat := (h.moved t.operand).beat_eq hu (hp.total _ ▸ hp.beats_lt _) (hp.roomy hg _ _)
    (hp.addr_posAt hdue.2) hdata (strobe g.format p t) port
  have hreq : (⟨t.operand.direction, p.addr g t.operand (e.station.moved g p t.operand),
      (e.request g p t).data, strobe g.format p t⟩ : Request) = e.request g p t := rfl
  rw [h.direction, h.operand, hreq] at hbeat
  have htake := h.takeSlot hr hdue
  show move p t (e, port) = _
  cases hacc : Port.access (e.request g p t) port with
  | error fault port' =>
    rw [hacc] at hbeat
    cases fault <;> exact move_error h.geometry htake (read_waiting t) hbeat
  | ok reply port' =>
    rw [hacc] at hbeat
    simp only [] at hbeat ⊢
    split
    · next hstatus =>
      rw [if_pos hstatus] at hbeat
      exact move_error h.geometry htake (read_waiting t) hbeat
    next hstatus =>
    rw [if_neg hstatus] at hbeat
    split
    · next hlt =>
      rw [if_pos hlt] at hbeat
      exact move_ok h.geometry htake (read_waiting t) hbeat
    · next hlt =>
      rw [if_neg hlt] at hbeat
      exact move_error h.geometry htake (read_waiting t) hbeat

theorem Loaded.perform_bubble [Port π] (h : e.Loaded g p e.station) (o : Operand) (port : π) :
    perform p (.bubble o) (e, port) =
      if (e.stream o).stats.latency + 1 < Word.limit then .ok 1 (e.paid g p (.bubble o) 1 [], port)
      else .error (.trap .overflow) (e, port) := by
  have hbubble := (h.moved o).bubble_eq port
  split
  · next hlt =>
    rw [if_pos hlt] at hbubble
    exact runStream_ok hbubble
  · next hlt =>
    rw [if_neg hlt] at hbubble
    exact runStream_error hbubble

theorem Loaded.perform_padding [Port π] (h : e.Loaded g p e.station)
    (hr : TileStore.Roomy g p.colTiles) (port : π) :
    perform p .paddingW (e, port) =
      if (e.stream .w).stats.latency + 1 < Word.limit then .ok 1 (e.paid g p .paddingW 1 [], port)
      else .error (.trap .overflow)
        ({ e with store := e.store.passed g p.colTiles (e.station.tally g p) .w }, port) := by
  have hbubble := (h.moved .w).bubble_eq port
  have hrun : perform p .paddingW (e, port) = runStream .w Stream.bubble
      ({ e with store := e.store.passed g p.colTiles (e.station.tally g p) .w }, port) := by
    simp only [perform, run_get_bind, h.store.skipW hr]
    rfl
  rw [hrun]
  split
  · next hlt =>
    rw [if_pos hlt] at hbubble
    exact runStream_ok hbubble
  · next hlt =>
    rw [if_neg hlt] at hbubble
    exact runStream_error hbubble

/-! ## What a payload leaves behind -/

theorem stream_paid (e : Engine) (g : Geometry) (p : Plan) (pay : Payload) (cost : Nat)
    (data : Bytes) (o : Operand) :
    (e.paid g p pay cost data).stream o =
      match pay with
      | .transfer t =>
        if t.operand = o then (e.stream o).past cost (strobe g.format p t) else e.stream o
      | .paddingW => if .w = o then (e.stream o).idled else e.stream o
      | .bubble q => if q = o then (e.stream o).idled else e.stream o := by
  cases pay with
  | transfer t =>
    simp only [paid, stream_withStore]
    split
    · next ho => rw [← ho, stream_setStream_self]
    · next ho => rw [stream_setStream_of_ne _ _ ho, waiting, stream_withStore]
  | paddingW => cases o <;> rfl
  | bubble q =>
    simp only [paid]
    split
    · next ho => rw [← ho, stream_setStream_self]
    · next ho => rw [stream_setStream_of_ne _ _ ho]

/-- Only streams and store are touched. -/
theorem paid_rest (e : Engine) (g : Geometry) (p : Plan) (pay : Payload) (cost : Nat)
    (data : Bytes) :
    (e.paid g p pay cost data).geometry = e.geometry ∧
      (e.paid g p pay cost data).plan = e.plan ∧
      (e.paid g p pay cost data).phase = e.phase ∧
      (e.paid g p pay cost data).tile = e.tile ∧
      (e.paid g p pay cost data).pending = e.pending ∧
      (e.paid g p pay cost data).report = e.report := by
  cases pay with
  | transfer t => cases t <;> exact ⟨rfl, rfl, rfl, rfl, rfl, rfl⟩
  | paddingW => exact ⟨rfl, rfl, rfl, rfl, rfl, rfl⟩
  | bubble o => cases o <;> exact ⟨rfl, rfl, rfl, rfl, rfl, rfl⟩

theorem station_paid (e : Engine) (g : Geometry) (p : Plan) (pay : Payload) (cost : Nat)
    (data : Bytes) : (e.paid g p pay cost data).station = e.station := by
  obtain ⟨-, -, hphase, htile, -⟩ := paid_rest e g p pay cost data
  rw [station, station, hphase, htile]

theorem elapsed_paid (e : Engine) (g : Geometry) (p : Plan) {pay : Payload} {cost : Nat}
    (hcost : pay.beat? = none → cost = 1) (data : Bytes) :
    (e.paid g p pay cost data).elapsed = e.elapsed + cost := by
  cases pay with
  | transfer t =>
    cases t <;>
      simp only [paid, Transfer.operand, waiting, setStream, elapsed, stream, Stream.past] <;>
      omega
  | paddingW =>
    simp only [paid, setStream, elapsed, Stream.idled, hcost rfl]
    omega
  | bubble o =>
    cases o <;> simp only [paid, setStream, elapsed, stream, Stream.idled, hcost rfl] <;> omega

theorem actions_paid (e : Engine) (g : Geometry) (p : Plan) (pay : Payload) (cost : Nat)
    (data : Bytes) : (e.paid g p pay cost data).actions = e.actions + 1 := by
  cases pay with
  | transfer t =>
    cases t <;>
      simp only [paid, Transfer.operand, waiting, setStream, actions, stream, Stream.past] <;>
      omega
  | paddingW =>
    simp only [paid, setStream, actions, Stream.idled]
    omega
  | bubble o =>
    cases o <;> simp only [paid, setStream, actions, stream, Stream.idled] <;> omega

theorem store_paid (e : Engine) (g : Geometry) (p : Plan) (pay : Payload) (cost : Nat)
    (data : Bytes) :
    (e.paid g p pay cost data).store =
      match pay with
      | .transfer t =>
        (e.store.passed g p.colTiles (e.station.tally g p) t.operand).fill
          (TileStore.slotOf g p.colTiles (e.station.tally g p) t.operand) data
      | .paddingW => e.store.passed g p.colTiles (e.station.tally g p) .w
      | .bubble _ => e.store := by
  cases pay with
  | transfer t => rfl
  | paddingW => rfl
  | bubble o => cases o <;> rfl

/-- **A payload takes streams and store to the tick of their station.** -/
theorem Loaded.paid (h : e.Loaded g p e.station) (hp : p.Sound g) {pay : Payload}
    (hm : e.station.Moves g p pay) {cost : Nat} (hcost : 0 < cost) (data : Bytes) :
    (e.paid g p pay cost data).Loaded g p (e.station.tick g) := by
  obtain ⟨hgeo, hplan, -⟩ := paid_rest e g p pay cost data
  -- a stream keeps its role, whatever it counts
  have hsame : ∀ o, ((e.paid g p pay cost data).stream o).operand = (e.stream o).operand ∧
      ((e.paid g p pay cost data).stream o).direction = (e.stream o).direction ∧
      ((e.paid g p pay cost data).stream o).beatBytes = (e.stream o).beatBytes := fun o => by
    rw [stream_paid]
    cases pay <;> simp only [] <;> split <;> exact ⟨rfl, rfl, rfl⟩
  refine ⟨hgeo.trans h.geometry, hplan.trans h.plan, ?_, fun o => (hsame o).1.trans (h.operand o),
    fun o => (hsame o).2.1.trans (h.direction o), fun o => (hsame o).2.2.trans (h.beatBytes o),
    fun o => ?_, fun o => ?_⟩
  · rw [store_paid, hm.tally]
    cases pay with
    | transfer t => exact (h.store.passed _).fill _ _
    | paddingW => exact h.store.passed _
    | bubble => exact h.store
  · rw [stream_paid, hm.moved]
    cases pay with
    | transfer t =>
      simp only [Payload.beat?, Option.some.injEq]
      split
      · next ho =>
        have hu := (hm.due t rfl).2
        rw [ho, ← hp.total] at hu
        exact (h.moved o).past hu hcost _
      · exact h.moved o
    | paddingW =>
      simp only [Payload.beat?, reduceCtorEq, if_false, Nat.add_zero]
      split
      · exact (h.moved o).idled
      · exact h.moved o
    | bubble q =>
      simp only [Payload.beat?, reduceCtorEq, if_false, Nat.add_zero]
      split
      · exact (h.moved o).idled
      · exact h.moved o
  · rw [stream_paid, hm.moved]
    cases pay with
    | transfer t =>
      simp only [Payload.beat?, Option.some.injEq]
      split
      · next ho =>
        have ht := (hm.due t rfl).1
        rw [ho] at ht
        rw [Plan.strobed, ← ht, ← h.bytes o, ← h.beatBytes o]
        rfl
      · exact h.bytes o
    | paddingW =>
      simp only [Payload.beat?, reduceCtorEq, if_false, Nat.add_zero]
      split <;> exact h.bytes o
    | bubble q =>
      simp only [Payload.beat?, reduceCtorEq, if_false, Nat.add_zero]
      split <;> exact h.bytes o

end Engine

end SystolicGemm
