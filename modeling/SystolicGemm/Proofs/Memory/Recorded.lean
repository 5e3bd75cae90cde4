import SystolicGemm.Proofs.Checked
import SystolicGemm.Memory.Port

/-!
# Recorded ports

A port with a journal of everything that it was asked and has answered.
-/

namespace SystolicGemm

/-- A port and the journal of its answers, oldest first. -/
structure Recorded (π : Type) where
  port : π
  journal : List (Request × Reply)

namespace Recorded

variable {π : Type}

/-- A port with nothing in its journal. -/
def fresh (port : π) : Recorded π := ⟨port, []⟩

/-- The record with one more answer. -/
def note (q : Recorded π) (r : Request) (reply : Reply) (port : π) : Recorded π :=
  ⟨port, q.journal ++ [(r, reply)]⟩

instance [Port π] : Port (Recorded π) where
  access r q :=
    match Port.access r q.port with
    | .ok reply port => .ok reply (q.note r reply port)
    | .error fault port => .error fault { q with port := port }

variable [Port π]

theorem access_ok {r : Request} {q q' : Recorded π} {reply : Reply}
    (h : Port.access r q = .ok reply q') :
    ∃ port, Port.access r q.port = .ok reply port ∧ q' = q.note r reply port := by
  change (match Port.access r q.port with
    | .ok reply port => EStateM.Result.ok reply (q.note r reply port)
    | .error fault port => .error fault { q with port := port }) = _ at h
  split at h
  · next reply port hacc =>
    cases h
    exact ⟨port, hacc, rfl⟩
  · cases h

theorem access_error {r : Request} {q q' : Recorded π} {fault : PortFault}
    (h : Port.access r q = .error fault q') :
    ∃ port, Port.access r q.port = .error fault port ∧ q' = { q with port := port } := by
  change (match Port.access r q.port with
    | .ok reply port => EStateM.Result.ok reply (q.note r reply port)
    | .error fault port => .error fault { q with port := port }) = _ at h
  split at h
  · cases h
  · next fault port hacc =>
    cases h
    exact ⟨port, hacc, rfl⟩

/-- A record does not change what its port answers. -/
theorem access_port {r : Request} {q : Recorded π} {reply : Reply} {port : π}
    (h : Port.access r q.port = .ok reply port) :
    Port.access r q = .ok reply (q.note r reply port) := by
  show (match Port.access r q.port with
    | .ok reply port => EStateM.Result.ok reply (q.note r reply port)
    | .error fault port => .error fault { q with port := port }) = _
  rw [h]

end Recorded

end SystolicGemm
