import SystolicGemm.Proofs.Wire.Object
import SystolicGemm.Wire.Report

/-!
# Reports keep their meaning as text

What `JobReport.render` writes, `JobReport.ofText?` reads back, as long as every
count of the report fits a word. A report holds four records of its own, so the
reader has to go down into objects.
-/

namespace SystolicGemm

open Wire Wire.Tree

/-- Counts that a reader takes: each of them fits a word. -/
structure StreamStats.Fits (s : StreamStats) : Prop where
  transactions : s.transactions < Word.limit
  bubbles : s.bubbles < Word.limit
  bytes : s.bytes < Word.limit
  latency : s.latency < Word.limit

/-- A report that a reader takes. -/
structure JobReport.Fits (r : JobReport) : Prop where
  cycles : r.cycles < Word.limit
  tiles : r.tiles < Word.limit
  hypercycles : r.hypercycles < Word.limit
  storePhases : r.storePhases < Word.limit
  x : r.x.Fits
  w : r.w.Fits
  y : r.y.Fits
  z : r.z.Fits

namespace StreamStats

/-- The counts, field by field. -/
def fields (s : StreamStats) : List Field :=
  [.count "transactions" s.transactions, .count "bubbles" s.bubbles, .count "bytes" s.bytes,
    .count "latency" s.latency]

theorem spelled_fields (s : StreamStats) : ∀ m ∈ s.fields, m.Spelled 0 := by
  intro m hm
  simp only [fields, List.mem_cons, List.not_mem_nil, or_false] at hm
  rcases hm with rfl | rfl | rfl | rfl <;>
    exact Field.spelled_count (plain_of_all (by decide)) _

/-- Counts that fit are read from their tree. -/
theorem ofTree?_fields {s : StreamStats} (h : s.Fits) : ofTree? (objectOf s.fields) = some s := by
  have hfields : (objectOf s.fields).fields? ["transactions", "bubbles", "bytes", "latency"] =
      some [.natural s.transactions, .natural s.bubbles, .natural s.bytes, .natural s.latency] :=
    rfl
  simp [ofTree?, hfields, natural?, h.transactions, h.bubbles, h.bytes, h.latency]

end StreamStats

namespace JobReport

/-- The report, field by field. -/
def fields (r : JobReport) : List Field :=
  [.count "cycles" r.cycles, .count "tiles" r.tiles, .count "hypercycles" r.hypercycles,
    .count "store_phases" r.storePhases, ⟨"x", r.x.render, objectOf r.x.fields⟩,
    ⟨"w", r.w.render, objectOf r.w.fields⟩, ⟨"y", r.y.render, objectOf r.y.fields⟩,
    ⟨"z", r.z.render, objectOf r.z.fields⟩]

theorem spelled_fields (r : JobReport) : ∀ m ∈ r.fields, m.Spelled 5 := by
  have hcount : ∀ {name : String} (n : Nat), (∀ c ∈ name.toList, Plain c) →
      (Field.count name n).Spelled 5 := fun n hname =>
    ⟨hname, DenotesWithin.mono (Field.spelled_count hname n).value (by decide)⟩
  have hstats : ∀ {name : String} (s : StreamStats), (∀ c ∈ name.toList, Plain c) →
      (⟨name, s.render, objectOf s.fields⟩ : Field).Spelled 5 := fun s hname =>
    ⟨hname, denotes_object s.spelled_fields (List.cons_ne_nil _ _)⟩
  intro m hm
  simp only [fields, List.mem_cons, List.not_mem_nil, or_false] at hm
  rcases hm with rfl | rfl | rfl | rfl | rfl | rfl | rfl | rfl
  iterate 4 exact hcount _ (plain_of_all (by decide))
  iterate 4 exact hstats _ (plain_of_all (by decide))

/-- **A report is read back from its text.** -/
theorem ofText?_render {r : JobReport} (h : r.Fits) : ofText? r.render = some r := by
  have hrender : r.render = Wire.object (r.fields.map fun m => (m.name, m.text)) := rfl
  have hcount : r.fields.length = 8 := rfl
  have htree : Tree.ofText r.render = some (objectOf r.fields) := by
    rw [hrender]
    exact ofText_object r.spelled_fields (List.cons_ne_nil _ _) (by rw [hcount]; decide)
  have hfields : (objectOf r.fields).fields?
      ["cycles", "tiles", "hypercycles", "store_phases", "x", "w", "y", "z"] =
        some [.natural r.cycles, .natural r.tiles, .natural r.hypercycles, .natural r.storePhases,
          objectOf r.x.fields, objectOf r.w.fields, objectOf r.y.fields, objectOf r.z.fields] := rfl
  simp [ofText?, htree, ofTree?, hfields, natural?, h.cycles, h.tiles, h.hypercycles, h.storePhases,
    StreamStats.ofTree?_fields h.x, StreamStats.ofTree?_fields h.w, StreamStats.ofTree?_fields h.y,
    StreamStats.ofTree?_fields h.z]

end JobReport

end SystolicGemm
