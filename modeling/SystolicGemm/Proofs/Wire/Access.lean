import SystolicGemm.Proofs.Wire.Object
import SystolicGemm.Wire.Access

/-!
# Register accesses keep their meaning as text

What `RegisterAccess.render` writes, `RegisterAccess.ofText?` reads back.
-/

namespace SystolicGemm

namespace RegisterAccess

open Wire Wire.Tree

/-- The access, field by field. -/
def fields (a : RegisterAccess) : List Field :=
  [.count "offset" a.offset.toNat, .flag "write" a.write, .count "value" a.value.toNat]

theorem spelled_fields (a : RegisterAccess) : ∀ m ∈ a.fields, m.Spelled 0 := by
  intro m hm
  simp only [fields, List.mem_cons, List.not_mem_nil, or_false] at hm
  rcases hm with rfl | rfl | rfl
  · exact Field.spelled_count (plain_of_all (by decide)) _
  · exact Field.spelled_flag (plain_of_all (by decide)) _
  · exact Field.spelled_count (plain_of_all (by decide)) _

/-- **An access is read back from its text.** -/
theorem ofText?_render (a : RegisterAccess) : ofText? a.render = some a := by
  have hrender : a.render = Wire.object (a.fields.map fun m => (m.name, m.text)) := rfl
  have htree : Tree.ofText a.render = some (objectOf a.fields) := by
    rw [hrender]
    exact ofText_object a.spelled_fields (List.cons_ne_nil _ _) (Nat.zero_le _)
  have hword : ∀ n : UInt32, word32? (.natural n.toNat) = some n := fun n => by
    have hlt : n.toNat < Word.limit32 := n.toNat_lt
    simp [word32?, natural?, hlt]
  have hof : ofText? a.render = (Tree.ofText a.render).bind ofTree? := rfl
  rw [hof, htree]
  show (word32? (.natural a.offset.toNat)).bind (fun offset =>
    (word32? (.natural a.value.toNat)).bind fun value => some ⟨offset, a.write, value⟩) = some a
  rw [hword, hword]
  rfl

end RegisterAccess

end SystolicGemm
