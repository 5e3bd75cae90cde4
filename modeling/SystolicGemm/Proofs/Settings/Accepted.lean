import SystolicGemm.Proofs.Job.Placement

/-!
# What an accepted configuration promises

`Config.validate` makes its checks one after the other. `Accepted` is what one learns
from its success: the array can be built, the problem fits its registers, and the
matrices lie in a memory that a 32-bit address reaches, in rows that their pitches
hold. Addresses that are given may overlap: nothing is said of the matrices beside
each other.
-/

namespace SystolicGemm

/-- A check that has been passed, at the start of what is left to do. -/
theorem ite_fail_eq_ok_iff {ε α : Type} {c : Prop} [Decidable c] {e : ε}
    {rest : Unit → Outcome ε α} {a : α} :
    (if c then fail e >>= rest else rest ()) = .ok a ↔ ¬ c ∧ rest () = .ok a := by
  by_cases hc : c
  · rw [if_pos hc]
    exact ⟨nofun, fun h => absurd hc h.1⟩
  · rw [if_neg hc]
    exact ⟨fun h => ⟨hc, h⟩, fun h => h.2⟩

/-! ## Layouts -/

namespace Layout

theorem place?_of_packed {base : UInt32} {s : Shape} {bytes : Nat} {guard : UInt32} {l : Layout}
    (h : packed base s bytes guard = .ok (some l)) : place? base s bytes guard = some l := by
  unfold packed at h
  split at h
  · cases h
  · next placed hplaced =>
    obtain ⟨finish, -, h⟩ := bind_eq_ok_iff.mp h
    obtain rfl : placed = l := by
      split at h <;> cases h
      rfl
    exact hplaced

/-- In a packed layout every row is followed by the next, or by a guard. -/
theorem holds_of_packed {base : UInt32} {s : Shape} {bytes : Nat} {guard : UInt32} {l : Layout}
    (h : packed base s bytes guard = .ok (some l)) : l.Holds s bytes := by
  obtain ⟨-, -, hpitch⟩ := place?_eq_some_iff.mp (place?_of_packed h)
  intro o
  rw [hpitch]
  cases o
  case x | w => exact Nat.le_refl _
  all_goals exact Nat.le_add_right _ _

end Layout

/-! ## Configurations -/

namespace Config

/-- What the checks of a configuration say. -/
structure Accepted (c : Config) (layout : Layout) : Prop where
  valid : c.rawGeometry.Valid
  fits : c.shape.Fits c.rawGeometry
  end_le : c.memory.base.toNat + c.memory.size.toNat ≤ Word.limit32
  placed : c.layout = .ok layout
  holds : layout.Holds c.shape c.rawGeometry.elementBytes
  inside : layout.Inside c.shape c.memory.base.toNat c.memory.size.toNat

theorem geometry_eq_ok_iff {c : Config} {g : Geometry} :
    c.geometry = .ok g ↔ c.rawGeometry.Valid ∧ g = c.rawGeometry := by
  rw [← Geometry.validate_eq_ok_iff]
  unfold geometry
  cases hv : c.rawGeometry.validate with
  | ok u =>
    refine ⟨fun h => ⟨rfl, ?_⟩, fun h => by rw [h.2]⟩
    cases h
    rfl
  | error stop =>
    cases stop
    all_goals exact ⟨nofun, nofun⟩

/-- Every pitch of a layout holds its row, also where addresses are given. -/
theorem holds_of_layout {c : Config} {l : Layout} (h : c.layout = .ok l) :
    l.Holds c.shape c.rawGeometry.elementBytes := by
  obtain ⟨packed?, hpacked, h⟩ := bind_eq_ok_iff.mp h
  rw [liftM_eq_ok_iff] at hpacked
  cases packed? with
  | none => cases h
  | some packed =>
    cases h
    intro o
    have hholds := Layout.holds_of_packed hpacked o
    cases o <;> exact hholds

theorem inside_of_checkBuffers {base finish : Nat} {buffers : List (String × UInt32 × UInt32 × Nat)}
    (h : checkBuffers base finish buffers = .ok ()) :
    ∀ b ∈ buffers, base ≤ b.2.1.toNat ∧ b.2.1.toNat + b.2.2.1.toNat * b.2.2.2 ≤ finish := by
  induction buffers with
  | nil => exact fun _ hb => absurd hb List.not_mem_nil
  | cons buffer rest ih =>
    obtain ⟨matrix, addr, pitch, rows⟩ := buffer
    obtain ⟨len, hlen, h⟩ := bind_eq_ok_iff.mp h
    obtain ⟨matrixEnd, hend, h⟩ := bind_eq_ok_iff.mp h
    obtain ⟨-, rfl⟩ := Word.mul_eq_ok_iff.mp (liftM_eq_ok_iff.mp hlen)
    obtain ⟨-, rfl⟩ := Word.add_eq_ok_iff.mp (liftM_eq_ok_iff.mp hend)
    obtain ⟨hinside, hrest⟩ := ite_fail_eq_ok_iff.mp h
    simp only [Bool.or_eq_true, decide_eq_true_eq, not_or, Nat.not_lt] at hinside
    exact List.forall_mem_cons.mpr ⟨hinside, ih hrest⟩

/-- **An accepted configuration has passed every check.** -/
theorem exists_accepted {c : Config} (h : c.validate = .ok ()) : ∃ layout, c.Accepted layout := by
  unfold validate at h
  -- one step for each check, in the order in which they are made
  obtain ⟨g, hg, h⟩ := bind_eq_ok_iff.mp h
  obtain ⟨hvalid, rfl⟩ := geometry_eq_ok_iff.mp hg
  obtain ⟨hdimensions, h⟩ := ite_fail_eq_ok_iff.mp h
  obtain ⟨htiles, h⟩ := ite_fail_eq_ok_iff.mp h
  obtain ⟨_, hx, h⟩ := bind_eq_ok_iff.mp h
  obtain ⟨_, hxBeats, h⟩ := bind_eq_ok_iff.mp h
  obtain ⟨_, hw, h⟩ := bind_eq_ok_iff.mp h
  obtain ⟨_, hwBeats, h⟩ := bind_eq_ok_iff.mp h
  obtain ⟨_, hyz, h⟩ := bind_eq_ok_iff.mp h
  obtain ⟨_, hyzBeats, h⟩ := bind_eq_ok_iff.mp h
  obtain ⟨hlengths, h⟩ := ite_fail_eq_ok_iff.mp h
  obtain ⟨hmemory, h⟩ := ite_fail_eq_ok_iff.mp h
  obtain ⟨layout, hlayout, h⟩ := bind_eq_ok_iff.mp h
  have hbuffers := inside_of_checkBuffers h
  -- and what each of them says when it succeeds
  rw [liftM_eq_ok_iff, Word.mul_eq_ok_iff] at hx hw hyz hxBeats hwBeats hyzBeats
  obtain ⟨-, rfl⟩ := hx
  obtain ⟨-, rfl⟩ := hw
  obtain ⟨-, rfl⟩ := hyz
  obtain ⟨-, rfl⟩ := hxBeats
  obtain ⟨-, rfl⟩ := hwBeats
  obtain ⟨-, rfl⟩ := hyzBeats
  simp only [List.any_cons, List.any_nil, Bool.or_false, Bool.or_eq_true, decide_eq_true_eq, not_or,
    Nat.not_lt, Nat.not_le] at hdimensions htiles hlengths hmemory
  simp only [List.mem_cons, List.not_mem_nil, or_false, forall_eq_or_imp, forall_eq] at hbuffers
  obtain ⟨⟨hm, hn⟩, hk⟩ := hdimensions
  obtain ⟨hrows, hcols, houts⟩ := htiles
  obtain ⟨hxLength, hwLength, hyzLength⟩ := hlengths
  obtain ⟨hxInside, hwInside, hyInside, hzInside⟩ := hbuffers
  exact ⟨layout, {
    valid := hvalid
    fits := {
      m_pos := Nat.pos_of_ne_zero hm
      n_pos := Nat.pos_of_ne_zero hn
      k_pos := Nat.pos_of_ne_zero hk
      rowTiles_lt := Nat.lt_succ_of_le hrows
      colTiles_lt := Nat.lt_succ_of_le hcols
      wColTiles_lt := Nat.lt_succ_of_le houts
      xBeats_lt := hxLength
      wBeats_lt := hwLength
      yzBeats_lt := hyzLength }
    end_le := hmemory.2
    placed := hlayout
    holds := holds_of_layout hlayout
    inside := fun o => by
      cases o
      exacts [hxInside, hwInside, hyInside, hzInside] }⟩

end Config

end SystolicGemm
