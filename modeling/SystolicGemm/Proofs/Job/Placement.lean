import SystolicGemm.Proofs.Job.Shaped

/-!
# The packed layout

`Layout.packed` computes with words and gives up when a sum or a product leaves one.
`Shape.packedAddr` and `Shape.packedPitch` are the same layout over numbers of any
size. A matrix begins only where the one before it has ended, so whatever was computed
on the way is bounded by an address or a pitch: words give up exactly when the layout
does not fit.
-/

namespace SystolicGemm

/-! ## Layouts of any size -/

namespace Shape

/-- The row pitch of a matrix, with elements of `bytes` bytes and a guard after every
row of Y and Z. -/
def packedPitch (s : Shape) (bytes guard : Nat) : Operand → Nat
  | .x => s.n * bytes
  | .w => s.k * bytes
  | .y | .z => s.k * bytes + guard

/-- The address of a matrix. The first one is at the next multiple of the alignment
from the base on, and every other one at the next from the end of its predecessor on. -/
def packedAddr (s : Shape) (base bytes guard : Nat) (o : Operand) : Nat :=
  let next (addr : Nat) (o : Operand) :=
    Layout.align (addr + s.packedPitch bytes guard o * s.rows o)
  let x := Layout.align base
  let w := next x .x
  let y := next w .w
  match o with
  | .x => x
  | .w => w
  | .y => y
  | .z => next y .y

/-- Whether a packed layout fits a 32-bit address space. -/
structure Packs (s : Shape) (base bytes guard : Nat) : Prop where
  addr_lt : ∀ o, s.packedAddr base bytes guard o < Word.limit32
  pitch_lt : ∀ o, s.packedPitch bytes guard o < Word.limit32
  end_le : s.packedAddr base bytes guard .z + s.packedPitch bytes guard .z * s.m ≤ Word.limit32

end Shape

namespace Layout

/-- Whether a byte belongs to a matrix or to a gap between its rows. -/
def Owns (l : Layout) (s : Shape) (o : Operand) (a : Nat) : Prop :=
  (l.addr o).toNat ≤ a ∧ a < (l.addr o).toNat + (l.pitch o).toNat * s.rows o

/-- Four matrices in order, two at a time. -/
theorem pairwise_operands {r : Operand → Operand → Prop} :
    [Operand.x, .w, .y, .z].Pairwise r ↔
      (r .x .w ∧ r .x .y ∧ r .x .z) ∧ (r .w .y ∧ r .w .z) ∧ r .y .z := by
  simp

/-- What a packed layout promises. -/
structure Packed (l : Layout) (s : Shape) (base bytes guard : Nat) : Prop where
  addr : ∀ o, (l.addr o).toNat = s.packedAddr base bytes guard o
  pitch : ∀ o, (l.pitch o).toNat = s.packedPitch bytes guard o
  aligned : ∀ o, 64 ∣ (l.addr o).toNat
  base_le : ∀ o, base ≤ (l.addr o).toNat
  ordered : [Operand.x, .w, .y, .z].Pairwise fun o q =>
    (l.addr o).toNat + (l.pitch o).toNat * s.rows o ≤ (l.addr q).toNat
  disjoint : ∀ o q a, o ≠ q → l.Owns s o a → ¬ l.Owns s q a
  finish : l.finish s = .ok (l.zAddr.toNat + l.yzPitch.toNat * s.m)
  addressable : ∀ o a, l.Owns s o a → a < Word.limit32

/-! ## Words on the way -/

theorem word?_eq_some_iff {n v : Nat} : word? n = some v ↔ n < Word.limit ∧ v = n := by
  unfold word?
  split
  · next hlt => simp [hlt, eq_comm]
  · next hlt => simp [hlt]

theorem word32?_eq_some_iff {n : Nat} {w : UInt32} :
    word32? n = some w ↔ n < Word.limit32 ∧ w.toNat = n := by
  unfold word32?
  split
  · next hlt =>
    rw [Option.some.injEq, ← UInt32.toNat_inj]
    have hn : n.toUInt32.toNat = n := JobImage.toNat_low32 hlt
    rw [hn]
    exact ⟨fun h => ⟨hlt, h.symm⟩, fun h => h.2.symm⟩
  · next hlt => simp [hlt]

theorem align?_eq_some_iff {a v : Nat} :
    align? a = some v ↔ a + 63 < Word.limit ∧ v = align a := by
  unfold align?
  rw [Option.map_eq_some_iff]
  constructor
  · rintro ⟨w, hw, rfl⟩
    exact ⟨(word?_eq_some_iff.mp hw).1, rfl⟩
  · rintro ⟨hlt, rfl⟩
    exact ⟨_, word?_eq_some_iff.mpr ⟨hlt, rfl⟩, rfl⟩

theorem after?_eq_some_iff {a pitch rows v : Nat} :
    after? a pitch rows = some v ↔
      a + pitch * rows + 63 < Word.limit ∧ v = align (a + pitch * rows) := by
  unfold after?
  constructor
  · intro h
    obtain ⟨len, hlen, h⟩ := Option.bind_eq_some_iff.mp h
    obtain ⟨stop, hstop, h⟩ := Option.bind_eq_some_iff.mp h
    obtain ⟨-, rfl⟩ := word?_eq_some_iff.mp hlen
    obtain ⟨-, rfl⟩ := word?_eq_some_iff.mp hstop
    exact align?_eq_some_iff.mp h
  · rintro ⟨hlt, rfl⟩
    -- length and end are no larger than what is aligned
    have hlen : word? (pitch * rows) = some (pitch * rows) :=
      word?_eq_some_iff.mpr ⟨by omega, rfl⟩
    have hstop : word? (a + pitch * rows) = some (a + pitch * rows) :=
      word?_eq_some_iff.mpr ⟨by omega, rfl⟩
    exact Option.bind_eq_some_iff.mpr ⟨_, hlen, Option.bind_eq_some_iff.mpr
      ⟨_, hstop, align?_eq_some_iff.mpr ⟨hlt, rfl⟩⟩⟩

/-- Where an address is a 32-bit word, the way there has not left a 64-bit one. -/
theorem add_lt_of_align_lt {a : Nat} (h : align a < Word.limit32) : a + 63 < Word.limit := by
  have hle := le_align a
  have hwords : Word.limit32 + 63 < Word.limit := by decide
  omega

section

variable {base guard : UInt32} {s : Shape} {bytes : Nat} {l : Layout}

/-- **Words place the matrices where numbers do**, if all that comes out is words. -/
theorem place?_eq_some_iff : place? base s bytes guard = some l ↔
    ((∀ o, s.packedAddr base.toNat bytes guard.toNat o < Word.limit32) ∧
      ∀ o, s.packedPitch bytes guard.toNat o < Word.limit32) ∧
    (∀ o, (l.addr o).toNat = s.packedAddr base.toNat bytes guard.toNat o) ∧
      ∀ o, (l.pitch o).toNat = s.packedPitch bytes guard.toNat o := by
  unfold place?
  constructor
  · intro h
    -- the pitches, the four addresses, and then all of them as words
    obtain ⟨xPitch, hx, h⟩ := Option.bind_eq_some_iff.mp h
    obtain ⟨wPitch, hw, h⟩ := Option.bind_eq_some_iff.mp h
    obtain ⟨yzPitch, hyz, h⟩ := Option.bind_eq_some_iff.mp h
    obtain ⟨-, rfl⟩ := word?_eq_some_iff.mp hx
    obtain ⟨-, rfl⟩ := word?_eq_some_iff.mp hw
    obtain ⟨-, rfl⟩ := word?_eq_some_iff.mp hyz
    obtain ⟨xAddr, hx, h⟩ := Option.bind_eq_some_iff.mp h
    obtain ⟨wAddr, hw, h⟩ := Option.bind_eq_some_iff.mp h
    obtain ⟨yAddr, hy, h⟩ := Option.bind_eq_some_iff.mp h
    obtain ⟨zAddr, hz, h⟩ := Option.bind_eq_some_iff.mp h
    obtain ⟨-, rfl⟩ := align?_eq_some_iff.mp hx
    obtain ⟨-, rfl⟩ := after?_eq_some_iff.mp hw
    obtain ⟨-, rfl⟩ := after?_eq_some_iff.mp hy
    obtain ⟨-, rfl⟩ := after?_eq_some_iff.mp hz
    obtain ⟨x, hx, h⟩ := Option.bind_eq_some_iff.mp h
    obtain ⟨w, hw, h⟩ := Option.bind_eq_some_iff.mp h
    obtain ⟨y, hy, h⟩ := Option.bind_eq_some_iff.mp h
    obtain ⟨z, hz, h⟩ := Option.bind_eq_some_iff.mp h
    obtain ⟨px, hpx, h⟩ := Option.bind_eq_some_iff.mp h
    obtain ⟨pw, hpw, h⟩ := Option.bind_eq_some_iff.mp h
    obtain ⟨pyz, hpyz, h⟩ := Option.bind_eq_some_iff.mp h
    cases h
    obtain ⟨hxl, hx⟩ := word32?_eq_some_iff.mp hx
    obtain ⟨hwl, hw⟩ := word32?_eq_some_iff.mp hw
    obtain ⟨hyl, hy⟩ := word32?_eq_some_iff.mp hy
    obtain ⟨hzl, hz⟩ := word32?_eq_some_iff.mp hz
    obtain ⟨hpxl, hpx⟩ := word32?_eq_some_iff.mp hpx
    obtain ⟨hpwl, hpw⟩ := word32?_eq_some_iff.mp hpw
    obtain ⟨hpyzl, hpyz⟩ := word32?_eq_some_iff.mp hpyz
    refine ⟨⟨fun o => ?_, fun o => ?_⟩, fun o => ?_, fun o => ?_⟩
    · cases o <;> assumption
    · cases o <;> assumption
    · cases o <;> assumption
    · cases o <;> assumption
  · rintro ⟨⟨haddr, hpitch⟩, ha, hp⟩
    have h32 : Word.limit32 < Word.limit := by decide
    have hx := word?_eq_some_iff.mpr ⟨Nat.lt_trans (hpitch .x) h32, rfl⟩
    have hw := word?_eq_some_iff.mpr ⟨Nat.lt_trans (hpitch .w) h32, rfl⟩
    have hyz := word?_eq_some_iff.mpr ⟨Nat.lt_trans (hpitch .y) h32, rfl⟩
    refine Option.bind_eq_some_iff.mpr ⟨_, hx, Option.bind_eq_some_iff.mpr ⟨_, hw,
      Option.bind_eq_some_iff.mpr ⟨_, hyz, ?_⟩⟩⟩
    have hx := align?_eq_some_iff.mpr ⟨add_lt_of_align_lt (haddr .x), rfl⟩
    have hw := after?_eq_some_iff.mpr ⟨add_lt_of_align_lt (haddr .w), rfl⟩
    have hy := after?_eq_some_iff.mpr ⟨add_lt_of_align_lt (haddr .y), rfl⟩
    have hz := after?_eq_some_iff.mpr ⟨add_lt_of_align_lt (haddr .z), rfl⟩
    refine Option.bind_eq_some_iff.mpr ⟨_, hx, Option.bind_eq_some_iff.mpr ⟨_, hw,
      Option.bind_eq_some_iff.mpr ⟨_, hy, Option.bind_eq_some_iff.mpr ⟨_, hz, ?_⟩⟩⟩⟩
    have ha' := fun o => word32?_eq_some_iff.mpr ⟨haddr o, ha o⟩
    have hp' := fun o => word32?_eq_some_iff.mpr ⟨hpitch o, hp o⟩
    exact Option.bind_eq_some_iff.mpr ⟨_, ha' .x, Option.bind_eq_some_iff.mpr ⟨_, ha' .w,
      Option.bind_eq_some_iff.mpr ⟨_, ha' .y, Option.bind_eq_some_iff.mpr ⟨_, ha' .z,
      Option.bind_eq_some_iff.mpr ⟨_, hp' .x, Option.bind_eq_some_iff.mpr ⟨_, hp' .w,
      Option.bind_eq_some_iff.mpr ⟨_, hp' .y, rfl⟩⟩⟩⟩⟩⟩⟩

/-- What fits comes about. -/
theorem exists_place? (haddr : ∀ o, s.packedAddr base.toNat bytes guard.toNat o < Word.limit32)
    (hpitch : ∀ o, s.packedPitch bytes guard.toNat o < Word.limit32) :
    ∃ l, place? base s bytes guard = some l := by
  let a (o : Operand) := (s.packedAddr base.toNat bytes guard.toNat o).toUInt32
  let p (o : Operand) := (s.packedPitch bytes guard.toNat o).toUInt32
  refine ⟨⟨a .x, a .w, a .y, a .z, p .x, p .w, p .y⟩,
    place?_eq_some_iff.mpr ⟨⟨haddr, hpitch⟩, fun o => ?_, fun o => ?_⟩⟩
  · cases o <;> exact JobImage.toNat_low32 (haddr _)
  · cases o <;> exact JobImage.toNat_low32 (hpitch _)

section

variable (h : place? base s bytes guard = some l)

include h

/-- Every matrix begins where the ones before it have ended. -/
theorem ordered_of_place? : [Operand.x, .w, .y, .z].Pairwise fun o q =>
    (l.addr o).toNat + (l.pitch o).toNat * s.rows o ≤ (l.addr q).toNat := by
  obtain ⟨-, ha, hp⟩ := place?_eq_some_iff.mp h
  simp only [ha, hp]
  have hw : s.packedAddr base.toNat bytes guard.toNat .x +
      s.packedPitch bytes guard.toNat .x * s.rows .x ≤
        s.packedAddr base.toNat bytes guard.toNat .w := le_align _
  have hy : s.packedAddr base.toNat bytes guard.toNat .w +
      s.packedPitch bytes guard.toNat .w * s.rows .w ≤
        s.packedAddr base.toNat bytes guard.toNat .y := le_align _
  have hz : s.packedAddr base.toNat bytes guard.toNat .y +
      s.packedPitch bytes guard.toNat .y * s.rows .y ≤
        s.packedAddr base.toNat bytes guard.toNat .z := le_align _
  rw [pairwise_operands]
  omega

theorem finish_of_place? : l.finish s = .ok (l.zAddr.toNat + l.yzPitch.toNat * s.m) := by
  obtain ⟨-, -, hyz⟩ := pairwise_operands.mp (ordered_of_place? h)
  -- Z is as large as Y, which ends before a 32-bit address
  have hy : l.yAddr.toNat + l.yzPitch.toNat * s.m ≤ l.zAddr.toNat := hyz
  have hz := l.zAddr.toNat_lt
  have hwords : 2 * Word.limit32 < Word.limit := by decide
  have hlimit : Word.limit32 = 2 ^ 32 := rfl
  rw [finish, Word.mul_of_lt (by omega), ok_bind, Word.add_of_lt (by omega)]

theorem packed_of_place? : packed base s bytes guard =
    .ok (if l.zAddr.toNat + l.yzPitch.toNat * s.m ≤ Word.limit32 then some l else none) := by
  unfold packed
  rw [h]
  simp only [finish_of_place? h, ok_bind]
  split <;> rfl

theorem aligned_of_place? (o : Operand) : 64 ∣ (l.addr o).toNat := by
  obtain ⟨-, ha, -⟩ := place?_eq_some_iff.mp h
  rw [ha]
  cases o <;> exact Nat.dvd_of_mod_eq_zero (align_mod _)

end

/-- Bytes of different matrices are different bytes. -/
theorem disjoint_of_ordered (hordered : [Operand.x, .w, .y, .z].Pairwise fun o q =>
    (l.addr o).toNat + (l.pitch o).toNat * s.rows o ≤ (l.addr q).toNat) {o q : Operand} {a : Nat}
    (hne : o ≠ q) (ho : l.Owns s o a) : ¬ l.Owns s q a := by
  intro hq
  obtain ⟨hx, hw, hy⟩ := pairwise_operands.mp hordered
  obtain ⟨hlo, hhi⟩ := ho
  obtain ⟨hlo', hhi'⟩ := hq
  cases o <;> cases q
  case x.x | w.w | y.y | z.z => exact hne rfl
  all_goals omega

/-- What is placed is packed if it ends inside. -/
theorem packed_of_end_le (h : place? base s bytes guard = some l)
    (hend : l.zAddr.toNat + l.yzPitch.toNat * s.m ≤ Word.limit32) :
    l.Packed s base.toNat bytes guard.toNat := by
  obtain ⟨-, ha, hp⟩ := place?_eq_some_iff.mp h
  have hordered := ordered_of_place? h
  obtain ⟨hx, hw, hy⟩ := pairwise_operands.mp hordered
  have hbase : base.toNat ≤ (l.addr .x).toNat := by
    rw [ha]
    exact le_align _
  exact {
    addr := ha
    pitch := hp
    aligned := aligned_of_place? h
    base_le := fun o => by cases o <;> omega
    ordered := hordered
    disjoint := fun o q a hne => disjoint_of_ordered hordered hne
    finish := finish_of_place? h
    addressable := fun o a ho => by
      have hz : (l.addr .z).toNat + (l.pitch .z).toNat * s.rows .z ≤ Word.limit32 := hend
      obtain ⟨-, hhi⟩ := ho
      cases o <;> omega }

/-- **The packed layout is exact.** It always says whether there is one: there is if
addresses, pitches and the end of Z over numbers of any size fit 32 bits, and then it
is that layout, of matrices one after the other on multiples of 64 bytes. -/
theorem packed_exact (base : UInt32) (s : Shape) (bytes : Nat) (guard : UInt32) :
    ∃ l?, packed base s bytes guard = .ok l? ∧
      (l?.isSome ↔ s.Packs base.toNat bytes guard.toNat) ∧
      ∀ l, l? = some l → l.Packed s base.toNat bytes guard.toNat := by
  cases hplace : place? base s bytes guard with
  | none =>
    have hpacked : packed base s bytes guard = .ok none := by
      unfold packed
      rw [hplace]
    refine ⟨none, hpacked, ⟨nofun, fun hpacks => ?_⟩, nofun⟩
    obtain ⟨l, hl⟩ := exists_place? hpacks.addr_lt hpacks.pitch_lt
    rw [hplace] at hl
    cases hl
  | some l =>
    obtain ⟨⟨haddr, hpitch⟩, ha, hp⟩ := place?_eq_some_iff.mp hplace
    have hza : l.zAddr.toNat = s.packedAddr base.toNat bytes guard.toNat .z := ha .z
    have hzp : l.yzPitch.toNat = s.packedPitch bytes guard.toNat .z := hp .z
    refine ⟨_, packed_of_place? hplace, ?_, ?_⟩
    · split
      · next hend =>
        rw [hza, hzp] at hend
        exact ⟨fun _ => ⟨haddr, hpitch, hend⟩, fun _ => rfl⟩
      · next hend =>
        rw [hza, hzp] at hend
        exact ⟨nofun, fun hpacks => absurd hpacks.end_le hend⟩
    · intro l' hl'
      split at hl'
      · next hend =>
        cases hl'
        exact packed_of_end_le hplace hend
      · cases hl'

/-- Z may end where the address space does, and not behind it. -/
example : (packed 0xFFFFF540 ⟨1, 1, 0x1C0⟩ 2 0).toOption.join.isSome ∧
    (packed 0xFFFFF541 ⟨1, 1, 0x1C0⟩ 2 0).toOption.join = none := by decide

end

end Layout

end SystolicGemm
