import Mathlib.Data.List.Perm.Basic
import SystolicGemm.Proofs.Job.Packed

/-!
# Jobs by way of the registers

A driver does not hand over an image, it writes the words of the image to registers.
The order of the writes does not matter, nor does what the registers held before:
the image that comes out is `JobImage.repacked`, which keeps only the low bits of
tile counts that are too large for their half of a word.

An image with such counts does not come out as another job. Its lengths are still
those of all its tiles, and fewer tiles never have as many beats.
-/

namespace SystolicGemm

namespace JobImage

/-! ## Any order of writes -/

theorem set_comm (j : JobImage) {r t : JobRegister} (h : r ≠ t) (v w : UInt32) :
    (j.set r v).set t w = (j.set t w).set r v := by
  cases r <;> cases t <;> first | exact (h rfl).elim | rfl

/-- Writes that give job registers the words of an image. -/
def Words (j : JobImage) (ws : List (UInt32 × UInt32)) : Prop :=
  ∀ w ∈ ws, ∃ r : JobRegister, w = (r.offset, j.get r)

theorem mem_writes {j : JobImage} {w : UInt32 × UInt32} :
    w ∈ j.writes ↔ ∃ r : JobRegister, w = (r.offset, j.get r) := by
  unfold writes
  rw [List.mem_map]
  constructor
  · rintro ⟨r, _, rfl⟩
    exact ⟨r, rfl⟩
  · rintro ⟨r, rfl⟩
    exact ⟨r, by cases r <;> decide, rfl⟩

theorem words_of_perm {j : JobImage} {ws : List (UInt32 × UInt32)} (h : ws.Perm j.writes) :
    j.Words ws :=
  fun _ hw => mem_writes.mp (h.mem_iff.mp hw)

theorem Words.prefix {j : JobImage} {made rest : List (UInt32 × UInt32)}
    (h : j.Words (made ++ rest)) : j.Words made :=
  fun w hw => h w (List.mem_append_left rest hw)

end JobImage

namespace RegisterFile

/-- **The order of the writes does not matter.** -/
theorem writeAll_perm (f : RegisterFile) {j : JobImage} {ws : List (UInt32 × UInt32)}
    (h : ws.Perm j.writes) : f.writeAll ws = f.writeAll j.writes := by
  refine h.foldl_eq' (fun v hv w hw f => ?_) f
  obtain ⟨r, rfl⟩ := JobImage.words_of_perm h v hv
  obtain ⟨t, rfl⟩ := JobImage.words_of_perm h w hw
  by_cases hrt : r = t
  · rw [hrt]
  · simp only [write_job, JobImage.set_comm _ hrt]

/-- Words of an image reach nothing but the image. -/
theorem writeAll_words {j : JobImage} (f : RegisterFile) {ws : List (UInt32 × UInt32)}
    (h : j.Words ws) :
    (f.writeAll ws).status = f.status ∧ (f.writeAll ws).finishedJobs = f.finishedJobs := by
  induction ws generalizing f with
  | nil => exact ⟨rfl, rfl⟩
  | cons w ws ih =>
    obtain ⟨r, rfl⟩ := h w List.mem_cons_self
    rw [writeAll_cons, write_job]
    exact ih _ fun w hw => h w (List.mem_cons_of_mem _ hw)

/-- A register holds the word that was written to it, and what it held before if there
was none. -/
theorem read_writeAll {j : JobImage} (f : RegisterFile) {ws : List (UInt32 × UInt32)}
    (h : j.Words ws) (r : JobRegister) :
    (f.writeAll ws).read r.offset =
      if (r.offset, j.get r) ∈ ws then j.get r else f.read r.offset := by
  induction ws generalizing f with
  | nil => rfl
  | cons w ws ih =>
    obtain ⟨t, rfl⟩ := h w List.mem_cons_self
    rw [writeAll_cons, ih _ fun w hw => h w (List.mem_cons_of_mem _ hw), write_job, read_job,
      read_job]
    by_cases hmem : (r.offset, j.get r) ∈ ws
    · rw [if_pos hmem, if_pos (List.mem_cons_of_mem _ hmem)]
    rw [if_neg hmem]
    by_cases hrt : r = t
    · subst hrt
      rw [if_pos List.mem_cons_self, JobImage.get_set_self]
    · have hne : (r.offset, j.get r) ∉ (t.offset, j.get t) :: ws := by
        intro hmem'
        rcases List.mem_cons.mp hmem' with heq | hmem'
        · have hoffset : Register.ofOffset r.offset = Register.ofOffset t.offset :=
            congrArg (Register.ofOffset ·.1) heq
          rw [Register.ofOffset_job, Register.ofOffset_job] at hoffset
          exact hrt (Register.job.inj (Option.some.inj hoffset))
        · exact hmem hmem'
      rw [if_neg hne, JobImage.get_set_of_ne _ _ (Ne.symm hrt)]

end RegisterFile

namespace JobImage

/-! ## Counts that are too large -/

/-- Smaller factors have a smaller product. -/
theorem eq_of_mul_eq {a a' b b' : Nat} (hb : 0 < b) (ha : a' ≤ a) (hb' : b' ≤ b)
    (ha' : 0 < a') (h : a' * b' = a * b) : a' = a ∧ b' = b := by
  rcases Nat.lt_or_eq_of_le ha with hlt | heq
  · have h1 : a' * b' < a * b := Nat.mul_lt_mul_of_lt_of_le hlt hb' hb
    omega
  · subst heq
    exact ⟨rfl, Nat.eq_of_mul_eq_mul_left ha' h⟩

theorem toNat_unpack_rows (t : TileCounts) :
    (TileCounts.unpack t.pack).rows.toNat = t.rows.toNat % 0x10000 := by
  have hr := t.rows.toNat_lt
  have hc := t.cols.toNat_lt
  simp only [TileCounts.unpack, TileCounts.pack, Word.low32, Nat.toUInt32_eq, UInt32.toNat_ofNat']
  omega

theorem toNat_unpack_cols (t : TileCounts) :
    (TileCounts.unpack t.pack).cols.toNat = t.cols.toNat % 0x10000 := by
  have hr := t.rows.toNat_lt
  have hc := t.cols.toNat_lt
  simp only [TileCounts.unpack, TileCounts.pack, Word.low32, Nat.toUInt32_eq, UInt32.toNat_ofNat']
  omega

/-- Whether half a word holds each tile count. -/
def FitsHalves (j : JobImage) : Prop :=
  j.xTiles.rows.toNat < 0x10000 ∧ j.xTiles.cols.toNat < 0x10000 ∧
    j.wTiles.rows.toNat < 0x10000 ∧ j.wTiles.cols.toNat < 0x10000

instance (j : JobImage) : Decidable j.FitsHalves := inferInstanceAs (Decidable (_ ∧ _ ∧ _ ∧ _))

variable {j : JobImage} {g : Geometry} {p p' : Plan}

theorem Accepted.packed_of_fitsHalves (h : j.Accepted g p) (hg : g.Valid) (hj : j.FitsHalves) :
    j.Packed :=
  h.packed hg (h.xRowTiles ▸ hj.1) (h.colTiles ▸ hj.2.1) (h.wColTiles ▸ hj.2.2.2)

/-- **Tiles that are lost on the way through the registers are missed.** Both images have
the lengths of the first one. -/
theorem Accepted.fitsHalves (h : j.Accepted g p) (hg : g.Valid) (h' : j.repacked.Accepted g p') :
    j.FitsHalves := by
  have hrows : p'.xRowTiles = p.xRowTiles % 0x10000 := by
    rw [h'.xRowTiles, h.xRowTiles]
    exact toNat_unpack_rows j.xTiles
  have hcols : p'.colTiles = p.colTiles % 0x10000 := by
    rw [h'.colTiles, h.colTiles]
    exact toNat_unpack_cols j.xTiles
  have houts : p'.wColTiles = p.wColTiles % 0x10000 := by
    rw [h'.wColTiles, h.wColTiles]
    exact toNat_unpack_cols j.wTiles
  have hx : p'.colTiles * p'.xRowTiles = p.colTiles * p.xRowTiles := by
    have hlength := h'.xLength
    rw [repacked_xLength, h.xLength, Nat.mul_assoc, Nat.mul_assoc] at hlength
    exact Nat.eq_of_mul_eq_mul_left hg.width_pos hlength.symm
  have hy : p'.wColTiles * p'.xRowTiles = p.wColTiles * p.xRowTiles := by
    have hlength := h'.yLength
    rw [repacked_yLength, h.yLength, Nat.mul_assoc, Nat.mul_assoc] at hlength
    exact Nat.eq_of_mul_eq_mul_left hg.width_pos hlength.symm
  have hle : ∀ n, n % 0x10000 ≤ n := fun n => Nat.mod_le n _
  obtain ⟨hcols', hrows'⟩ := eq_of_mul_eq h.xRowTiles_pos (hcols ▸ hle _) (hrows ▸ hle _)
    h'.colTiles_pos hx
  obtain ⟨houts', _⟩ := eq_of_mul_eq h.xRowTiles_pos (houts ▸ hle _) (hrows ▸ hle _)
    h'.wColTiles_pos hy
  have hw := h.wRowTiles
  refine ⟨?_, ?_, ?_, ?_⟩
  · rw [← h.xRowTiles]
    omega
  · rw [← h.colTiles]
    omega
  · rw [hw]
    omega
  · rw [← h.wColTiles]
    omega

/-- An image with a count that is too large comes out of the registers as one that the
checks refuse. -/
theorem Accepted.repacked_refused (h : j.Accepted g p) (hg : g.Valid) (hj : ¬ j.FitsHalves) :
    ∃ flaw, j.repacked.validate g = .error (.error flaw) := by
  cases hv : j.repacked.validate g with
  | ok p' => exact absurd (h.fitsHalves hg (accepted_of_validate hv)) hj
  | error stop =>
    cases stop with
    | trap t => exact absurd hv (j.packed_repacked.untrapped_validate hg t)
    | error flaw => exact ⟨flaw, rfl⟩

/-- A job of shape `262145 x 4 x 4`. -/
def tall : JobImage where
  xAddr := 0
  wAddr := 0x1000000
  yAddr := 0x1000040
  zAddr := 0x2000000
  xLength := 262148
  wLength := 262148
  yLength := 262148
  zLength := 262148
  wTiles := ⟨1, 1⟩
  xTiles := ⟨0x10001, 1⟩
  leftovers := ⟨1, 0, 0, 0⟩
  xPitch := 8
  wPitch := 8
  yzPitch := 8

theorem validate_tall : tall.validate .narrow = .ok {
    n := 4
    k := 4
    colTiles := 1
    wColTiles := 1
    xRowTiles := 0x10001
    leftovers := ⟨1, 0, 0, 0⟩
    x := ⟨0, 262148, ⟨4, 8⟩, ⟨1, 8⟩, ⟨0x10001, 32⟩, 0⟩
    w := ⟨0x1000000, 262148, ⟨4, 8⟩, ⟨1, 8⟩, ⟨0x10001, 0⟩, 0⟩
    y := ⟨0x1000040, 262148, ⟨4, 8⟩, ⟨1, 8⟩, ⟨0x10001, 32⟩, 0⟩
    z := ⟨0x2000000, 262148, ⟨4, 8⟩, ⟨1, 8⟩, ⟨0x10001, 32⟩, 0⟩ } := rfl

end JobImage

namespace RegisterFile

/-- **A job that goes through the registers is the job that was meant, or is refused.**
The words of an accepted image may be written in any order and over anything: no write
asks for an action, none touches the status or the count of finished jobs, and every
register that was written reads as it was written. If half a word holds each tile count,
the image in the registers is the one that was meant, and its plan the same. If not, the
checks refuse what is in the registers, so that no other job is ever run in its place. -/
theorem validate_writeAll {g : Geometry} (hg : g.validate = .ok ()) {j : JobImage} {p : Plan}
    (hv : j.validate g = .ok p) (f : RegisterFile) {ws : List (UInt32 × UInt32)}
    (hperm : ws.Perm j.writes) :
    (∀ made w rest, ws = made ++ w :: rest → ((f.writeAll made).write w.1 w.2).1 = .none) ∧
    (∀ made rest, ws = made ++ rest →
      (f.writeAll made).status = f.status ∧
      (f.writeAll made).finishedJobs = f.finishedJobs ∧
      ∀ w ∈ made, (f.writeAll made).read w.1 = w.2) ∧
    (∀ r : JobRegister, (f.writeAll ws).read r.offset = j.get r) ∧
    (j.FitsHalves → (f.writeAll ws).job = j ∧ (f.writeAll ws).job.validate g = .ok p) ∧
    (¬ j.FitsHalves → ∃ flaw, (f.writeAll ws).job.validate g = .error (.error flaw)) ∧
    (∀ p', (f.writeAll ws).job.validate g = .ok p' → (f.writeAll ws).job = j ∧ p' = p) := by
  have hvalid := Geometry.validate_eq_ok_iff.mp hg
  have haccepted := JobImage.accepted_of_validate hv
  have hwords := JobImage.words_of_perm hperm
  have hjob : (f.writeAll ws).job = j.repacked := by rw [writeAll_perm f hperm, writeAll_writes]
  have hfits : j.FitsHalves → (f.writeAll ws).job = j := fun hj =>
    hjob.trans (haccepted.packed_of_fitsHalves hvalid hj).repacked_eq
  refine ⟨?effect, ?made, ?read, ?fits, ?refused, ?meant⟩
  case effect =>
    intro made w rest hws
    obtain ⟨r, rfl⟩ := hwords w (by rw [hws]; exact List.mem_append_right _ List.mem_cons_self)
    rw [write_job]
  case made =>
    intro made rest hws
    have hmade : j.Words made := JobImage.Words.prefix (hws ▸ hwords)
    obtain ⟨hstatus, hfinished⟩ := writeAll_words f hmade
    refine ⟨hstatus, hfinished, fun w hw => ?_⟩
    obtain ⟨r, rfl⟩ := hmade w hw
    rw [read_writeAll f hmade r, if_pos hw]
  case read =>
    intro r
    rw [read_writeAll f hwords r, if_pos (hperm.mem_iff.mpr (JobImage.mem_writes.mpr ⟨r, rfl⟩))]
  case fits =>
    intro hj
    rw [hfits hj]
    exact ⟨rfl, hv⟩
  case refused =>
    intro hj
    rw [hjob]
    exact haccepted.repacked_refused hvalid hj
  case meant =>
    intro p' hp'
    have hrepacked := JobImage.accepted_of_validate (hjob ▸ hp')
    have heq := hfits (haccepted.fitsHalves hvalid hrepacked)
    rw [heq, hv] at hp'
    exact ⟨heq, (Except.ok.inj hp').symm⟩

/-- The words of the ragged job in the opposite order, and those of a job with a row of
tiles too many for its half of a word. -/
theorem validate_writeAll_ragged :
    (reset.writeAll (JobImage.ragged 0x200 0x300).writes.reverse).job.validate .narrow =
        .ok (.ragged 0x200 0x300) ∧
      ∃ flaw, (reset.writeAll (JobImage.tall).writes.reverse).job.validate .narrow =
        .error (.error flaw) :=
  ⟨((validate_writeAll Geometry.validate_narrow (JobImage.validate_ragged 0x200 0x300) reset
      (List.reverse_perm _)).2.2.2.1 (by decide)).2,
    (validate_writeAll Geometry.validate_narrow JobImage.validate_tall reset
      (List.reverse_perm _)).2.2.2.2.1 (by decide)⟩

end RegisterFile

end SystolicGemm
