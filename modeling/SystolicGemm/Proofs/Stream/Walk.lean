import SystolicGemm.Proofs.Checked
import SystolicGemm.Stream.Pattern

/-!
# Where a walk is

A walk carries from one level into the next, so where it is seems to depend on
how it came there. It does not: after `u` beats the counters are the digits of
`u` in the mixed radix of the level lengths, and each offset is a counter times
its stride. `Pattern.posAt` is that closed form, and `Pattern.next_posAt` says
that one carry step keeps to it.
-/

namespace SystolicGemm

/-! ## Counting in one digit -/

/-- The digits before the last one, and the last one. -/
theorem div_mod_of_lt {q l i : Nat} (hi : i < l) : (q * l + i) / l = q ∧ (q * l + i) % l = i := by
  have hl : 0 < l := Nat.zero_lt_of_lt hi
  rw [Nat.mul_comm, Nat.mul_add_div hl, Nat.mul_add_mod, Nat.div_eq_of_lt hi, Nat.mod_eq_of_lt hi]
  exact ⟨Nat.add_zero q, rfl⟩

/-- Below the end of a digit only the digit moves. -/
theorem succ_mod_div_of_lt {u l : Nat} (h : u % l + 1 < l) :
    (u + 1) % l = u % l + 1 ∧ (u + 1) / l = u / l := by
  have hl : 0 < l := by omega
  have hu : u + 1 = u % l + 1 + l * (u / l) := by
    have := Nat.mod_add_div u l
    omega
  rw [hu, Nat.add_mul_mod_self_left, Nat.mod_eq_of_lt h, Nat.add_mul_div_left _ _ hl,
    Nat.div_eq_of_lt h]
  exact ⟨rfl, by omega⟩

/-- At the end of a digit it starts over and carries. -/
theorem succ_mod_div_of_eq {u l : Nat} (h : u % l + 1 = l) :
    (u + 1) % l = 0 ∧ (u + 1) / l = u / l + 1 := by
  have hl : 0 < l := by omega
  have hu : u + 1 = 0 + l * (u / l + 1) := by
    have := Nat.mod_add_div u l
    rw [Nat.mul_add]
    omega
  rw [hu, Nat.add_mul_mod_self_left, Nat.zero_mod, Nat.add_mul_div_left _ _ hl, Nat.zero_div]
  exact ⟨rfl, by omega⟩

namespace Level

theorem count_pos (d : Level) : 0 < d.count := Nat.lt_of_lt_of_le Nat.one_pos (Nat.le_max_right ..)

/-- A level whose counter stands at `c`. -/
def posAt (d : Level) (c : Nat) : LevelPos := ⟨c, c * d.stride⟩

theorem next_of_lt {d : Level} {c : Nat} (hc : c + 1 < d.count)
    (h : c * d.stride + d.stride < Word.limit) :
    d.next (d.posAt c) = .ok (d.posAt (c + 1), false) := by
  simp [next, posAt, Word.add_of_lt h, hc, Nat.succ_mul]

theorem next_of_eq {d : Level} {c : Nat} (hc : c + 1 = d.count)
    (h : c * d.stride + d.stride < Word.limit) :
    d.next (d.posAt c) = .ok (d.posAt 0, true) := by
  simp [next, posAt, Word.add_of_lt h, hc]

end Level

namespace Pattern

/-- The counter of the inner level after `u` beats. -/
def innerAt (p : Pattern) (u : Nat) : Nat := u % p.inner.count

/-- The counter of the middle level after `u` beats. -/
def middleAt (p : Pattern) (u : Nat) : Nat := u / p.inner.count % p.middle.count

/-- The counter of the outer level after `u` beats. -/
def outerAt (p : Pattern) (u : Nat) : Nat :=
  u / p.inner.count / p.middle.count % p.outer.count

/-- How often the outer level has started over after `u` beats. -/
def wrapsAt (p : Pattern) (u : Nat) : Nat :=
  u / p.inner.count / p.middle.count / p.outer.count

/-- Where a walk is after `u` beats. -/
def posAt (p : Pattern) (u : Nat) : PatternPos :=
  ⟨p.inner.posAt (p.innerAt u), p.middle.posAt (p.middleAt u), p.outer.posAt (p.outerAt u),
    p.wrapsAt u * p.wrapStride⟩

theorem posAt_zero (p : Pattern) : p.posAt 0 = .origin := by
  simp [posAt, innerAt, middleAt, outerAt, wrapsAt, Level.posAt, PatternPos.origin]

theorem offset_posAt (p : Pattern) (u : Nat) :
    (p.posAt u).offset = p.innerAt u * p.inner.stride + p.middleAt u * p.middle.stride +
      p.outerAt u * p.outer.stride + p.wrapsAt u * p.wrapStride := rfl

/-- The next offset of every level that the beat after `u` moves fits a word. -/
structure Roomy (p : Pattern) (u : Nat) : Prop where
  inner : p.innerAt u * p.inner.stride + p.inner.stride < Word.limit
  middle : p.innerAt u + 1 = p.inner.count →
    p.middleAt u * p.middle.stride + p.middle.stride < Word.limit
  outer : p.innerAt u + 1 = p.inner.count → p.middleAt u + 1 = p.middle.count →
    p.outerAt u * p.outer.stride + p.outer.stride < Word.limit
  wrap : p.innerAt u + 1 = p.inner.count → p.middleAt u + 1 = p.middle.count →
    p.outerAt u + 1 = p.outer.count → p.wrapsAt u * p.wrapStride + p.wrapStride < Word.limit

/-- **A beat moves a walk to the next digits.** -/
theorem next_posAt {p : Pattern} {u : Nat} (h : p.Roomy u) :
    p.next (p.posAt u) = .ok (p.posAt (u + 1)) := by
  have hi : p.innerAt u + 1 ≤ p.inner.count := Nat.mod_lt _ p.inner.count_pos
  have hm : p.middleAt u + 1 ≤ p.middle.count := Nat.mod_lt _ p.middle.count_pos
  have ho : p.outerAt u + 1 ≤ p.outer.count := Nat.mod_lt _ p.outer.count_pos
  -- each level moves alone, or starts over and carries into the next
  rcases Nat.lt_or_eq_of_le hi with hi | hi
  · obtain ⟨h1, h2⟩ := succ_mod_div_of_lt hi
    simp only [next, posAt, Level.next_of_lt hi h.inner, ok_bind]
    simp [innerAt, middleAt, outerAt, wrapsAt, h1, h2]
  have hin := Level.next_of_eq hi (h.inner)
  obtain ⟨h1, h2⟩ := succ_mod_div_of_eq hi
  rcases Nat.lt_or_eq_of_le hm with hm | hm
  · obtain ⟨h3, h4⟩ := succ_mod_div_of_lt hm
    simp only [next, posAt, hin, Level.next_of_lt hm (h.middle hi), ok_bind]
    simp [innerAt, middleAt, outerAt, wrapsAt, h1, h2, h3, h4]
  have hmi := Level.next_of_eq hm (h.middle hi)
  obtain ⟨h3, h4⟩ := succ_mod_div_of_eq hm
  rcases Nat.lt_or_eq_of_le ho with ho | ho
  · obtain ⟨h5, h6⟩ := succ_mod_div_of_lt ho
    simp only [next, posAt, hin, hmi, Level.next_of_lt ho (h.outer hi hm), ok_bind]
    simp [innerAt, middleAt, outerAt, wrapsAt, h1, h2, h3, h4, h5, h6]
  · obtain ⟨h5, h6⟩ := succ_mod_div_of_eq ho
    have hw := Word.add_of_lt (h.wrap hi hm ho)
    simp only [next, posAt, hin, hmi, Level.next_of_eq ho (h.outer hi hm), hw, ok_bind]
    simp [innerAt, middleAt, outerAt, wrapsAt, h1, h2, h3, h4, h5, h6, Nat.succ_mul]

end Pattern

end SystolicGemm
