import SystolicGemm.Word

/-!
# Reasoning about computations that may stop

A checked operation has its exact value as soon as that value fits. The rest of
the development works with the exact values and discharges the bounds once, so
this module only says how a checked operation inside its bound reduces, and how
a run that stops or goes on passes through a bind.
-/

namespace SystolicGemm

/-- A bind has a value if both of its parts do. -/
theorem bind_eq_ok_iff {ε α β : Type} {x : Except ε α} {f : α → Except ε β} {b : β} :
    (x >>= f) = .ok b ↔ ∃ a, x = .ok a ∧ f a = .ok b := by
  cases x <;> simp [bind, Except.bind]

@[simp] theorem ok_bind {ε α β : Type} (a : α) (f : α → Except ε β) :
    (Except.ok a >>= f) = f a := rfl

@[simp] theorem pure_eq_ok {ε α : Type} (a : α) : (pure a : Except ε α) = .ok a := rfl

@[simp] theorem liftM_ok {ε α : Type} (a : α) :
    (liftM (Except.ok a : Checked α) : Outcome ε α) = .ok a := rfl

theorem liftM_eq_ok_iff {ε α : Type} {x : Checked α} {a : α} :
    (liftM x : Outcome ε α) = .ok a ↔ x = .ok a := by
  cases x <;> simp [liftM, monadLift, MonadLift.monadLift]

/-- A place in a row of an array is one in the array. -/
theorem rowMajor_lt {rows cols i j : Nat} (hi : i < rows) (hj : j < cols) :
    i * cols + j < rows * cols := by
  have h := Nat.mul_le_mul_right cols (Nat.succ_le_of_lt hi)
  rw [Nat.succ_mul] at h
  omega

/-- A computation that may fail but does not trap. -/
def Untrapped {ε α : Type} (x : Outcome ε α) : Prop := ∀ t, x ≠ .error (.trap t)

theorem untrapped_ok {ε α : Type} (a : α) : Untrapped (.ok a : Outcome ε α) := fun _ h => by cases h

theorem untrapped_ensure {ε : Type} (c : Prop) [Decidable c] (e : ε) :
    Untrapped (ensure c e) := fun t h => by
  unfold ensure at h
  split at h <;> cases h

theorem untrapped_liftM {ε α : Type} {x : Checked α} {a : α} (h : x = .ok a) :
    Untrapped (liftM x : Outcome ε α) := by
  rw [h]
  exact untrapped_ok a

theorem Untrapped.bind {ε α β : Type} {x : Outcome ε α} {f : α → Outcome ε β}
    (hx : Untrapped x) (hf : ∀ a, x = .ok a → Untrapped (f a)) : Untrapped (x >>= f) := by
  cases x with
  | ok a => exact hf a rfl
  | error stop =>
    intro t h
    cases h
    exact hx t rfl

namespace Word

theorem below_of_lt {bound n : Nat} (h : n < bound) : below bound n = .ok n :=
  below_eq_ok_iff.mpr ⟨h, rfl⟩

theorem add_of_lt {a b : Nat} (h : a + b < limit) : add a b = .ok (a + b) :=
  below_of_lt h

theorem mul_of_lt {a b : Nat} (h : a * b < limit) : mul a b = .ok (a * b) :=
  below_of_lt h

theorem capacity_of_lt {n : Nat} (h : n < halfLimit) : capacity n = .ok n :=
  below_of_lt h

theorem sub_of_le {a b : Nat} (h : b ≤ a) : sub a b = .ok (a - b) :=
  sub_eq_ok_iff.mpr ⟨h, rfl⟩

theorem rem_of_pos {a b : Nat} (h : 0 < b) : rem a b = .ok (a % b) :=
  rem_eq_ok_iff.mpr ⟨Nat.ne_of_gt h, rfl⟩

end Word

/-! ## Runs -/

variable {ε σ α β : Type}

@[simp] theorem run_pure (a : α) (s : σ) : (pure a : Run ε σ α) s = .ok a s := rfl

@[simp] theorem run_get_bind (f : σ → Run ε σ β) (s : σ) : (get >>= f) s = f s s := rfl

@[simp] theorem run_set_bind (f : PUnit → Run ε σ β) (s t : σ) :
    ((set t : Run ε σ PUnit) >>= f) s = f ⟨⟩ t := rfl

/-- A run goes on where its first part left off. -/
theorem run_bind_ok {x : Run ε σ α} {f : α → Run ε σ β} {s s' : σ} {a : α}
    (h : x s = .ok a s') : (x >>= f) s = f a s' := by
  show EStateM.bind x f s = _
  rw [EStateM.bind, h]

/-- A run stops where its first part stopped. -/
theorem run_bind_error {x : Run ε σ α} {f : α → Run ε σ β} {s s' : σ} {stop : Stop ε}
    (h : x s = .error stop s') : (x >>= f) s = .error stop s' := by
  show EStateM.bind x f s = _
  rw [EStateM.bind, h]

/-- A computation without a state leaves the state of a run alone. -/
theorem run_liftM_eq_ok {x : Outcome ε α} {s s' : σ} {a : α}
    (h : (liftM x : Run ε σ α) s = .ok a s') : x = .ok a ∧ s' = s := by
  cases x with
  | ok b =>
    cases h
    exact ⟨rfl, rfl⟩
  | error stop => cases h

/-- A run that has returned went through both of its parts. -/
theorem run_bind_eq_ok {x : Run ε σ α} {f : α → Run ε σ β} {s s'' : σ} {b : β}
    (h : (x >>= f) s = .ok b s'') : ∃ a s', x s = .ok a s' ∧ f a s' = .ok b s'' := by
  cases hx : x s with
  | ok a s' =>
    rw [run_bind_ok hx] at h
    exact ⟨a, s', rfl, h⟩
  | error stop s' =>
    rw [run_bind_error hx] at h
    cases h

/-- Runs an action for each element of a list. -/
def each (f : α → Run ε σ Unit) (as : List α) : Run ε σ Unit := do
  for a in as do f a

theorem each_cons_ok {f : α → Run ε σ Unit} {a : α} {s s' : σ} (h : f a s = .ok () s')
    (as : List α) : each f (a :: as) s = each f as s' := by
  simp only [each, List.forIn_cons, bind_assoc, pure_bind]
  exact run_bind_ok h

theorem each_cons_error {f : α → Run ε σ Unit} {a : α} {s s' : σ} {stop : Stop ε}
    (h : f a s = .error stop s') (as : List α) : each f (a :: as) s = .error stop s' := by
  simp only [each, List.forIn_cons, bind_assoc, pure_bind]
  exact run_bind_error h

theorem each_cons_eq_ok {f : α → Run ε σ Unit} {a : α} {as : List α} {s s'' : σ}
    (h : each f (a :: as) s = .ok () s'') :
    ∃ s', f a s = .ok () s' ∧ each f as s' = .ok () s'' := by
  cases ha : f a s with
  | ok u s' =>
    rw [each_cons_ok ha] at h
    exact ⟨s', rfl, h⟩
  | error stop s' =>
    rw [each_cons_error ha] at h
    cases h

end SystolicGemm
