import SystolicGemm.Golden.Reference
import SystolicGemm.Proofs.Checked
import SystolicGemm.Proofs.Floating.Unordered

/-!
# What the check of a result accepts

A result is compared with `Y + X * W` in double precision, element by element in row
order, as far as both go; the first element that does not pass is named (`Graded`). An
element passes unless it is a NaN or its error is larger than what is tolerated. That
is to be close to the reference only where the error is a number: any number passes
beside a reference that is a NaN, and an infinity beside the same infinity
(`passes_iff`).
-/

namespace SystolicGemm

theorem BinaryFormat.single_embeds_double : single.Embeds double where
  fraction_pos := by decide
  fraction := by decide
  least := by decide
  greatest := by decide
  two_le_top := by decide

/-! ## The tolerance -/

namespace Element

theorem datum_epsilon (e : Element) : ∃ m q, e.epsilon.datum = .finite false m q ∧ m ≠ 0 := by
  cases e with
  | fp8 => exact ⟨2 ^ 52, -54, by decide, by decide⟩
  | fp16 => exact ⟨2 ^ 52, -62, by decide, by decide⟩
  | fp32 => exact ⟨2 ^ 52, -75, by decide, by decide⟩

/-- The tolerance is a number, also beside a magnitude that is none. -/
theorem isNaN_tolerance (e : Element) {n : Nat} (hn : n < Word.limit) (scale : Double) :
    (e.tolerance n scale).isNaN = false := by
  obtain ⟨m, q, heps, hm⟩ := e.datum_epsilon
  have hone : (Binary.ofNat .double 1).isNaN = false := (Binary.regular_ofNat 1).isNaN
  have hscaled := Binary.isNaN_finite_mul heps hm (Binary.isNaN_max (x := scale) hone)
  have hpos : 0 < Max.max n 1 := by omega
  have hlt : Max.max n 1 < 2 ^ 64 := by
    have hlimit : n < 2 ^ 64 := hn
    omega
  obtain ⟨hbits, hfinite⟩ := Binary.toBits_ofNat hpos hlt
  obtain ⟨m', q', hd, hm'⟩ : ∃ m q, (Binary.ofNat .double (Max.max n 1)).datum =
      .finite false m q ∧ m ≠ 0 := by
    rw [(Binary.regular_ofNat _).datum_finite hfinite]
    split
    · exact ⟨_, _, rfl, Nat.ne_of_gt hbits⟩
    · exact ⟨_, _, rfl, Nat.ne_of_gt (Nat.add_pos_left (Nat.two_pow_pos _) _)⟩
  exact Binary.isNaN_mul_finite hscaled hd hm'

end Element

namespace Operands

variable {ops : Operands} {shape : Shape} {e : Element}

/-! ## The reference -/

/-- Whether there are operands for all of a problem, whose depth a word counts. -/
structure Supplies (ops : Operands) (shape : Shape) : Prop where
  depth_lt : shape.n < Word.limit
  x : shape.m * shape.n ≤ ops.x.size
  w : shape.n * shape.k ≤ ops.w.size
  y : shape.m * shape.k ≤ ops.y.size

/-- An element of a matrix in double precision. -/
def wideAt (values : Array Single) (i : Nat) : Double := (values.getD i default).convert .double

/-- The product at position `p` of a contraction. -/
def term (ops : Operands) (shape : Shape) (i j p : Nat) : Double :=
  wideAt ops.x (i * shape.n + p) * wideAt ops.w (p * shape.k + j)

/-- **The element of the reference** in row `i` and column `j`: that of Y and the products,
first to last. -/
def expected (ops : Operands) (shape : Shape) (i j : Nat) : Double :=
  (List.range shape.n).foldl (fun sum p => sum + ops.term shape i j p)
    (wideAt ops.y (i * shape.k + j))

/-- The magnitude of an element: the same sum of absolute values. -/
def magnitude (ops : Operands) (shape : Shape) (i j : Nat) : Double :=
  (List.range shape.n).foldl (fun sum p => sum + (ops.term shape i j p).abs)
    (wideAt ops.y (i * shape.k + j)).abs

/-- The element of the reference with index `i`, in row order, and its magnitude. -/
def cellAt (ops : Operands) (shape : Shape) (i : Nat) : Double × Double :=
  (ops.expected shape (i / shape.k) (i % shape.k), ops.magnitude shape (i / shape.k) (i % shape.k))

theorem wide_eq {values : Array Single} {i : Nat} (h : i < values.size) :
    wide values i = .ok (wideAt values i) := by
  rw [wide, wideAt, Array.getElem?_eq_getElem h, Array.getD_eq_getD_getElem?,
    Array.getElem?_eq_getElem h, Option.getD_some]

theorem contract_eq (hops : ops.Supplies shape) {i j : Nat} (hi : i < shape.m) (hj : j < shape.k)
    {count p : Nat} (hcount : p + count = shape.n) (sum magnitude : Double) :
    ops.contract shape i j count p sum magnitude = .ok
      ((List.range' p count).foldl (fun sum p => sum + ops.term shape i j p) sum,
        (List.range' p count).foldl (fun sum p => sum + (ops.term shape i j p).abs) magnitude) := by
  induction count generalizing p sum magnitude with
  | zero => rfl
  | succ count ih =>
    have hp : p < shape.n := by omega
    have hx := wide_eq (Nat.lt_of_lt_of_le (rowMajor_lt hi hp) hops.x)
    have hw := wide_eq (Nat.lt_of_lt_of_le (rowMajor_lt hp hj) hops.w)
    rw [contract, hx, ok_bind, hw, ok_bind, ih (by omega)]
    rfl

theorem cell_eq (hops : ops.Supplies shape) {i j : Nat} (hi : i < shape.m) (hj : j < shape.k) :
    ops.cell shape i j = .ok (ops.expected shape i j, ops.magnitude shape i j) := by
  have hy := wide_eq (Nat.lt_of_lt_of_le (rowMajor_lt hi hj) hops.y)
  rw [cell, hy, ok_bind, contract_eq hops hi hj (Nat.zero_add _), ← List.range_eq_range']
  rfl

theorem cellsFrom_eq (hops : ops.Supplies shape) {count i : Nat}
    (hcount : i + count = shape.m * shape.k) (cells : Array (Double × Double)) :
    ops.cellsFrom shape count i cells =
      .ok (cells ++ ((List.range' i count).map (ops.cellAt shape)).toArray) := by
  induction count generalizing i cells with
  | zero => rw [cellsFrom, List.range'_zero, List.map_nil, Array.append_empty]
  | succ count ih =>
    have hlt : i < shape.m * shape.k := by omega
    have hk : 0 < shape.k := Nat.pos_of_mul_pos_left (Nat.zero_lt_of_lt hlt)
    have hrow : i / shape.k < shape.m := (Nat.div_lt_iff_lt_mul hk).mpr hlt
    rw [cellsFrom, cell_eq hops hrow (Nat.mod_lt i hk), ok_bind, ih (by omega), List.range'_succ,
      List.map_cons]
    congr 1
    apply Array.ext'
    simp only [Array.toList_append, Array.toList_push, List.append_assoc, List.singleton_append]
    rfl

/-- **The reference is `Y + X * W`**, row by row, if there is room for it. -/
theorem reference_eq (hops : ops.Supplies shape)
    (hroom : 8 * (shape.m * shape.k) < Word.halfLimit) :
    ops.reference shape = .ok ((List.range (shape.m * shape.k)).map (ops.cellAt shape)) := by
  have hwords : Word.halfLimit < Word.limit := by decide
  rw [reference, Word.mul_of_lt (by omega), ok_bind, Word.capacity_of_lt hroom, ok_bind,
    cellsFrom_eq hops (Nat.zero_add _), ok_bind, List.range_eq_range']
  simp

/-- Without room there is no reference. -/
theorem reference_overflow (hroom : Word.halfLimit ≤ 8 * (shape.m * shape.k)) :
    ops.reference shape = .error .overflow := by
  unfold reference Word.mul
  by_cases hmul : shape.m * shape.k < Word.limit
  · rw [Word.below_of_lt hmul, ok_bind, Word.capacity, Word.below, if_neg (Nat.not_lt_of_le hroom)]
    rfl
  · rw [Word.below, if_neg hmul]
    rfl

/-! ## Comparing -/

/-- The error of an element against the reference. -/
def deviation (got : Single) (expected : Double) : Double :=
  (got.convert .double - expected).abs

/-- Whether an element passes: it is no NaN, and its error is not larger than tolerated. -/
structure Passes (e : Element) (n : Nat) (got : Single) (expected magnitude : Double) : Prop where
  number : got.isNaN = false
  within : (e.tolerance n magnitude).lt (deviation got expected) = false

/-- Whether an element is close to the reference: it is no NaN, and its error is at most
what is tolerated. -/
structure Close (e : Element) (n : Nat) (got : Single) (expected magnitude : Double) : Prop where
  number : got.isNaN = false
  atMost : (deviation got expected).AtMost (e.tolerance n magnitude)

theorem isNaN_deviation_iff {got : Single} {expected : Double} (hgot : got.isNaN = false) :
    (deviation got expected).isNaN = true ↔
      expected.isNaN = true ∨ ∃ s, got.datum = .infinite s ∧ expected.datum = .infinite s := by
  have hembeds := BinaryFormat.single_embeds_double
  have hwide := Binary.isNaN_convert_of_number hgot .double
  rw [deviation, Binary.isNaN_abs, Binary.isNaN_sub_iff (by decide), hwide]
  simp only [Bool.false_eq_true, false_or, Binary.datum_convert_infinite_iff hembeds hgot]

/-- **What passes is close**, except where the error is no number. -/
theorem passes_iff {n : Nat} (hn : n < Word.limit) (got : Single) (expected magnitude : Double) :
    Passes e n got expected magnitude ↔ got.isNaN = false ∧
      (Close e n got expected magnitude ∨ expected.isNaN = true ∨
        ∃ s, got.datum = .infinite s ∧ expected.datum = .infinite s) := by
  constructor
  · intro h
    refine ⟨h.number, ?_⟩
    cases hnan : (deviation got expected).isNaN with
    | true => exact .inr ((isNaN_deviation_iff h.number).mp hnan)
    | false => exact .inl ⟨h.number, hnan, e.isNaN_tolerance hn magnitude, h.within⟩
  · rintro ⟨hnumber, hclose | hunordered⟩
    · exact ⟨hnumber, hclose.atMost.2.2⟩
    · exact ⟨hnumber, Binary.lt_of_isNaN_right ((isNaN_deviation_iff hnumber).mpr hunordered)⟩

/-- Whether the first `count` elements pass, as far as both lists go. -/
def FirstPass (e : Element) (n : Nat) (z : List Single) (reference : List (Double × Double))
    (count : Nat) : Prop :=
  ∀ l < count, ∀ (got : Single) (c : Double × Double),
    z[l]? = some got → reference[l]? = some c → Passes e n got c.1 c.2

/-- The outcome of comparing lists, whose first elements have index `i`. -/
inductive Compared (shape : Shape) (e : Element) (i : Nat) (z : List Single)
    (reference : List (Double × Double)) : Except Mismatch Double → Prop where
  | passed (worst : Double) (all : ∀ count, FirstPass e shape.n z reference count) :
    Compared shape e i z reference (.ok worst)
  | failed (l : Nat) (got : Single) (c : Double × Double) (hgot : z[l]? = some got)
      (hc : reference[l]? = some c) (fails : ¬ Passes e shape.n got c.1 c.2)
      (first : FirstPass e shape.n z reference l) :
    Compared shape e i z reference (.error ⟨(i + l) / shape.k, (i + l) % shape.k, got, c.1,
      e.tolerance shape.n c.2⟩)

theorem firstPass_succ {n count : Nat} {got : Single} {c : Double × Double} {z : List Single}
    {reference : List (Double × Double)} (hpass : Passes e n got c.1 c.2)
    (h : FirstPass e n z reference count) :
    FirstPass e n (got :: z) (c :: reference) (count + 1) := by
  intro l hl got' c' hgot hc
  cases l with
  | zero =>
    cases hgot
    cases hc
    exact hpass
  | succ l => exact h l (Nat.lt_of_succ_lt_succ hl) got' c' hgot hc

/-- One element is compared before the others. -/
theorem compare_cons (shape : Shape) (e : Element) (i : Nat) (worst : Double) (got : Single)
    (z : List Single) (c : Double × Double) (reference : List (Double × Double)) :
    compare shape e i worst (got :: z) (c :: reference) =
      if (e.tolerance shape.n c.2).lt (deviation got c.1) || got.isNaN then
        .error ⟨i / shape.k, i % shape.k, got, c.1, e.tolerance shape.n c.2⟩
      else compare shape e (i + 1) (worst.max (deviation got c.1)) z reference := rfl

/-- Comparing comes to the end of a list, or to the first element that does not pass. -/
theorem compared_compare (shape : Shape) (e : Element) (i : Nat) (worst : Double)
    (z : List Single) (reference : List (Double × Double)) :
    Compared shape e i z reference (compare shape e i worst z reference) := by
  induction z generalizing i worst reference with
  | nil => exact .passed worst fun count l _ got c hgot => by cases hgot
  | cons got z ih =>
    cases reference with
    | nil => exact .passed worst fun count l _ got c _ hc => by cases hc
    | cons c reference =>
      rw [compare_cons]
      by_cases hpass : Passes e shape.n got c.1 c.2
      · rw [hpass.within, hpass.number, Bool.or_self, if_neg Bool.false_ne_true]
        generalize hrest : compare shape e (i + 1) (worst.max (deviation got c.1)) z reference = r
        have hcompared := ih (i + 1) (worst.max (deviation got c.1)) reference
        rw [hrest] at hcompared
        cases hcompared with
        | passed worst' all =>
          refine .passed worst' fun count => ?_
          cases count with
          | zero => exact fun l hl => absurd hl (Nat.not_lt_zero l)
          | succ count => exact firstPass_succ hpass (all count)
        | failed l got' c' hgot hc fails first =>
          have hindex : i + 1 + l = i + (l + 1) := by omega
          rw [hindex]
          exact .failed (l + 1) got' c' hgot hc fails (firstPass_succ hpass first)
      · have hrefused : ((e.tolerance shape.n c.2).lt (deviation got c.1) || got.isNaN) = true := by
          rw [Bool.or_eq_true]
          by_cases hnumber : got.isNaN = true
          · exact .inr hnumber
          · refine .inl ?_
            rw [← Bool.not_eq_false]
            exact fun hwithin => hpass ⟨Bool.eq_false_iff.mpr hnumber, hwithin⟩
        rw [if_pos hrefused]
        exact .failed 0 got c rfl rfl hpass fun l hl => absurd hl (Nat.not_lt_zero l)

/-! ## Checking -/

/-- Whether the element with index `i`, in row order, passes. -/
def PassesAt (ops : Operands) (shape : Shape) (e : Element) (i : Nat) (got : Single) : Prop :=
  Passes e shape.n got (ops.expected shape (i / shape.k) (i % shape.k))
    (ops.magnitude shape (i / shape.k) (i % shape.k))

/-- The outcome of checking a result: there is no room for the reference, or all elements
pass that result and reference have in common, or the first one is named that does not. -/
inductive Graded (ops : Operands) (shape : Shape) (e : Element) (z : List Single) :
    Outcome Mismatch Double → Prop where
  | roomless (room : Word.halfLimit ≤ 8 * (shape.m * shape.k)) :
    Graded ops shape e z (.error (.trap .overflow))
  | accepted (worst : Double)
      (all : ∀ i got, i < shape.m * shape.k → z[i]? = some got → ops.PassesAt shape e i got) :
    Graded ops shape e z (.ok worst)
  | refused (i : Nat) (got : Single) (inside : i < shape.m * shape.k) (hgot : z[i]? = some got)
      (fails : ¬ ops.PassesAt shape e i got)
      (first : ∀ l got, l < i → z[l]? = some got → ops.PassesAt shape e l got) :
    Graded ops shape e z (.error (.error ⟨i / shape.k, i % shape.k, got,
      ops.expected shape (i / shape.k) (i % shape.k),
      e.tolerance shape.n (ops.magnitude shape (i / shape.k) (i % shape.k))⟩))

/-- **A check accepts what passes.** With all operands of a problem it names the first
element, in row order, that does not pass, and accepts the result if all do that it and the
reference have in common. An element that passes is close to the reference, except where the
reference is a NaN or where both are the same infinity. -/
theorem check_graded (hops : ops.Supplies shape) (e : Element) (z : List Single) :
    Graded ops shape e z (ops.check shape e z) ∧
    ∀ got expected magnitude, Passes e shape.n got expected magnitude ↔ got.isNaN = false ∧
      (Close e shape.n got expected magnitude ∨ expected.isNaN = true ∨
        ∃ s, got.datum = .infinite s ∧ expected.datum = .infinite s) := by
  refine ⟨?_, passes_iff hops.depth_lt⟩
  by_cases hroom : 8 * (shape.m * shape.k) < Word.halfLimit
  · have hreference : ∀ {i : Nat}, i < shape.m * shape.k →
        ((List.range (shape.m * shape.k)).map (ops.cellAt shape))[i]? =
          some (ops.cellAt shape i) := by
      intro i hi
      rw [List.getElem?_map, List.getElem?_range hi, Option.map_some]
    have hcompared := compared_compare shape e 0 (.zero .double) z
      ((List.range (shape.m * shape.k)).map (ops.cellAt shape))
    rw [check, reference_eq hops hroom, liftM_ok, ok_bind]
    generalize compare shape e 0 (.zero .double) z _ = r at hcompared ⊢
    cases hcompared with
    | passed worst all =>
      exact .accepted worst fun i got hi hgot =>
        all (i + 1) i (Nat.lt_succ_self i) got _ hgot (hreference hi)
    | failed l got c hgot hc fails first =>
      have hl : l < shape.m * shape.k := by
        have hlength := (List.getElem?_eq_some_iff.mp hc).1
        rwa [List.length_map, List.length_range] at hlength
      rw [hreference hl] at hc
      cases hc
      rw [Nat.zero_add]
      exact .refused l got hl hgot fails fun i got hi hgot =>
        first i hi got _ hgot (hreference (Nat.lt_trans hi hl))
  · have hle := Nat.le_of_not_lt hroom
    rw [check, reference_overflow hle]
    exact .roomless hle

/-- Two sums of one and one. -/
def ones : Operands where
  x := #[.ofBits .single 0x3F800000, .ofBits .single 0x3F800000]
  w := #[.ofBits .single 0x3F800000]
  y := #[.ofBits .single 0x3F800000, .ofBits .single 0x3F800000]

/-- The first element is off by just what is tolerated, the second one by twice as much. -/
theorem check_graded_ones : ones.Supplies ⟨2, 1, 1⟩ ∧
    Graded ones ⟨2, 1, 1⟩ .fp32 [.ofBits .single 0x40000001, .ofBits .single 0x40000002]
      (.error (.error ⟨1, 0, .ofBits .single 0x40000002, .ofNat .double 2,
        .ofBits .double 0x3E90000000000000⟩)) := by
  have hops : ones.Supplies ⟨2, 1, 1⟩ := ⟨by decide, by decide, by decide, by decide⟩
  have hcheck : ones.check ⟨2, 1, 1⟩ .fp32
      [.ofBits .single 0x40000001, .ofBits .single 0x40000002] =
        .error (.error ⟨1, 0, .ofBits .single 0x40000002, .ofNat .double 2,
          .ofBits .double 0x3E90000000000000⟩) := rfl
  have hgraded := (check_graded hops .fp32
    [.ofBits .single 0x40000001, .ofBits .single 0x40000002]).1
  rw [hcheck] at hgraded
  exact ⟨hops, hgraded⟩

/-- An infinity times zero, and one. -/
def boundless : Operands where
  x := #[.ofBits .single 0x7F800000]
  w := #[.ofBits .single 0]
  y := #[.ofBits .single 0x3F800000]

/-- **Beside a NaN any number is accepted.** Here the reference is a NaN: five is accepted
in its place, with an error of zero, and the NaN itself is refused. A result without any
element is accepted as well. -/
theorem check_boundless : boundless.Supplies ⟨1, 1, 1⟩ ∧
    (boundless.expected ⟨1, 1, 1⟩ 0 0).isNaN = true ∧
    boundless.check ⟨1, 1, 1⟩ .fp32 [.ofBits .single 0x40A00000] = .ok (.zero .double) ∧
    ¬ Close .fp32 1 (.ofBits .single 0x40A00000) (boundless.expected ⟨1, 1, 1⟩ 0 0)
      (boundless.magnitude ⟨1, 1, 1⟩ 0 0) ∧
    boundless.check ⟨1, 1, 1⟩ .fp32 [.ofBits .single 0x7FC00000] =
      .error (.error ⟨0, 0, .ofBits .single 0x7FC00000, boundless.expected ⟨1, 1, 1⟩ 0 0,
        .ofBits .double 0x3E80000000000000⟩) ∧
    boundless.check ⟨1, 1, 1⟩ .fp32 [] = .ok (.zero .double) := by
  have hfar : ¬ Close .fp32 1 (.ofBits .single 0x40A00000) (boundless.expected ⟨1, 1, 1⟩ 0 0)
      (boundless.magnitude ⟨1, 1, 1⟩ 0 0) := by
    intro h
    have hnumber := h.atMost.1
    revert hnumber
    decide
  exact ⟨⟨by decide, by decide, by decide, by decide⟩, by decide, rfl, hfar, rfl, rfl⟩

end Operands

end SystolicGemm
