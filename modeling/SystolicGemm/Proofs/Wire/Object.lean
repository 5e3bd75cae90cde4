import SystolicGemm.Wire.Text

/-!
# Objects keep their meaning as text

An object that `Wire.object` writes is read back by `Tree.ofText`. The reader goes
from left to right, so each part of the text is read whatever comes after it, as long
as that is a comma or a closing brace. It goes down into the values of an object with
fuel, and how far that has to be is a matter of the values.
-/

namespace SystolicGemm

namespace Wire.Tree

/-- A character that stands for itself inside quotes. -/
def Plain (c : Char) : Prop := c ≠ '"' ∧ c ≠ '\\' ∧ 0x20 ≤ c.toNat

instance (c : Char) : Decidable (Plain c) := inferInstanceAs (Decidable (_ ∧ _))

theorem plain_of_all {name : List Char} (h : name.all (fun c => decide (Plain c)) = true) :
    ∀ c ∈ name, Plain c := fun c hc => of_decide_eq_true (List.all_eq_true.mp h c hc)

/-! ## Names -/

theorem readName_plain {name : List Char} (h : ∀ c ∈ name, Plain c) (rest : List Char)
    {fuel : Nat} (hfuel : name.length < fuel) :
    readName fuel (name ++ '"' :: rest) = some (name, rest) := by
  induction name generalizing fuel with
  | nil =>
    obtain ⟨fuel, rfl⟩ := Nat.exists_eq_add_one.mpr hfuel
    rfl
  | cons c name ih =>
    obtain ⟨fuel, rfl⟩ := Nat.exists_eq_add_one.mpr (Nat.zero_lt_of_lt hfuel)
    obtain ⟨hquote, hslash, hcontrol⟩ := h c List.mem_cons_self
    have hrest := ih (fun d hd => h d (List.mem_cons_of_mem _ hd)) (Nat.lt_of_succ_lt_succ hfuel)
    simp only [List.cons_append, readName, beq_iff_eq, hquote, hslash, if_false,
      Nat.not_lt.mpr hcontrol, hrest]
    rfl

theorem skipString_plain {name : List Char} (h : ∀ c ∈ name, Plain c) (rest : List Char)
    {fuel : Nat} (hfuel : name.length < fuel) :
    skipString fuel (name ++ '"' :: rest) = some rest := by
  induction name generalizing fuel with
  | nil =>
    obtain ⟨fuel, rfl⟩ := Nat.exists_eq_add_one.mpr hfuel
    rfl
  | cons c name ih =>
    obtain ⟨fuel, rfl⟩ := Nat.exists_eq_add_one.mpr (Nat.zero_lt_of_lt hfuel)
    obtain ⟨hquote, hslash, hcontrol⟩ := h c List.mem_cons_self
    have hrest := ih (fun d hd => h d (List.mem_cons_of_mem _ hd)) (Nat.lt_of_succ_lt_succ hfuel)
    simp only [List.cons_append, skipString, beq_iff_eq, hquote, hslash, if_false,
      Nat.not_lt.mpr hcontrol, hrest]

/-! ## Values -/

/-- What may follow a value in an object. -/
def Closes (c : Char) : Prop := c = ',' ∨ c = '}'

/-- Whether a text in an object stands for a tree that a reader with more than `n`
fuel can read. -/
def DenotesWithin (n : Nat) (text : List Char) (t : Tree) : Prop :=
  ∀ {fuel c} (rest : List Char), n < fuel → Closes c →
    readValue fuel (text ++ c :: rest) = some (t, c :: rest)

theorem DenotesWithin.mono {n m : Nat} {text : List Char} {t : Tree} (h : DenotesWithin n text t)
    (hle : n ≤ m) : DenotesWithin m text t := fun rest hfuel => h rest (by omega)

theorem denotes_bool (b : Bool) : DenotesWithin 0 (Wire.bool b).toList (.bool b) := by
  intro fuel c rest hfuel _
  obtain ⟨fuel, rfl⟩ := Nat.exists_eq_add_one.mpr hfuel
  cases b <;> rfl

/-- Only zero has a zero in front. -/
theorem head?_toDigits {n : Nat} (h : 0 < n) : (Nat.toDigits 10 n).head? ≠ some '0' := by
  induction n using Nat.strongRecOn with
  | ind n ih =>
    rcases Nat.lt_or_ge n 10 with hlt | hge
    · rw [Nat.toDigits_of_lt_base hlt, List.head?_cons, ne_eq, Option.some.injEq]
      exact (by decide : ∀ d < 10, 0 < d → d.digitChar ≠ '0') n hlt h
    · obtain ⟨d, ds, hds⟩ :=
        List.exists_cons_of_ne_nil (Nat.toDigits_ne_nil (n := n / 10) (b := 10))
      have hhead := ih (n / 10) (by omega) (by omega)
      rw [hds] at hhead
      rw [Nat.toDigits_eq_if (by decide), if_neg (Nat.not_lt.mpr hge), hds]
      exact hhead

theorem isDigit_toDigits {n : Nat} {c : Char} (h : c ∈ Nat.toDigits 10 n) : c.isDigit = true :=
  Nat.isDigit_of_mem_toDigits (by decide) (by decide) h

/-- Digits end where something else begins. -/
theorem digits?_append {ds : List Char} (hne : ds ≠ []) (hds : ∀ d ∈ ds, d.isDigit = true)
    {c : Char} (hc : c.isDigit = false) (rest : List Char) :
    digits? (ds ++ c :: rest) = some (ds, c :: rest) := by
  have htake : (ds ++ c :: rest).takeWhile Char.isDigit = ds := by
    rw [List.takeWhile_append_of_pos hds, List.takeWhile_cons, hc]
    simp
  have hdrop : (ds ++ c :: rest).dropWhile Char.isDigit = c :: rest := by
    rw [List.dropWhile_append_of_pos hds, List.dropWhile_cons, hc]
    simp
  simp only [digits?, htake, hdrop, hne, if_false]

theorem readNumber_toDigits (n : Nat) {c : Char} (hc : Closes c) (rest : List Char) :
    readNumber (Nat.toDigits 10 n ++ c :: rest) = some (.natural n, c :: rest) := by
  obtain ⟨d, ds, hds⟩ := List.exists_cons_of_ne_nil (Nat.toDigits_ne_nil (n := n) (b := 10))
  have hdigit : ∀ e ∈ d :: ds, e.isDigit = true := fun e he => isDigit_toDigits (hds ▸ he)
  have hminus : d ≠ '-' := fun h => by
    have hd := hdigit d List.mem_cons_self
    rw [h] at hd
    exact absurd hd (by decide)
  have hc' : c.isDigit = false := by rcases hc with rfl | rfl <;> decide
  have hfraction : skipFraction (c :: rest) = some (false, c :: rest) := by
    rcases hc with rfl | rfl <;> rfl
  -- a second digit means that the first is not zero
  have hlead : ((d :: ds).head? = some '0' && (d :: ds).length > 1) = false := by
    rcases Nat.eq_zero_or_pos n with rfl | hpos
    · have hzero : d :: ds = ['0'] := hds ▸ rfl
      rw [hzero]
      rfl
    · have hhead := head?_toDigits hpos
      rw [hds, List.head?_cons] at hhead
      rw [List.head?_cons, decide_eq_false hhead, Bool.false_and]
  have hvalue : (d :: ds).foldl (fun n d => 10 * n + (d.toNat - '0'.toNat)) 0 = n := by
    rw [← hds]
    exact Nat.ofDigitChars_toDigits (by decide) (by decide)
  have hread := digits?_append (List.cons_ne_nil d ds) hdigit hc' rest
  rw [hds]
  rw [List.cons_append] at hread ⊢
  rw [readNumber]
  · simp only [hread, Option.bind_eq_bind, Option.bind_some, hlead, hfraction, hvalue]
    rfl
  · intro cs h
    injection h with h
    exact hminus h

theorem denotes_natural (n : Nat) : DenotesWithin 0 (Nat.toDigits 10 n) (.natural n) := by
  intro fuel c rest hfuel hc
  obtain ⟨fuel, rfl⟩ := Nat.exists_eq_add_one.mpr hfuel
  have hread := readNumber_toDigits n hc rest
  obtain ⟨d, ds, hds⟩ := List.exists_cons_of_ne_nil (Nat.toDigits_ne_nil (n := n) (b := 10))
  have hdigit : d.isDigit = true := isDigit_toDigits (hds ▸ List.mem_cons_self)
  -- a digit is no blank and begins no other value
  have hother : ∀ e : Char, e.isDigit = false → d ≠ e := fun e he h => by
    rw [h, he] at hdigit
    cases hdigit
  have hskip : skipBlanks (d :: (ds ++ c :: rest)) = d :: (ds ++ c :: rest) := by
    have hblank : isBlank d = false := by
      simp [isBlank, hother ' ' rfl, hother '\t' rfl, hother '\n' rfl, hother '\r' rfl]
    rw [skipBlanks, List.dropWhile_cons, hblank]
    rfl
  rw [hds, List.cons_append] at hread ⊢
  rw [readValue, hskip]
  split
  · next h => exact absurd (List.cons.inj h).1 (hother _ rfl)
  · next h => exact absurd (List.cons.inj h).1 (hother _ rfl)
  · next h => exact absurd (List.cons.inj h).1 (hother _ rfl)
  · next h => exact absurd (List.cons.inj h).1 (hother _ rfl)
  · next h => exact absurd (List.cons.inj h).1 (hother _ rfl)
  · next h => exact absurd (List.cons.inj h).1 (hother _ rfl)
  · exact hread

/-! ## Members -/

/-- The text of a member of an object. -/
def member (name text : List Char) : List Char := '"' :: (name ++ '"' :: ':' :: text)

variable {name text : List Char} {t : Tree}

/-- The member that a text begins with, once its value can be read, and what comes
after it. -/
theorem readMembers_value (hname : ∀ c ∈ name, Plain c) {fuel : Nat} {c : Char} {rest : List Char}
    (hvalue : readValue fuel (text ++ c :: rest) = some (t, c :: rest)) (hc : Closes c) :
    readMembers (fuel + 1) (member name text ++ c :: rest) =
      if c = ',' then
        (readMembers fuel rest).map fun (members, rest) =>
          ((some (String.ofList name), t) :: members, rest)
      else some ([(some (String.ofList name), t)], rest) := by
  have hlt : ∀ l : List Char, name.length < (name ++ '"' :: l).length.succ := fun l => by
    rw [List.length_append]
    omega
  have hread := fun l => readName_plain hname l (hlt l)
  have hskip := fun l => skipString_plain hname l (hlt l)
  have hmember : member name text ++ c :: rest =
      '"' :: (name ++ '"' :: ':' :: (text ++ c :: rest)) := by
    simp [member]
  have hquote : ∀ l, skipBlanks ('"' :: l) = '"' :: l := fun _ => rfl
  have hcolon : ∀ l, skipBlanks (':' :: l) = ':' :: l := fun _ => rfl
  rw [hmember, readMembers, hquote]
  simp only [hread, hskip, Option.map_some, Option.bind_eq_bind, Option.bind_some, hcolon, hvalue]
  rcases hc with rfl | rfl
  · have hcomma : skipBlanks (',' :: rest) = ',' :: rest := rfl
    rw [hcomma, if_pos rfl]
    show (readMembers fuel rest).bind _ = _
    cases readMembers fuel rest <;> rfl
  · rfl

/-! ## Objects -/

/-- A member of an object, as text and as tree. -/
structure Field where
  name : String
  text : String
  tree : Tree

/-- Whether a field is written plainly, and within what fuel its value is read. -/
structure Field.Spelled (n : Nat) (m : Field) : Prop where
  plain : ∀ c ∈ m.name.toList, Plain c
  value : DenotesWithin n m.text.toList m.tree

/-- The text of a field. -/
def Field.spelling (m : Field) : List Char := member m.name.toList m.text.toList

/-- The object of the fields. -/
def objectOf (ms : List Field) : Tree := .object (ms.map fun m => (some m.name, m.tree))

theorem escape_plain {c : Char} (h : Plain c) : escape c = [c] := by
  obtain ⟨hquote, hslash, hcontrol⟩ := h
  have hne : ∀ d : Char, d.toNat < 0x20 → c ≠ d := by
    rintro d hd rfl
    omega
  have hlt : ¬ c.toNat < 0x20 := Nat.not_lt.mpr hcontrol
  simp [escape, hquote, hslash, hne '\x08' (by decide), hne '\x0c' (by decide),
    hne '\n' (by decide), hne '\r' (by decide), hne '\t' (by decide), hlt]

theorem toList_quote {s : String} (h : ∀ c ∈ s.toList, Plain c) :
    (quote s).toList = '"' :: (s.toList ++ ['"']) := by
  have hflat : ∀ cs : List Char, (∀ c ∈ cs, Plain c) → cs.flatMap escape = cs := by
    intro cs hcs
    induction cs with
    | nil => rfl
    | cons c cs ih =>
      rw [List.flatMap_cons, escape_plain (hcs c List.mem_cons_self),
        ih fun d hd => hcs d (List.mem_cons_of_mem _ hd)]
      rfl
  rw [quote, String.toList_ofList, hflat _ h]

/-- The text of an object of fields. -/
theorem toList_object {n : Nat} {ms : List Field} (hms : ∀ m ∈ ms, m.Spelled n) :
    (Wire.object (ms.map fun m => (m.name, m.text))).toList =
      '\x7b' :: (List.intercalate [','] (ms.map Field.spelling) ++ ['\x7d']) := by
  have hobject : Wire.object (ms.map fun m => (m.name, m.text)) =
      "\x7b" ++ String.intercalate "," (ms.map fun m => quote m.name ++ ":" ++ m.text) ++
        "\x7d" := by
    rw [Wire.object, List.map_map]
    rfl
  have hfields : (ms.map fun m => quote m.name ++ ":" ++ m.text).map String.toList =
      ms.map Field.spelling := by
    rw [List.map_map]
    refine List.map_congr_left fun m hm => ?_
    show (quote m.name ++ ":" ++ m.text).toList = _
    rw [String.toList_append, String.toList_append, toList_quote (hms m hm).plain]
    show _ = member _ _
    simp [member]
  rw [hobject, String.toList_append, String.toList_append, String.toList_intercalate, hfields]
  rfl

/-- **The members of an object are read one by one.** -/
theorem readMembers_fields {n : Nat} {ms : List Field} (hms : ∀ m ∈ ms, m.Spelled n)
    (hne : ms ≠ []) {fuel : Nat} (hfuel : n + ms.length < fuel) (rest : List Char) :
    readMembers fuel (List.intercalate [','] (ms.map Field.spelling) ++ '\x7d' :: rest) =
      some (ms.map fun m => (some m.name, m.tree), rest) := by
  induction ms generalizing fuel with
  | nil => exact absurd rfl hne
  | cons m ms ih =>
    obtain ⟨fuel, rfl⟩ := Nat.exists_eq_add_one.mpr (Nat.zero_lt_of_lt hfuel)
    have hm := hms m List.mem_cons_self
    rw [List.length_cons] at hfuel
    cases ms with
    | nil =>
      have hvalue := hm.value rest (by omega : n < fuel) (.inr rfl)
      rw [List.map_singleton, List.intercalate_singleton]
      have hread := readMembers_value hm.plain hvalue (.inr rfl)
      rw [Field.spelling, hread]
      simp
    | cons m' ms =>
      have hrest := ih (fun x hx => hms x (List.mem_cons_of_mem _ hx)) (List.cons_ne_nil _ _)
        (by omega : n + (m' :: ms).length < fuel)
      rw [List.map_cons, List.map_cons, List.intercalate_cons_cons, ← List.map_cons]
      have hvalue := hm.value (List.intercalate [','] ((m' :: ms).map Field.spelling) ++
        '\x7d' :: rest) (by omega : n < fuel) (.inl rfl)
      have hread := readMembers_value hm.plain hvalue (.inl rfl)
      rw [Field.spelling, List.append_assoc, List.append_assoc]
      simp only [List.singleton_append]
      rw [hread, hrest]
      simp

/-- **An object of fields is read**, whatever comes after it. -/
theorem readValue_object {n : Nat} {ms : List Field} (hms : ∀ m ∈ ms, m.Spelled n) (hne : ms ≠ [])
    {fuel : Nat} (hfuel : n + ms.length + 1 < fuel) (rest : List Char) :
    readValue fuel ((Wire.object (ms.map fun m => (m.name, m.text))).toList ++ rest) =
      some (objectOf ms, rest) := by
  obtain ⟨fuel, rfl⟩ := Nat.exists_eq_add_one.mpr (Nat.zero_lt_of_lt hfuel)
  have hread := readMembers_fields hms hne (by omega : n + ms.length < fuel) rest
  -- a member begins with a quote, so what comes after the brace is not its end
  obtain ⟨l, hl⟩ : ∃ l, List.intercalate [','] (ms.map Field.spelling) ++ '\x7d' :: rest =
      '"' :: l := by
    obtain ⟨m, ms, rfl⟩ := List.exists_cons_of_ne_nil hne
    cases ms with
    | nil => exact ⟨_, by rw [List.map_singleton, List.intercalate_singleton]; rfl⟩
    | cons m' ms =>
      exact ⟨_, by rw [List.map_cons, List.map_cons, List.intercalate_cons_cons]; rfl⟩
  have htext : (Wire.object (ms.map fun m => (m.name, m.text))).toList ++ rest =
      '\x7b' :: '"' :: l := by
    rw [toList_object hms, ← hl]
    simp
  rw [hl] at hread
  have hvalue : readValue (fuel + 1) ('\x7b' :: '"' :: l) =
      (readMembers fuel ('"' :: l)).bind fun (members, rest) => some (.object members, rest) := rfl
  rw [htext, hvalue, hread]
  rfl

/-- An object that is the value of a field. -/
theorem denotes_object {n : Nat} {ms : List Field} (hms : ∀ m ∈ ms, m.Spelled n) (hne : ms ≠ []) :
    DenotesWithin (n + ms.length + 1)
      (Wire.object (ms.map fun m => (m.name, m.text))).toList (objectOf ms) :=
  fun rest hfuel _ => readValue_object hms hne hfuel (_ :: rest)

/-- Every field takes its quotes and its colon. -/
theorem length_spellings (ms : List Field) :
    3 * ms.length ≤ (List.intercalate [','] (ms.map Field.spelling)).length := by
  have hfield : ∀ m : Field, 3 ≤ m.spelling.length := by
    intro m
    simp only [Field.spelling, member, List.length_cons, List.length_append]
    omega
  induction ms with
  | nil => exact Nat.zero_le _
  | cons m ms ih =>
    have hm := hfield m
    cases ms with
    | nil =>
      rw [List.map_singleton, List.intercalate_singleton]
      exact hm
    | cons m' ms =>
      rw [List.map_cons] at ih
      rw [List.map_cons, List.map_cons, List.intercalate_cons_cons, List.length_append,
        List.length_append]
      simp only [List.length_cons] at ih ⊢
      omega

/-- **An object that is the whole text is read back**, if its fields do not go down
too far. -/
theorem ofText_object {n : Nat} {ms : List Field} (hms : ∀ m ∈ ms, m.Spelled n) (hne : ms ≠ [])
    (hn : n ≤ 5 * ms.length) :
    Tree.ofText (Wire.object (ms.map fun m => (m.name, m.text))) = some (objectOf ms) := by
  have hlength := length_spellings ms
  have hfuel : n + ms.length + 1 <
      2 * (Wire.object (ms.map fun m => (m.name, m.text))).toList.length + 2 := by
    rw [toList_object hms]
    simp only [List.length_cons, List.length_append]
    omega
  have hread := readValue_object hms hne hfuel []
  rw [List.append_nil] at hread
  rw [Tree.ofText]
  simp only [hread]
  rfl

/-! ## Fields of single values -/

/-- The field of a count. -/
def Field.count (name : String) (n : Nat) : Field := ⟨name, toString n, .natural n⟩

theorem Field.spelled_count {name : String} (h : ∀ c ∈ name.toList, Plain c) (n : Nat) :
    (Field.count name n).Spelled 0 := by
  refine ⟨h, ?_⟩
  have hdigits : (toString n).toList = Nat.toDigits 10 n := String.toList_ofList
  show DenotesWithin 0 (toString n).toList (.natural n)
  rw [hdigits]
  exact denotes_natural n

/-- The field of a truth value. -/
def Field.flag (name : String) (b : Bool) : Field := ⟨name, Wire.bool b, .bool b⟩

theorem Field.spelled_flag {name : String} (h : ∀ c ∈ name.toList, Plain c) (b : Bool) :
    (Field.flag name b).Spelled 0 := ⟨h, denotes_bool b⟩

end Wire.Tree

end SystolicGemm
