import Classpath.Proofs.Path
import Classpath.Text.Blank
import Mathlib.Data.List.Forall2
import Mathlib.Data.List.TakeWhile

/-! # Texts that differ in a number

Two texts may differ in numbers only: where one has a number, the other has a number of as many
digits (`Classpath.Text.Renumbered`). What cuts a text does not tell digits apart, so the parts of
such texts differ in numbers only, too (`Classpath.Text.Renumbered.takeWhile`,
`Classpath.Text.Renumbered.splitOn`). The numbers are long, and so parts that are short are the same
(`Classpath.Text.Renumbered.eq_or_long`).
-/

namespace Classpath.Text

/-- The digits of a decimal number. -/
def decimals : List Char :=
  ['0', '1', '2', '3', '4', '5', '6', '7', '8', '9']

/-- Two numbers of as many digits, which are more than any part of an address has. -/
structure Numbers (digits digits' : List Char) : Prop where
  left : ∀ c ∈ digits, c ∈ decimals
  right : ∀ c ∈ digits', c ∈ decimals
  same : digits.length = digits'.length
  long : 4 < digits.length

/-- Characters that are the same but for numbers. -/
inductive Renumbered : List Char → List Char → Prop
  | nil : Renumbered [] []
  | keep (c : Char) {cs cs' : List Char} (rest : Renumbered cs cs') :
    Renumbered (c :: cs) (c :: cs')
  | number {digits digits' cs cs' : List Char} (numbers : Numbers digits digits')
    (rest : Renumbered cs cs') : Renumbered (digits ++ cs) (digits' ++ cs')

/-- A class of characters that all digits belong to, or none. -/
def Uniform (p : Char → Bool) : Prop :=
  ∀ c ∈ decimals, p c = p '0'

instance (p : Char → Bool) : Decidable (Uniform p) :=
  List.decidableBAll _ _

/-- Characters that no digit is among. -/
def Digitless (cs : List Char) : Prop :=
  ∀ c ∈ cs, c ∉ decimals

instance (cs : List Char) : Decidable (Digitless cs) :=
  List.decidableBAll _ _

theorem mem_decimals_of_isDigit {c : Char} (digit : c.isDigit = true) : c ∈ decimals := by
  have bounds : 48 ≤ c.toNat ∧ c.toNat ≤ 57 := by
    simp only [Char.isDigit, Bool.and_eq_true, decide_eq_true_eq, ge_iff_le,
      UInt32.le_iff_toNat_le] at digit
    exact digit
  have digits : ∀ n : Fin 10, Char.ofNat (48 + n) ∈ decimals := by decide
  have value := digits ⟨c.toNat - 48, by omega⟩
  have whole : 48 + (c.toNat - 48) = c.toNat := by omega
  simpa only [whole, Char.ofNat_toNat] using value

namespace Numbers

variable {digits digits' : List Char}

protected theorem symm (numbers : Numbers digits digits') : Numbers digits' digits :=
  ⟨numbers.right, numbers.left, numbers.same.symm, numbers.same ▸ numbers.long⟩

theorem exists_cons (numbers : Numbers digits digits') :
    ∃ d more, digits = d :: more ∧ d ∈ decimals := by
  obtain ⟨d, more, rfl⟩ := List.exists_cons_of_length_pos (Nat.zero_lt_of_lt numbers.long)
  exact ⟨d, more, rfl, numbers.left d List.mem_cons_self⟩

theorem uniform {p : Char → Bool} (numbers : Numbers digits digits') (uniform : Uniform p) :
    ∀ c ∈ digits, p c = p '0' :=
  fun c member => uniform c (numbers.left c member)

theorem takeWhile_append {p : Char → Bool} (numbers : Numbers digits digits')
    (uniform : Uniform p) (cs : List Char) :
    (digits ++ cs).takeWhile p = if p '0' then digits ++ cs.takeWhile p else [] := by
  split
  next kept =>
    exact List.takeWhile_append_of_pos fun c member => (numbers.uniform uniform c member).trans kept
  next other =>
    obtain ⟨d, more, rfl, digit⟩ := numbers.exists_cons
    rw [List.cons_append, List.takeWhile_cons_of_neg]
    rwa [uniform d digit]

theorem dropWhile_append {p : Char → Bool} (numbers : Numbers digits digits')
    (uniform : Uniform p) (cs : List Char) :
    (digits ++ cs).dropWhile p = if p '0' then cs.dropWhile p else digits ++ cs := by
  split
  next kept =>
    exact List.dropWhile_append_of_pos fun c member => (numbers.uniform uniform c member).trans kept
  next other =>
    obtain ⟨d, more, rfl, digit⟩ := numbers.exists_cons
    rw [List.cons_append, List.dropWhile_cons_of_neg]
    rwa [uniform d digit]

theorem filter_append {p : Char → Bool} (numbers : Numbers digits digits')
    (uniform : Uniform p) (cs : List Char) :
    (digits ++ cs).filter p = if p '0' then digits ++ cs.filter p else cs.filter p := by
  rw [List.filter_append]
  split
  next kept =>
    rw [List.filter_eq_self.mpr fun c member => (numbers.uniform uniform c member).trans kept]
  next other =>
    rw [List.filter_eq_nil_iff.mpr fun c member => by rwa [numbers.uniform uniform c member],
      List.nil_append]

theorem all_eq {p : Char → Bool} (numbers : Numbers digits digits') (uniform : Uniform p) :
    digits.all p = p '0' := by
  obtain ⟨d, more, rfl, digit⟩ := numbers.exists_cons
  rw [Bool.eq_iff_iff, List.all_eq_true]
  refine ⟨fun each => (uniform d digit).symm.trans (each d List.mem_cons_self),
    fun kept c member => (numbers.uniform uniform c member).trans kept⟩

end Numbers

namespace Renumbered

variable {cs cs' ds ds' : List Char}

protected theorem refl (cs : List Char) : Renumbered cs cs := by
  induction cs with
  | nil => exact .nil
  | cons c rest ih => exact .keep c ih

protected theorem symm (same : Renumbered cs cs') : Renumbered cs' cs := by
  induction same with
  | nil => exact .nil
  | keep c _ ih => exact .keep c ih
  | number numbers _ ih => exact .number numbers.symm ih

theorem append (front : Renumbered cs cs') (back : Renumbered ds ds') :
    Renumbered (cs ++ ds) (cs' ++ ds') := by
  induction front with
  | nil => exact back
  | keep c _ ih => exact .keep c ih
  | number numbers _ ih =>
    rw [List.append_assoc, List.append_assoc]
    exact .number numbers ih

theorem of_numbers (front : List Char) (numbers : Numbers ds ds') :
    Renumbered (front ++ ds) (front ++ ds') := by
  have last := Renumbered.number numbers .nil
  rw [List.append_nil, List.append_nil] at last
  exact (Renumbered.refl front).append last

theorem length_eq (same : Renumbered cs cs') : cs.length = cs'.length := by
  induction same with
  | nil => rfl
  | keep c _ ih => exact congrArg (· + 1) ih
  | number numbers _ ih => rw [List.length_append, List.length_append, numbers.same, ih]

/-- Short characters are the same. -/
theorem eq_or_long (same : Renumbered cs cs') : cs = cs' ∨ 4 < cs.length := by
  induction same with
  | nil => exact .inl rfl
  | keep c _ ih => exact ih.imp (congrArg (c :: ·)) (Nat.lt_succ_of_lt ·)
  | number numbers _ _ =>
    rw [List.length_append]
    exact .inr (Nat.lt_add_right _ numbers.long)

theorem eq_of_short (same : Renumbered cs cs') (short : cs.length ≤ 4) : cs = cs' :=
  same.eq_or_long.resolve_right (Nat.not_lt.mpr short)

theorem eq_of_digitless (same : Renumbered cs cs') (free : Digitless cs) : cs = cs' := by
  induction same with
  | nil => rfl
  | keep c _ ih => rw [ih (List.forall_mem_cons.mp free).2]
  | number numbers _ _ =>
    obtain ⟨d, more, rfl, digit⟩ := numbers.exists_cons
    exact absurd digit (free d List.mem_cons_self)

/-- Either both are empty, or both start with the same character, or both with a number. -/
theorem cases (same : Renumbered cs cs') :
    (cs = [] ∧ cs' = []) ∨ (∃ c rest rest', cs = c :: rest ∧ cs' = c :: rest' ∧
      Renumbered rest rest') ∨
      ∃ d d' rest rest', cs = d :: rest ∧ cs' = d' :: rest' ∧ d ∈ decimals ∧ d' ∈ decimals := by
  cases same with
  | nil => exact .inl ⟨rfl, rfl⟩
  | keep c rest => exact .inr (.inl ⟨c, _, _, rfl, rfl, rest⟩)
  | number numbers rest =>
    obtain ⟨d, more, rfl, digit⟩ := numbers.exists_cons
    obtain ⟨d', more', rfl, digit'⟩ := numbers.symm.exists_cons
    exact .inr (.inr ⟨d, d', _, _, rfl, rfl, digit, digit'⟩)

theorem eq_nil_iff (same : Renumbered cs cs') : cs = [] ↔ cs' = [] := by
  rw [← List.length_eq_zero_iff, same.length_eq, List.length_eq_zero_iff]

theorem isEmpty_eq (same : Renumbered cs cs') : cs.isEmpty = cs'.isEmpty := by
  rw [Bool.eq_iff_iff, List.isEmpty_iff, List.isEmpty_iff, same.eq_nil_iff]

/-- A first character that is no digit is the same. -/
theorem exists_cons {c : Char} (same : Renumbered (c :: cs) ds) (other : c ∉ decimals) :
    ∃ rest, ds = c :: rest ∧ Renumbered cs rest := by
  rcases same.cases with ⟨none, -⟩ | ⟨_, _, _, first, rfl, rest⟩ | ⟨_, _, _, _, first, -, digit, -⟩
  · cases none
  · cases first
    exact ⟨_, rfl, rest⟩
  · cases first
    exact absurd digit other

theorem head?_eq_some_iff {c : Char} (same : Renumbered cs cs') (other : c ∉ decimals) :
    cs.head? = some c ↔ cs'.head? = some c := by
  rcases same.cases with ⟨rfl, rfl⟩ | ⟨_, _, _, rfl, rfl, -⟩ |
    ⟨d, d', _, _, rfl, rfl, digit, digit'⟩
  · rfl
  · rfl
  · simp only [List.head?_cons, Option.some.injEq]
    exact iff_of_false (fun same => other (same ▸ digit)) fun same => other (same ▸ digit')

/-! ## Classes of characters -/

section Uniform

variable {p : Char → Bool}

theorem takeWhile (same : Renumbered cs cs') (uniform : Uniform p) :
    Renumbered (cs.takeWhile p) (cs'.takeWhile p) := by
  induction same with
  | nil => exact .nil
  | keep c _ ih =>
    by_cases kept : p c = true
    · rw [List.takeWhile_cons_of_pos kept, List.takeWhile_cons_of_pos kept]
      exact .keep c ih
    · rw [List.takeWhile_cons_of_neg kept, List.takeWhile_cons_of_neg kept]
      exact .nil
  | number numbers _ ih =>
    rw [numbers.takeWhile_append uniform, numbers.symm.takeWhile_append uniform]
    split
    · exact .number numbers ih
    · exact .nil

theorem dropWhile (same : Renumbered cs cs') (uniform : Uniform p) :
    Renumbered (cs.dropWhile p) (cs'.dropWhile p) := by
  induction same with
  | nil => exact .nil
  | keep c rest ih =>
    by_cases dropped : p c = true
    · rwa [List.dropWhile_cons_of_pos dropped, List.dropWhile_cons_of_pos dropped]
    · rw [List.dropWhile_cons_of_neg dropped, List.dropWhile_cons_of_neg dropped]
      exact .keep c rest
  | number numbers rest ih =>
    rw [numbers.dropWhile_append uniform, numbers.symm.dropWhile_append uniform]
    split
    · exact ih
    · exact .number numbers rest

/-- What digits do not stop stops at the same character. -/
theorem dropWhile_cases (same : Renumbered cs cs') (uniform : Uniform p) (goesOn : p '0' = true) :
    (cs.dropWhile p = [] ∧ cs'.dropWhile p = []) ∨ ∃ c rest rest', cs.dropWhile p = c :: rest ∧
      cs'.dropWhile p = c :: rest' ∧ p c = false ∧ Renumbered rest rest' := by
  have stop := head?_dropWhile_not p cs
  rcases (same.dropWhile uniform).cases with none | ⟨c, rest, rest', begins, begins', later⟩ |
    ⟨d, _, _, _, begins, -, digit, -⟩
  · exact .inl none
  · rw [begins] at stop
    exact .inr ⟨c, rest, rest', begins, begins', stop c rfl, later⟩
  · rw [begins] at stop
    have kept := (uniform d digit).trans goesOn
    rw [stop d rfl] at kept
    cases kept

theorem filter (same : Renumbered cs cs') (uniform : Uniform p) :
    Renumbered (cs.filter p) (cs'.filter p) := by
  induction same with
  | nil => exact .nil
  | keep c _ ih =>
    by_cases kept : p c = true
    · rw [List.filter_cons_of_pos kept, List.filter_cons_of_pos kept]
      exact .keep c ih
    · rwa [List.filter_cons_of_neg kept, List.filter_cons_of_neg kept]
  | number numbers _ ih =>
    rw [numbers.filter_append uniform, numbers.symm.filter_append uniform]
    split
    · exact .number numbers ih
    · exact ih

theorem all_eq (same : Renumbered cs cs') (uniform : Uniform p) : cs.all p = cs'.all p := by
  induction same with
  | nil => rfl
  | keep c _ ih => rw [List.all_cons, List.all_cons, ih]
  | number numbers _ ih =>
    rw [List.all_append, List.all_append, numbers.all_eq uniform, numbers.symm.all_eq uniform, ih]

theorem any_eq (same : Renumbered cs cs') (uniform : Uniform p) : cs.any p = cs'.any p := by
  have others : Uniform fun c => !p c := fun c digit => congrArg (!·) (uniform c digit)
  rw [List.any_eq_not_all_not, List.any_eq_not_all_not, same.all_eq others]

end Uniform

theorem contains_eq {c : Char} (same : Renumbered cs cs') (other : c ∉ decimals) :
    cs.contains c = cs'.contains c := by
  have uniform : Uniform (c == ·) := by
    intro d digit
    have apart : ∀ d ∈ decimals, (c == d) = false := fun d digit =>
      beq_eq_false_iff_ne.mpr fun same => other (same ▸ digit)
    exact (apart d digit).trans (apart '0' (by decide)).symm
  rw [List.contains_eq_any_beq, List.contains_eq_any_beq, same.any_eq uniform]

theorem reverse (same : Renumbered cs cs') : Renumbered cs.reverse cs'.reverse := by
  induction same with
  | nil => exact .nil
  | keep c _ ih =>
    rw [List.reverse_cons, List.reverse_cons]
    exact ih.append (.refl [c])
  | number numbers _ ih =>
    have turned : Numbers _ _ :=
      ⟨fun c member => numbers.left c (List.mem_reverse.mp member),
        fun c member => numbers.right c (List.mem_reverse.mp member),
        by simpa using numbers.same, by simpa using numbers.long⟩
    have last := Renumbered.number turned .nil
    rw [List.append_nil, List.append_nil] at last
    rw [List.reverse_append, List.reverse_append]
    exact ih.append last

theorem map {f : Char → Char} (same : Renumbered cs cs') (fixed : ∀ c ∈ decimals, f c = c) :
    Renumbered (cs.map f) (cs'.map f) := by
  have stays : ∀ {digits digits' : List Char}, Numbers digits digits' → digits.map f = digits :=
    fun numbers => (List.map_congr_left fun c member => fixed c (numbers.left c member)).trans
      (List.map_id _)
  induction same with
  | nil => exact .nil
  | keep c _ ih => exact .keep (f c) ih
  | number numbers _ ih =>
    rw [List.map_append, List.map_append, stays numbers, stays numbers.symm]
    exact .number numbers ih

/-! ## Parts -/

/-- The parts between marks differ in numbers only. -/
theorem splitOn (same : Renumbered cs cs') (mark : Char) (other : mark ∉ decimals) :
    List.Forall₂ Renumbered (cs.splitOn mark) (cs'.splitOn mark) := by
  have into : ∀ (front front' : List Char) {parts parts' : List (List Char)},
      List.Forall₂ Renumbered parts parts' →
      (∀ part part', Renumbered part part' → Renumbered (front ++ part) (front' ++ part')) →
      List.Forall₂ Renumbered (parts.modifyHead (front ++ ·))
        (parts'.modifyHead (front' ++ ·)) := by
    intro front front' parts parts' same longer
    cases same with
    | nil => exact .nil
    | cons first rest => exact .cons (longer _ _ first) rest
  induction same with
  | nil => exact .cons .nil .nil
  | keep c _ ih =>
    rw [List.splitOn_cons_eq_if_modifyHead, List.splitOn_cons_eq_if_modifyHead]
    split
    · exact .cons .nil ih
    · exact into [c] [c] ih fun _ _ => .keep c
  | number numbers _ ih =>
    rw [Path.splitOn_append_of_not_mem fun member => other (numbers.left _ member),
      Path.splitOn_append_of_not_mem fun member => other (numbers.right _ member)]
    exact into _ _ ih fun _ _ => .number numbers

theorem intercalate {parts parts' : List (List Char)} (mark : List Char)
    (same : List.Forall₂ Renumbered parts parts') :
    Renumbered (mark.intercalate parts) (mark.intercalate parts') := by
  induction same with
  | nil => exact .nil
  | cons first rest ih =>
    cases rest with
    | nil => rwa [List.intercalate_singleton, List.intercalate_singleton]
    | cons _ _ =>
      rw [List.intercalate_cons_cons, List.intercalate_cons_cons]
      exact (first.append (.refl mark)).append ih

/-- The texts have the same size. -/
theorem utf8ByteSize_eq (same : Renumbered cs cs') :
    (String.ofList cs).utf8ByteSize = (String.ofList cs').utf8ByteSize := by
  have one : ∀ c ∈ decimals, c.utf8Size = 1 := List.forall_iff_forall_mem.mp (by decide)
  have number : ∀ digits : List Char, (∀ c ∈ digits, c ∈ decimals) →
      (String.ofList digits).utf8ByteSize = digits.length := by
    intro digits each
    induction digits with
    | nil => rfl
    | cons c rest ih =>
      rw [String.ofList_cons, String.utf8ByteSize_append, String.utf8ByteSize_singleton,
        one c (each c List.mem_cons_self),
        ih fun d member => each d (List.mem_cons_of_mem _ member), List.length_cons, Nat.add_comm]
  induction same with
  | nil => rfl
  | keep c _ ih =>
    rw [String.ofList_cons, String.ofList_cons, String.utf8ByteSize_append,
      String.utf8ByteSize_append, ih]
  | number numbers _ ih =>
    rw [String.ofList_append, String.ofList_append, String.utf8ByteSize_append,
      String.utf8ByteSize_append, number _ numbers.left, number _ numbers.right, numbers.same, ih]

end Renumbered

end Classpath.Text
