import Classpath.Proofs.Text.Renumbered
import Classpath.Proofs.Uri.Reference
import Classpath.Uri.Host
import Mathlib.Data.List.TakeDrop

/-! # References that differ in a number

A reference is cut at marks, and no digit is a mark: the parts of references that differ in numbers
only differ in numbers only (`Classpath.Uri.Reference.renumbered_ofChars`). Parts of an address are
short, so whether an authority is refused does not depend on the numbers either
(`Classpath.Uri.isSome_hostFault?`).
-/

namespace Classpath.Uri

open Text (Renumbered Uniform decimals)

/-! ## The cut -/

namespace Reference

variable {cs cs' : List Char}

theorem renumbered_clean (same : Renumbered cs cs') : Renumbered (clean cs) (clean cs') :=
  (same.dropWhile (by decide)).filter (by decide)

/-- What starts with a digit has no scheme. -/
theorem cutScheme_digit {d : Char} {more : List Char} (digit : d ∈ decimals)
    (begins : cs.takeWhile (· ≠ ':') = d :: more) : cutScheme cs = ([], cs) := by
  have noLetter : ∀ c ∈ decimals, isLetter c = false := List.forall_iff_forall_mem.mp (by decide)
  unfold cutScheme
  dsimp only
  split
  next first _ _ _ other _ =>
    cases begins.symm.trans other
    rw [noLetter d digit, Bool.false_and, if_neg (by simp)]
  · rfl

theorem renumbered_cutScheme (same : Renumbered cs cs') :
    Renumbered (cutScheme cs).1 (cutScheme cs').1 ∧
      Renumbered (cutScheme cs).2 (cutScheme cs').2 := by
  have front := same.takeWhile (p := (· ≠ ':')) (by decide)
  have every := front.all_eq (p := isSchemeChar) (by decide)
  rcases front.cases with ⟨none, none'⟩ | ⟨first, more, more', begins, begins', -⟩ |
    ⟨d, d', more, more', begins, begins', digit, digit'⟩
  · unfold cutScheme
    dsimp only
    rw [none, none']
    exact ⟨.nil, same⟩
  · unfold cutScheme
    dsimp only
    rw [drop_length_takeWhile, drop_length_takeWhile]
    rcases same.dropWhile_cases (p := (· ≠ ':')) (by decide) rfl with
      ⟨none, none'⟩ | ⟨colon, rest, rest', ends, ends', -, later⟩
    · rw [begins, begins', none, none']
      exact ⟨.nil, same⟩
    · rw [begins, begins'] at every
      rw [begins, begins'] at front
      rw [begins, begins', ends, ends']
      simp only [every]
      split
      · exact ⟨front.map (List.forall_iff_forall_mem.mp (by decide)), later⟩
      · exact ⟨.nil, same⟩
  · rw [cutScheme_digit digit begins, cutScheme_digit digit' begins']
    exact ⟨.nil, same⟩

theorem renumbered_cutAuthority (same : Renumbered cs cs') :
    Renumbered (cutAuthority cs).1 (cutAuthority cs').1 ∧
      Renumbered (cutAuthority cs).2 (cutAuthority cs').2 := by
  have slashes : ∀ {ds ds' : List Char}, Renumbered ds ds' →
      ∀ rest, ds = '/' :: '/' :: rest → ∃ rest', ds' = '/' :: '/' :: rest' ∧
        Renumbered rest rest' := by
    rintro ds ds' same rest rfl
    obtain ⟨_, rfl, second⟩ := same.exists_cons (by decide)
    obtain ⟨rest', rfl, later⟩ := second.exists_cons (by decide)
    exact ⟨rest', rfl, later⟩
  have none : ∀ ds : List Char, (∀ rest, ds ≠ '/' :: '/' :: rest) →
      cutAuthority ds = ([], ds) := by
    intro ds other
    unfold cutAuthority
    split
    · exact absurd rfl (other _)
    · rfl
  by_cases begins : ∃ rest, cs = '/' :: '/' :: rest
  · obtain ⟨rest, rfl⟩ := begins
    obtain ⟨rest', rfl, later⟩ := slashes same rest rfl
    refine ⟨later.takeWhile (by decide), ?_⟩
    simp only [cutAuthority, drop_length_takeWhile]
    exact later.dropWhile (by decide)
  · rw [none cs fun rest first => begins ⟨rest, first⟩, none cs' fun rest first =>
      begins ((slashes same.symm rest first).imp fun _ found => found.1)]
    exact ⟨.nil, same⟩

/-- The parts of references that differ in numbers only. -/
theorem renumbered_ofChars (same : Renumbered cs cs') :
    Renumbered (ofChars cs).scheme (ofChars cs').scheme ∧
      Renumbered (ofChars cs).authority (ofChars cs').authority ∧
      Renumbered (ofChars cs).path (ofChars cs').path := by
  obtain ⟨scheme, rest⟩ := renumbered_cutScheme (renumbered_clean same)
  obtain ⟨authority, rest⟩ := renumbered_cutAuthority rest
  exact ⟨scheme, authority, (rest.takeWhile (by decide)).takeWhile (by decide)⟩

end Reference

/-! ## The host -/

namespace Host

variable {cs cs' : List Char}

theorem all_eq_of_forall₂ {p : List Char → Bool} {parts parts' : List (List Char)}
    (each : ∀ {part part'}, Renumbered part part' → p part = p part')
    (same : List.Forall₂ Renumbered parts parts') : parts.all p = parts'.all p := by
  induction same with
  | nil => rfl
  | cons first _ ih => rw [List.all_cons, List.all_cons, each first, ih]

theorem isOctet_eq (same : Renumbered cs cs') : isOctet cs = isOctet cs' := by
  -- An octet is too short to hold a number.
  by_cases short : cs.length ≤ 3
  · rw [same.eq_of_short (Nat.le_succ_of_le short)]
  · rw [isOctet, isOctet, ← same.length_eq, decide_eq_false short, Bool.false_and, Bool.false_and]

theorem isFourthVersion_eq (same : Renumbered cs cs') :
    isFourthVersion cs = isFourthVersion cs' := by
  have octets := same.splitOn '.' (by decide)
  simp only [isFourthVersion, octets.length_eq, all_eq_of_forall₂ isOctet_eq octets]

theorem isGroup_eq (same : Renumbered cs cs') : isGroup cs = isGroup cs' := by
  rw [isGroup, isGroup, same.isEmpty_eq, same.length_eq, same.all_eq (by decide)]

/-- Parts that differ in numbers only have last parts that do. -/
theorem getLast_cases {parts parts' : List (List Char)}
    (same : List.Forall₂ Renumbered parts parts') :
    (parts = [] ∧ parts' = []) ∨ ∃ front front' last last', parts = front ++ [last] ∧
      parts' = front' ++ [last'] ∧ List.Forall₂ Renumbered front front' ∧
      Renumbered last last' := by
  induction same with
  | nil => exact .inl ⟨rfl, rfl⟩
  | cons first _ ih =>
    rcases ih with ⟨rfl, rfl⟩ | ⟨front, front', last, last', rfl, rfl, before, ends⟩
    · exact .inr ⟨[], [], _, _, rfl, rfl, .nil, first⟩
    · exact .inr ⟨_ :: front, _ :: front', last, last', rfl, rfl, .cons first before, ends⟩

theorem rel_groups? (same : Renumbered cs cs') :
    Option.Rel (List.Forall₂ Renumbered) (groups? cs) (groups? cs') := by
  have parts := same.splitOn ':' (by decide)
  have lengths := parts.length_eq
  unfold groups?
  dsimp only
  rcases getLast_cases parts with ⟨none, -⟩ | ⟨front, front', last, last', split, split', before,
    ends⟩
  · exact absurd none (List.splitOn_ne_nil _ _)
  rw [split, split'] at lengths parts ⊢
  simp only [List.getLast?_concat, List.dropLast_concat, lengths,
    ends.contains_eq (c := '.') (by decide), isFourthVersion_eq ends]
  split
  · exact .none
  split
  · split
    · exact .some (List.rel_append before (.cons (.refl _) (.cons (.refl _) .nil)))
    · exact .none
  · exact .some parts

section Groups

variable {groups groups' : List (List Char)} (same : List.Forall₂ Renumbered groups groups')

include same

theorem getElem?_eq_some_nil_iff (i : Nat) : groups[i]? = some [] ↔ groups'[i]? = some [] := by
  induction same generalizing i with
  | nil => rfl
  | cons first _ ih =>
    cases i with
    | zero => simpa using first.eq_nil_iff
    | succ i => exact ih i

theorem innerGaps_eq : innerGaps groups = innerGaps groups' := by
  unfold innerGaps
  rw [same.length_eq]
  refine List.filter_congr fun i _ => ?_
  simp only [getElem?_eq_some_nil_iff same]

/-- A part that is left out when it is empty. -/
theorem rel_ite_empty :
    List.Forall₂ Renumbered (if groups = [[]] then [] else groups)
      (if groups' = [[]] then [] else groups') := by
  cases same with
  | nil => exact .nil
  | cons first rest =>
    cases rest with
    | cons second rest =>
      simp only [List.cons.injEq, reduceCtorEq, and_false, ↓reduceIte]
      exact .cons first (.cons second rest)
    | nil =>
      simp only [List.cons.injEq, and_true, first.eq_nil_iff]
      split
      · exact .nil
      · exact .cons first .nil

theorem fits_eq : fits groups = fits groups' := by
  unfold fits
  rw [innerGaps_eq same]
  split
  · rw [same.length_eq, all_eq_of_forall₂ isGroup_eq same]
  next gap _ =>
    have before := rel_ite_empty (List.forall₂_take gap same)
    have after := rel_ite_empty (List.forall₂_drop (gap + 1) same)
    simp only [before.length_eq, after.length_eq, all_eq_of_forall₂ isGroup_eq before,
      all_eq_of_forall₂ isGroup_eq after]
  · rfl

end Groups

theorem isSixthVersion_eq (same : Renumbered cs cs') : isSixthVersion cs = isSixthVersion cs' := by
  have parts := same.splitOn '%' (by decide)
  unfold isSixthVersion
  dsimp only
  rw [same.contains_eq (c := '/') (by decide)]
  generalize cs.splitOn '%' = found, cs'.splitOn '%' = found' at parts
  cases parts with
  | nil => rfl
  | @cons address address' _ _ first rest =>
    refine congrArg₂ _ (congrArg (· && _) ?_) ?_
    · cases rest with
      | nil => rfl
      | cons second rest =>
        cases rest with
        | nil => simp only [second.isEmpty_eq]
        | cons _ _ => rfl
    · have groups := rel_groups? first
      simp only [List.head?_cons, Option.getD_some]
      generalize groups? address = found, groups? address' = found' at groups ⊢
      cases groups with
      | none => rfl
      | some same => simp only [same.length_eq, fits_eq same]

theorem isFutureVersion_eq (same : Renumbered cs cs') :
    isFutureVersion ('v' :: cs) = isFutureVersion ('v' :: cs') := by
  have front := same.takeWhile (p := Text.isHexDigit) (by decide)
  have once : ∀ ds : List Char, ('v' :: ds).drop 1 = ds := fun _ => rfl
  unfold isFutureVersion
  dsimp only
  rw [once, once, Reference.drop_length_takeWhile, Reference.drop_length_takeWhile,
    front.isEmpty_eq]
  rcases same.dropWhile_cases (p := Text.isHexDigit) (by decide) rfl with
    ⟨none, none'⟩ | ⟨c, rest, rest', begins, begins', -, later⟩
  · rw [none, none']
  · rw [begins, begins']
    by_cases dot : c = '.'
    · subst dot
      simp only [later.isEmpty_eq]
    · simp [dot]

theorem isSome_addressFault? (same : Renumbered cs cs') :
    (addressFault? cs).isSome = (addressFault? cs').isSome := by
  unfold addressFault?
  by_cases future : cs.head? = some 'v'
  · rw [if_pos future, if_pos ((same.head?_eq_some_iff (by decide)).mp future)]
    obtain ⟨rest, rfl⟩ := List.head?_eq_some_iff.mp future
    obtain ⟨rest', rfl, later⟩ := same.exists_cons (by decide)
    rw [isFutureVersion_eq later]
  · rw [if_neg future, if_neg (mt (same.head?_eq_some_iff (by decide)).mpr future),
      isFourthVersion_eq same, isSixthVersion_eq same]
    split
    · rfl
    · split <;> rfl

theorem isSome_hostAndPortFault? (same : Renumbered cs cs') :
    (hostAndPortFault? cs).isSome = (hostAndPortFault? cs').isSome := by
  have front := same.takeWhile (p := (· ≠ '[')) (by decide)
  have noColon : ∀ c ∈ decimals, c ≠ ':' := List.forall_iff_forall_mem.mp (by decide)
  unfold hostAndPortFault?
  rw [List.span_eq_takeWhile_dropWhile, List.span_eq_takeWhile_dropWhile]
  rcases same.dropWhile_cases (p := (· ≠ '[')) (by decide) rfl with
    ⟨none, none'⟩ | ⟨_, inside, inside', begins, begins', -, later⟩
  · rw [none, none']
    exact isSome_addressFault? (front.takeWhile (by decide))
  have host := isSome_addressFault? (later.takeWhile (p := (· ≠ ']')) (by decide))
  rw [begins, begins']
  dsimp only
  rw [front.isEmpty_eq, ← List.drop_drop, Reference.drop_length_takeWhile, ← List.drop_drop,
    Reference.drop_length_takeWhile]
  split
  · rfl
  rcases later.dropWhile_cases (p := (· ≠ ']')) (by decide) rfl with
    ⟨none, none'⟩ | ⟨_, port, port', ends, ends', -, port_same⟩
  · rw [none, none']
    exact host
  rw [ends, ends', List.drop_succ_cons, List.drop_succ_cons, List.drop_zero, List.drop_zero]
  rcases port_same.cases with ⟨rfl, rfl⟩ | ⟨c, _, _, rfl, rfl, -⟩ |
    ⟨d, d', _, _, rfl, rfl, digit, digit'⟩
  · exact host
  · dsimp only
    split
    · exact host
    · rfl
  · dsimp only
    rw [if_neg (noColon d digit), if_neg (noColon d' digit')]

end Host

theorem isSome_bracketFault? {cs cs' : List Char} (same : Renumbered cs cs') :
    (bracketFault? cs).isSome = (bracketFault? cs').isSome := by
  have afterUser : Renumbered (Host.afterUser cs) (Host.afterUser cs') :=
    (same.reverse.takeWhile (by decide)).reverse
  unfold bracketFault?
  rw [same.contains_eq (c := '[') (by decide), same.contains_eq (c := ']') (by decide)]
  split
  · exact Host.isSome_hostAndPortFault? afterUser
  · rfl
  · rfl

theorem isSome_characterFault? {cs cs' : List Char} (same : Renumbered cs cs') :
    (characterFault? cs).isSome = (characterFault? cs').isSome := by
  unfold characterFault?
  rw [same.any_eq (by decide)]
  split <;> rfl

/-- Whether an authority is refused does not depend on the numbers in it. -/
theorem isSome_hostFault? {cs cs' : List Char} (same : Renumbered cs cs') :
    (hostFault? cs).isSome = (hostFault? cs').isSome := by
  rw [hostFault?, hostFault?, Option.isSome_or, Option.isSome_or, isSome_bracketFault? same,
    isSome_characterFault? same]

end Classpath.Uri
