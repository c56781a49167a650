import Classpath.Text.Order
import Mathlib.Data.List.Sort

/-! # The order of texts is linear

The code point of a character tells the character, halves of surrogate pairs included
(`Classpath.Text.code_injective`), so two texts that come before each other are equal. Hence sorting
depends on nothing but what is sorted (`Classpath.Text.sort_eq_of_perm`), and what is sorted is in
order (`Classpath.Text.pairwise_sortOn`).
-/

namespace Classpath.Text

/-- No character is half of a surrogate pair. -/
theorem not_isSurrogate_toNat (c : Char) : isSurrogate c.toNat = false := by
  have valid : c.toNat < 0xD800 ∨ 0xDFFF < c.toNat ∧ c.toNat < 0x110000 := c.valid
  simp only [isSurrogate, Bool.and_eq_false_iff, decide_eq_false_iff_not]
  omega

/-- The code point of a character, or of the half that it carries, tells the character. -/
theorem code_injective : Function.Injective code := by
  intro a b same
  have value : ∀ c, code c = c.toNat - standInShift ∧ standInShift ≤ c.toNat ∧
      isSurrogate (code c) = true ∨ code c = c.toNat ∧ isSurrogate (code c) = false := by
    intro c
    unfold code surrogate?
    split
    · rename_i carries
      rw [Bool.and_eq_true, decide_eq_true_eq] at carries
      rw [Option.getD_some]
      exact Or.inl ⟨rfl, carries.1, carries.2⟩
    · rw [Option.getD_none]
      exact Or.inr ⟨rfl, not_isSurrogate_toNat c⟩
  apply Char.toNat_inj.mp
  rcases value a with ⟨valueA, aboveA, halfA⟩ | ⟨valueA, wholeA⟩ <;>
    rcases value b with ⟨valueB, aboveB, halfB⟩ | ⟨valueB, wholeB⟩
  · omega
  · rw [same, wholeB] at halfA
    cases halfA
  · rw [same, halfB] at wholeA
    cases wholeA
  · omega

theorem le_iff {a b : String} : le a b = true ↔ ¬ b.toList.map code < a.toList.map code := by
  simp [le]

theorem le_total (a b : String) : (le a b || le b a) = true := by
  rw [Bool.or_eq_true, le_iff, le_iff]
  exact List.le_total _ _

theorem le_trans (a b c : String) (first : le a b = true) (second : le b c = true) :
    le a c = true := by
  rw [le_iff] at first second ⊢
  exact List.le_trans first second

theorem le_antisymm {a b : String} (first : le a b = true) (second : le b a = true) : a = b := by
  rw [le_iff] at first second
  exact String.toList_inj.mp
    (List.map_injective_iff.mpr code_injective (List.le_antisymm first second))

theorem pairwise_sort (texts : List String) :
    (sort texts).Pairwise fun a b => le a b = true :=
  List.pairwise_mergeSort le_trans le_total texts

theorem pairwise_sortOn {α : Type} (key : α → String) (members : List α) :
    (sortOn key members).Pairwise fun a b => le (key a) (key b) = true :=
  List.pairwise_mergeSort (fun a b c => le_trans (key a) (key b) (key c))
    (fun a b => le_total (key a) (key b)) members

theorem perm_sortOn {α : Type} (key : α → String) (members : List α) :
    (sortOn key members).Perm members :=
  List.mergeSort_perm members _

theorem perm_sort (texts : List String) : (sort texts).Perm texts :=
  List.mergeSort_perm texts le

/-- Sorting depends on nothing but what is sorted. -/
theorem sort_eq_of_perm {first second : List String} (perm : first.Perm second) :
    sort first = sort second :=
  (((perm_sort first).trans perm).trans (perm_sort second).symm).eq_of_pairwise
    (fun _ _ _ _ => le_antisymm) (pairwise_sort first) (pairwise_sort second)

/-- Two lists without repeats that have the same members are sorted alike. -/
theorem sort_eq_of_mem_iff {first second : List String} (apart : first.Nodup)
    (apart' : second.Nodup) (same : ∀ s, s ∈ first ↔ s ∈ second) : sort first = sort second :=
  sort_eq_of_perm ((List.perm_ext_iff_of_nodup apart apart').mpr same)

end Classpath.Text
