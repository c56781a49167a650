import Classpath.Text.Surrogate

/-! # Texts in code point order

Every list that is answered in a fixed order is sorted by code point, where half of a surrogate pair
counts as itself. A set is kept as a list
without repetition; the order of such a list carries no meaning until it is sorted.
-/

namespace Classpath

/-- Distinct members in order of first occurrence. -/
def distinct {α : Type} [BEq α] (xs : List α) : List α :=
  xs.foldl (fun seen x => if seen.contains x then seen else seen ++ [x]) []

namespace Text

/-- Code point order, a shorter text before its extensions. -/
def le (a b : String) : Bool :=
  !decide (b.toList.map code < a.toList.map code)

/-- Sort texts by code point. -/
def sort (texts : List String) : List String :=
  texts.mergeSort le

/-- Sort by the text of a member. -/
def sortOn {α : Type} (key : α → String) (members : List α) : List α :=
  members.mergeSort fun a b => le (key a) (key b)

theorem mem_sort {s : String} {texts : List String} : s ∈ sort texts ↔ s ∈ texts :=
  (List.mergeSort_perm texts le).mem_iff

end Text

end Classpath
