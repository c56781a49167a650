import Classpath.Text.Order
import Mathlib.Data.List.Basic

/-! # Sets that are kept as lists

A list is made a set by keeping the first of equal members. The main statements say that this keeps
the members (`Classpath.mem_distinct`), repeats none (`Classpath.nodup_distinct`) and leaves a list
without repeats as it is (`Classpath.distinct_of_nodup`).
-/

namespace Classpath

variable {α : Type} [BEq α] [LawfulBEq α]

/-- Add a member to a set unless it is there. -/
def adjoin (seen : List α) (x : α) : List α :=
  if seen.contains x then seen else seen ++ [x]

theorem mem_adjoin {seen : List α} {x y : α} : y ∈ adjoin seen x ↔ y ∈ seen ∨ y = x := by
  unfold adjoin
  split
  · rename_i present
    have inside : x ∈ seen := List.contains_iff_mem.mp present
    exact ⟨Or.inl, fun either => either.elim id fun same => same ▸ inside⟩
  · simp

theorem nodup_adjoin {seen : List α} (apart : seen.Nodup) (x : α) : (adjoin seen x).Nodup := by
  unfold adjoin
  split
  · exact apart
  · rename_i absent
    have fresh : x ∉ seen := fun inside => absent (List.contains_iff_mem.mpr inside)
    refine List.nodup_append.mpr ⟨apart, by simp, ?_⟩
    intro a member b added same
    rw [List.mem_singleton] at added
    exact fresh (added ▸ same ▸ member)

omit [LawfulBEq α] in
theorem distinct_eq_foldl (xs : List α) : distinct xs = xs.foldl adjoin [] :=
  rfl

omit [LawfulBEq α] in
theorem subset_adjoin (seen : List α) (x : α) : seen ⊆ adjoin seen x := by
  unfold adjoin
  split
  · exact List.Subset.refl seen
  · exact List.subset_append_left seen [x]

omit [LawfulBEq α] in
theorem subset_foldl_adjoin (xs seen : List α) : seen ⊆ xs.foldl adjoin seen := by
  induction xs generalizing seen with
  | nil => exact List.Subset.refl seen
  | cons x rest ih => exact List.Subset.trans (subset_adjoin seen x) (ih (adjoin seen x))

/-- A set is empty only when the list is, whatever counts as equal. -/
theorem distinct_eq_nil_iff {β : Type} [BEq β] {xs : List β} : distinct xs = [] ↔ xs = [] := by
  cases xs with
  | nil => simp [distinct]
  | cons x rest =>
    have kept : x ∈ distinct (x :: rest) :=
      subset_foldl_adjoin rest (adjoin [] x) (by simp [adjoin])
    simp [List.ne_nil_of_mem kept]

theorem mem_foldl_adjoin {xs seen : List α} {y : α} :
    y ∈ xs.foldl adjoin seen ↔ y ∈ seen ∨ y ∈ xs := by
  induction xs generalizing seen with
  | nil => simp
  | cons x rest ih => rw [List.foldl_cons, ih, mem_adjoin, List.mem_cons, or_assoc]

theorem nodup_foldl_adjoin (xs : List α) {seen : List α} (apart : seen.Nodup) :
    (xs.foldl adjoin seen).Nodup := by
  induction xs generalizing seen with
  | nil => exact apart
  | cons x rest ih => exact ih (nodup_adjoin apart x)

theorem foldl_adjoin_of_nodup {xs seen : List α} (apart : (seen ++ xs).Nodup) :
    xs.foldl adjoin seen = seen ++ xs := by
  induction xs generalizing seen with
  | nil => simp
  | cons x rest ih =>
    have fresh : x ∉ seen := fun inside =>
      (List.nodup_append.mp apart).2.2 x inside x List.mem_cons_self rfl
    have added : adjoin seen x = seen ++ [x] := by
      unfold adjoin
      rw [if_neg fun present => fresh (List.contains_iff_mem.mp present)]
    rw [List.foldl_cons, added, ih (by simpa using apart), List.append_assoc, List.singleton_append]

@[simp] theorem mem_distinct {xs : List α} {y : α} : y ∈ distinct xs ↔ y ∈ xs := by
  rw [distinct_eq_foldl, mem_foldl_adjoin]
  simp

theorem nodup_distinct (xs : List α) : (distinct xs).Nodup :=
  nodup_foldl_adjoin xs List.nodup_nil

theorem distinct_of_nodup {xs : List α} (apart : xs.Nodup) : distinct xs = xs :=
  foldl_adjoin_of_nodup apart

omit [LawfulBEq α] in
/-- A member that comes last is added to what the list before it is made. -/
theorem distinct_concat (xs : List α) (x : α) :
    distinct (xs ++ [x]) = adjoin (distinct xs) x := by
  rw [distinct_eq_foldl, List.foldl_concat, distinct_eq_foldl]

theorem distinct_distinct_concat (xs : List α) (x : α) :
    distinct (distinct xs ++ [x]) = distinct (xs ++ [x]) := by
  rw [distinct_concat, distinct_concat, distinct_of_nodup (nodup_distinct xs)]

end Classpath
