import Classpath.Value.Order

/-! # How sorting is refused

Sorting is refused with a complaint about two of the members, the first two without an order that
are compared (`Classpath.Sorting.exists_of_sort`). For values the complaint is that they have no
order (`Classpath.Value.unordered_of_sort`).
-/

namespace Classpath

namespace Sorting

variable {α ε : Type} {less : Order α ε} {fault : ε}

/-- A complaint about two members. -/
def Complains (less : Order α ε) (fault : ε) : Prop :=
  ∃ x y, less x y = .error fault

theorem complains_of_place {x : α} {sorted : List α} {low high : Nat}
    (refused : place less x sorted low high = .error fault) : Complains less fault := by
  fun_induction place less x sorted low high with
  | case1 => cases refused
  | case2 low high below middle y at_middle other found =>
    cases refused
    exact ⟨x, y, found⟩
  | case3 low high below middle y at_middle found ih => exact ih refused
  | case4 low high below middle y at_middle found ih => exact ih refused
  | case5 => cases refused

theorem complains_of_insert {sorted : List α} {x : α}
    (refused : insert less sorted x = .error fault) : Complains less fault := by
  unfold insert at refused
  cases found : place less x sorted 0 sorted.length with
  | ok i =>
    rw [found] at refused
    cases refused
  | error other =>
    rw [found] at refused
    cases refused
    exact complains_of_place found

theorem complains_of_foldlM {more sorted : List α}
    (refused : more.foldlM (insert less) sorted = .error fault) : Complains less fault := by
  induction more generalizing sorted with
  | nil => cases refused
  | cons x rest ih =>
    rw [List.foldlM_cons] at refused
    cases found : insert less sorted x with
    | ok next =>
      rw [found] at refused
      exact ih refused
    | error other =>
      rw [found] at refused
      cases refused
      exact complains_of_insert found

theorem complains_of_steps {down : Bool} {last : α} {xs : List α}
    (refused : steps less down last xs = .error fault) : Complains less fault := by
  induction xs generalizing last with
  | nil => cases refused
  | cons x rest ih =>
    unfold steps at refused
    cases compared : less x last with
    | error other =>
      rw [compared] at refused
      cases refused
      exact ⟨x, last, compared⟩
    | ok before =>
      rw [compared] at refused
      dsimp only at refused
      split at refused
      · cases found : steps less down x rest with
        | ok n =>
          rw [found] at refused
          cases refused
        | error other =>
          rw [found] at refused
          cases refused
          exact ih found
      · cases refused

theorem complains_of_run {xs : List α} (refused : run less xs = .error fault) :
    Complains less fault := by
  unfold run at refused
  split at refused
  next x y rest =>
    cases compared : less y x with
    | error other =>
      rw [compared] at refused
      cases refused
      exact ⟨y, x, compared⟩
    | ok down =>
      rw [compared] at refused
      cases found : steps less down y rest with
      | ok n =>
        simp only [found] at refused
        cases refused
      | error other =>
        simp only [found] at refused
        cases refused
        exact complains_of_steps found
  · cases refused

theorem complains_of_merge {xs ys : List α} (refused : merge less xs ys = .error fault) :
    Complains less fault := by
  fun_induction merge less xs ys with
  | case1 ys => cases refused
  | case2 xs other => cases refused
  | case3 x xs y ys other found =>
    cases refused
    exact ⟨y, x, found⟩
  | case4 x xs y ys found ih =>
    cases merged : merge less (x :: xs) ys with
    | ok rest =>
      rw [merged] at refused
      cases refused
    | error other =>
      rw [merged] at refused
      cases refused
      exact ih merged
  | case5 x xs y ys found ih =>
    cases merged : merge less xs (y :: ys) with
    | ok rest =>
      rw [merged] at refused
      cases refused
    | error other =>
      rw [merged] at refused
      cases refused
      exact ih merged

theorem complains_of_intoSorted {least runs : Nat} {sorted rest : List α}
    (refused : intoSorted less least runs sorted rest = .error fault) : Complains less fault := by
  fun_induction intoSorted less least runs sorted rest with
  | case1 => cases refused
  | case2 => cases refused
  | case3 runs sorted rest some_rest ih =>
    cases cut : run less rest with
    | error other =>
      rw [cut] at refused
      cases refused
      exact complains_of_run cut
    | ok found =>
      obtain ⟨down, length⟩ := found
      simp only [cut, bind, Except.bind] at refused
      split at refused
      next filled =>
        cases refused
        exact complains_of_foldlM filled
      next first filled =>
        split at refused
        next merged =>
          cases refused
          exact complains_of_merge merged
        next joined merged => exact ih length joined refused

/-- Sorting is refused with a complaint about two members. -/
theorem exists_of_sort {xs : List α} (refused : sort less xs = .error fault) :
    Complains less fault :=
  complains_of_intoSorted refused

end Sorting

namespace Value

/-- A complaint that two values have no order. -/
inductive Unordered : Fault → Prop
  | kinds (sign left right : String) : Unordered (.unordered sign left right)
  | moments (complaint : String) : Unordered (.incomparable complaint)

theorem unordered_of_lessMoment {a b : Moment} {fault : Fault}
    (refused : lessMoment a b = .error fault) : Unordered fault := by
  unfold lessMoment at refused
  split at refused <;> cases refused
  · exact .moments _
  · exact .moments _
  · exact .moments _
  · exact .kinds _ _ _

mutual

theorem unordered_of_less {fault : Fault} : ∀ {a b : Value}, less a b = .error fault →
    Unordered fault := by
  intro a b refused
  unfold less at refused
  split at refused
  · cases refused
  · cases refused
  · exact unordered_of_lessMoment refused
  · exact unordered_of_lessItems refused
  · exact unordered_of_lessItems refused
  · split at refused <;> cases refused
    exact .kinds _ _ _

theorem unordered_of_lessItems {fault : Fault} : ∀ {xs ys : List Value},
    lessItems xs ys = .error fault → Unordered fault := by
  intro xs ys refused
  unfold lessItems at refused
  split at refused
  · cases refused
  · cases refused
  · cases refused
  · split at refused
    · exact unordered_of_lessItems refused
    · exact unordered_of_less refused

end

/-- Values that cannot be sorted have no order. -/
theorem unordered_of_sort {values : List Value} {fault : Fault}
    (refused : sort values = .error fault) : Unordered fault := by
  unfold sort at refused
  split at refused
  · cases refused
  · obtain ⟨x, y, compared⟩ := Sorting.exists_of_sort refused
    exact unordered_of_less compared

end Value

end Classpath
