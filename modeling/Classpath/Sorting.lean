/-! # Sorting by an order that may be refused

The members of a list may turn out to have no order. Then the answer is the complaint about the
first two of them that are compared, so the course of the comparisons is part of the rule: a list is
cut into runs that are in order or strictly in reverse, a short run is filled up by insertion, and
each run is merged into what is sorted already. The main statement says that nothing is lost or added
on the way (`Classpath.Sorting.perm_sort`).
-/

namespace Classpath.Sorting

variable {α ε : Type}

/-- Whether the first argument has to stand before the second, or why they have no order. -/
abbrev Order (α ε : Type) := α → α → Except ε Bool

/-- The place of a member in a sorted list between two places, found by halving: after every member
that it does not have to stand before. -/
def place (less : Order α ε) (x : α) (sorted : List α) (low high : Nat) : Except ε Nat :=
  if low < high then
    let middle := low + (high - low) / 2
    match sorted[middle]? with
    | none => .ok low
    | some y =>
      match less x y with
      | .error fault => .error fault
      | .ok true => place less x sorted low middle
      | .ok false => place less x sorted (middle + 1) high
  else .ok low
termination_by high - low

/-- Insert a member into a sorted list. -/
def insert (less : Order α ε) (sorted : List α) (x : α) : Except ε (List α) :=
  (place less x sorted 0 sorted.length).map fun i => sorted.take i ++ x :: sorted.drop i

/-- How many members go on in the direction of a run: each before the one in front of it, or
none. -/
def steps (less : Order α ε) (down : Bool) (last : α) : List α → Except ε Nat
  | [] => .ok 0
  | x :: rest =>
    match less x last with
    | .error fault => .error fault
    | .ok before => if before == down then (steps less down x rest).map (· + 1) else .ok 0

/-- The direction and the length of the run at the front of a list. -/
def run (less : Order α ε) : List α → Except ε (Bool × Nat)
  | x :: y :: rest =>
    match less y x with
    | .error fault => .error fault
    | .ok down => (steps less down y rest).map fun n => (down, n + 2)
  | xs => .ok (false, xs.length)

/-- Merge two sorted lists. Of two members without preference the first list's comes first. -/
def merge (less : Order α ε) : List α → List α → Except ε (List α)
  | [], ys => .ok ys
  | xs, [] => .ok xs
  | x :: xs, y :: ys =>
    match less y x with
    | .error fault => .error fault
    | .ok true => (merge less (x :: xs) ys).map (y :: ·)
    | .ok false => (merge less xs (y :: ys)).map (x :: ·)
termination_by xs ys => xs.length + ys.length

/-- The least length of a run in a list of some length: all of a short list, and otherwise its
length halved, rounded up, until it is short. -/
def leastRun (length : Nat) (odd : Bool) : Nat :=
  if length < 64 then length + (if odd then 1 else 0)
  else leastRun (length / 2) (odd || length % 2 == 1)
termination_by length

/-- Sort a list into what is sorted already, run by run; `runs` bounds the number of runs. -/
def intoSorted (less : Order α ε) (least : Nat) :
    Nat → List α → List α → Except ε (List α)
  | 0, sorted, rest => .ok (sorted ++ rest)
  | _, sorted, [] => .ok sorted
  | runs + 1, sorted, rest => do
    let (down, length) ← run less rest
    let first := if down then (rest.take length).reverse else rest.take length
    let size := max length least
    let first ← ((rest.take size).drop length).foldlM (insert less) first
    intoSorted less least runs (← merge less sorted first) (rest.drop size)

/-- Sort a list. -/
def sort (less : Order α ε) (xs : List α) : Except ε (List α) :=
  intoSorted less (leastRun xs.length false) xs.length [] xs

/-- An inserted member comes to the others. -/
theorem perm_insert {less : Order α ε} {sorted result : List α} {x : α}
    (inserted : insert less sorted x = .ok result) : result.Perm (x :: sorted) := by
  unfold insert at inserted
  cases found : place less x sorted 0 sorted.length with
  | error fault => simp [found, Except.map] at inserted
  | ok i =>
    simp only [found, Except.map, Except.ok.injEq] at inserted
    subst inserted
    have apart : (sorted.take i ++ x :: sorted.drop i).Perm
        (x :: (sorted.take i ++ sorted.drop i)) :=
      List.perm_middle
    rwa [List.take_append_drop] at apart

/-- A merged list has the members of both. -/
theorem perm_merge {less : Order α ε} (xs ys : List α) {result : List α}
    (merged : merge less xs ys = .ok result) : result.Perm (xs ++ ys) := by
  fun_induction merge less xs ys generalizing result with
  | case1 ys => simp_all
  | case2 xs other => simp_all
  | case3 x xs y ys fault refused => simp at merged
  | case4 x xs y ys before ih =>
    cases found : merge less (x :: xs) ys with
    | error fault => simp [found, Except.map] at merged
    | ok rest =>
      simp only [found, Except.map, Except.ok.injEq] at merged
      subst merged
      exact ((ih found).cons y).trans List.perm_middle.symm
  | case5 x xs y ys before ih =>
    cases found : merge less xs (y :: ys) with
    | error fault => simp [found, Except.map] at merged
    | ok rest =>
      simp only [found, Except.map, Except.ok.injEq] at merged
      subst merged
      exact (ih found).cons x

/-- A run that is filled up comes to the members that fill it. -/
theorem perm_foldlM_insert {less : Order α ε} {sorted more result : List α}
    (filled : more.foldlM (insert less) sorted = .ok result) : result.Perm (sorted ++ more) := by
  induction more generalizing sorted with
  | nil =>
    cases filled
    rw [List.append_nil]
  | cons x rest ih =>
    rw [List.foldlM_cons] at filled
    cases inserted : insert less sorted x with
    | error fault => simp [inserted, bind, Except.bind] at filled
    | ok next =>
      rw [inserted] at filled
      have front : (next ++ rest).Perm (x :: sorted ++ rest) := (perm_insert inserted).append_right _
      exact (ih filled).trans (front.trans List.perm_middle.symm)

/-- A run at the front of a list and what fills it up are the front of the list. -/
theorem perm_front (rest : List α) (down : Bool) {length size : Nat} (inside : length ≤ size) :
    ((if down then (rest.take length).reverse else rest.take length) ++
      (rest.take size).drop length).Perm (rest.take size) := by
  have turned : (if down then (rest.take length).reverse else rest.take length).Perm
      ((rest.take size).take length) := by
    rw [List.take_take, Nat.min_eq_left inside]
    split
    · exact List.reverse_perm _
    · rfl
  exact (turned.append_right _).trans (.of_eq (List.take_append_drop _ _))

/-- What is sorted already keeps its members and gains the others, however many runs are left. -/
theorem perm_intoSorted {less : Order α ε} {least runs : Nat} {sorted rest result : List α}
    (done : intoSorted less least runs sorted rest = .ok result) :
    result.Perm (sorted ++ rest) := by
  fun_induction intoSorted less least runs sorted rest with
  | case1 sorted rest =>
    cases done
    rfl
  | case2 runs sorted =>
    cases done
    rw [List.append_nil]
  | case3 runs sorted rest some_left ih =>
    cases found : run less rest with
    | error fault => simp [found, bind, Except.bind] at done
    | ok front =>
      obtain ⟨down, length⟩ := front
      simp only [found, bind, Except.bind] at done
      split at done
      · cases done
      next first filled =>
        split at done
        · cases done
        next merged merges =>
          have size := Nat.le_max_left length least
          have gained : first.Perm (rest.take (max length least)) :=
            (perm_foldlM_insert filled).trans (perm_front rest down size)
          calc
            List.Perm result (merged ++ rest.drop (max length least)) := ih length merged done
            List.Perm _ (sorted ++ first ++ rest.drop (max length least)) :=
              (perm_merge sorted first merges).append_right _
            List.Perm _ (sorted ++ rest.take (max length least) ++ rest.drop (max length least)) :=
              (gained.append_left sorted).append_right _
            _ = sorted ++ rest := by rw [List.append_assoc, List.take_append_drop]

/-- **Nothing is lost or added.** A list that can be sorted has the same members afterwards, each as
often as before. -/
theorem perm_sort {less : Order α ε} {xs result : List α} (sorted : sort less xs = .ok result) :
    result.Perm xs :=
  perm_intoSorted sorted

end Classpath.Sorting
