import Classpath.Proofs.Graph.Attempt
import Classpath.Proofs.Traversal

/-! # Each class is expanded once

The classes of a round are a set, which may be looked at in any order. A class that is looked at is
passed over or expanded, and the rounds of a traversal (`Classpath.Closure.Rounds`) tell which
classes they have expanded. These are the visited classes, whatever the order
(`Classpath.Closure.Rounds.visited_eq`). A round that expands no class leaves none to look at, and so
there are never more rounds than classes and one (`Classpath.Graph.rounds_expand_once`).
-/

namespace Classpath

namespace Closure

variable {g : Graph} {roots : List Name}

/-- Expand a class: note its location and queue what it refers to. -/
def State.expand (g : Graph) (state : State) (name : Name) : State where
  visited := state.visited ++ [name]
  locations := (g.location? name).elim state.locations (adjoin state.locations)
  frontier := distinct (state.frontier ++ g.dependencies name)

/-- Classes are looked at one after another, and those of the second list are expanded. -/
inductive Looks (g : Graph) : State → List Name → List Name → State → Prop
  | done (state : State) : Looks g state [] [] state
  | pass {state final : State} {name : Name} {rest expanded : List Name}
      (before : name ∈ state.visited) (later : Looks g state rest expanded final) :
      Looks g state (name :: rest) expanded final
  | expand {state final : State} {name : Name} {rest expanded : List Name}
      (fresh : name ∉ state.visited) (later : Looks g (state.expand g name) rest expanded final) :
      Looks g state (name :: rest) (name :: expanded) final

/-- So many rounds, each of which looks at the classes of its frontier in any order. The classes of
the list are expanded. -/
inductive Rounds (g : Graph) : State → Nat → List Name → State → Prop
  | none (state : State) : Rounds g state 0 [] state
  | round {state between final : State} {n : Nat} {order expanded later : List Name}
      (left : state.frontier ≠ []) (some_order : order.Perm state.frontier)
      (looks : Looks g { state with frontier := [] } order expanded between)
      (rest : Rounds g between n later final) :
      Rounds g state (n + 1) (expanded ++ later) final

/-! ## One round -/

/-- Visiting classes is looking at them. -/
theorem exists_looks (g : Graph) (order : List Name) (state : State) :
    ∃ expanded, Looks g state order expanded (order.foldl (State.visit g) state) := by
  induction order generalizing state with
  | nil => exact ⟨[], .done state⟩
  | cons name rest ih =>
    rw [List.foldl_cons]
    by_cases visited : name ∈ state.visited
    · rw [visit_of_mem visited]
      obtain ⟨expanded, later⟩ := ih state
      exact ⟨expanded, .pass visited later⟩
    · rw [visit_of_not_mem visited]
      obtain ⟨expanded, later⟩ := ih (state.expand g name)
      exact ⟨name :: expanded, .expand visited later⟩

section Looks

variable {state final : State} {order expanded : List Name}

/-- The classes that are expanded come to those that were visited before. -/
theorem Looks.visited_eq (looks : Looks g state order expanded final) :
    final.visited = state.visited ++ expanded := by
  induction looks with
  | done state => rw [List.append_nil]
  | pass _ _ ih => exact ih
  | expand _ _ ih => rw [ih, State.expand, List.append_assoc, List.singleton_append]

/-- Where no class is expanded, nothing changes. -/
theorem Looks.eq_of_nil (looks : Looks g state order [] final) : final = state := by
  generalize none : ([] : List Name) = expanded at looks
  induction looks with
  | done state => rfl
  | pass _ _ ih => exact ih none
  | expand _ _ _ => cases none

theorem Looks.invariant (looks : Looks g state order expanded final)
    (holds : Invariant g roots order state) : Invariant g roots [] final := by
  induction looks with
  | done state => exact holds
  | pass before _ ih => exact ih (holds.skip before)
  | expand fresh _ ih => exact ih (holds.enter fresh)

end Looks

/-- The order of the classes that are to be looked at does not matter. -/
theorem Invariant.perm {pending order : List Name} {state : State}
    (holds : Invariant g roots pending state) (same : order.Perm pending) :
    Invariant g roots order state :=
  { holds with
    pendingReached := fun name member => holds.pendingReached name (same.mem_iff.mp member)
    seeded := fun name member => by simpa only [same.mem_iff] using holds.seeded name member
    closed := fun source member target refers => by
      simpa only [same.mem_iff] using holds.closed source member target refers }

/-! ## All rounds -/

section Rounds

variable {state final : State} {n : Nat} {expanded : List Name}

/-- The classes that some rounds expand come to those that were visited before. -/
theorem Rounds.visited_eq (rounds : Rounds g state n expanded final) :
    final.visited = state.visited ++ expanded := by
  induction rounds with
  | none state => rw [List.append_nil]
  | round _ _ looks _ ih => rw [ih, looks.visited_eq, List.append_assoc]

theorem Rounds.invariant (rounds : Rounds g state n expanded final)
    (holds : Invariant g roots [] state) : Invariant g roots [] final := by
  induction rounds with
  | none state => exact holds
  | round _ some_order looks _ ih => exact ih (looks.invariant (holds.begin.perm some_order))

/-- Every round but the last expands a class. -/
theorem Rounds.le_length (rounds : Rounds g state n expanded final) : n ≤ expanded.length + 1 := by
  induction rounds with
  | none state => exact Nat.zero_le _
  | @round state between final n order first later left some_order looks rest ih =>
    cases first with
    | cons name others =>
      rw [List.length_append, List.length_cons]
      omega
    | nil =>
      cases looks.eq_of_nil
      cases rest with
      | none => exact Nat.le_refl 1
      | round more _ _ _ => exact absurd rfl more

/-- Rounds that visit the classes of each frontier as they are listed. -/
theorem exists_rounds_run (g : Graph) (fuel : Nat) (state : State) :
    ∃ n expanded, Rounds g state n expanded (State.run g fuel state) := by
  induction fuel generalizing state with
  | zero => exact ⟨0, [], .none state⟩
  | succ fuel ih =>
    unfold State.run
    split
    · exact ⟨0, [], .none state⟩
    · rename_i left
      obtain ⟨first, looks⟩ := exists_looks g state.frontier { state with frontier := [] }
      obtain ⟨n, later, rest⟩ := ih (state.round g)
      exact ⟨n + 1, first ++ later, .round (mt List.isEmpty_iff.mpr left) (.refl _) looks rest⟩

/-- A traversal can always go on until no class is left to look at. -/
theorem Invariant.exists_rounds (numbered : g.Numbered) (holds : Invariant g roots [] state) :
    ∃ n expanded final, Rounds g state n expanded final ∧ final.frontier = [] := by
  obtain ⟨n, expanded, rounds⟩ := exists_rounds_run g (g.names.length + 1) state
  exact ⟨n, expanded, _, rounds, frontier_run_eq_nil numbered holds (Nat.le_add_right _ _)⟩

end Rounds

end Closure

namespace Graph

open Closure

variable {g : Graph}

/-- **A traversal ends and expands each class once.** In whatever order the classes of a round are
looked at, there are at most as many rounds as there are classes in the graph and one more, no class
is expanded twice, and the expanded classes are the visited ones. The rounds go on until no class is
left to look at, and then the same classes and locations have been found as in the order in which
they are listed. -/
theorem rounds_expand_once (attempted : g.Attempted) (roots : List Name) :
    (∀ n expanded state, Rounds g (g.start roots) n expanded state →
      n ≤ g.classes.length + 1 ∧ expanded.Nodup ∧
      (∀ name, name ∈ expanded ↔ name ∈ state.visited) ∧
      (∃ m later final, Rounds g state m later final ∧ final.frontier = []) ∧
      (state.frontier = [] →
        (∀ name, name ∈ state.visited ↔ name ∈ (g.closure roots).visited) ∧
        ∀ l, l ∈ state.locations ↔ l ∈ (g.closure roots).locations)) ∧
    ∃ n expanded, Rounds g (g.start roots) n expanded (g.finish roots) ∧
      (g.finish roots).frontier = [] := by
  have numbered := attempted.consistent.numbered
  constructor
  · intro n expanded state rounds
    have holds : Invariant g roots [] state := rounds.invariant invariant_start
    have visited : state.visited = expanded := rounds.visited_eq
    refine ⟨?_, visited ▸ holds.apart, fun name => by rw [visited], holds.exists_rounds numbered,
      fun done => ⟨fun name => ?_, fun l => ?_⟩⟩
    · have few := holds.length_visited_le numbered
      rw [visited, names, List.length_map, ← length_classes numbered] at few
      exact rounds.le_length.trans (Nat.add_le_add_right few 1)
    · rw [holds.mem_visited_iff done, mem_visited_closure numbered]
    · rw [holds.mem_locations_iff done, mem_locations_closure numbered]
  · obtain ⟨n, expanded, rounds⟩ := exists_rounds_run g (g.classes.length + 1) (g.start roots)
    exact ⟨n, expanded, rounds, frontier_finish numbered⟩

/-- Two classes that refer to each other, one of them to itself too, with a root that is given twice
and one that is not known. -/
theorem rounds_expand_once_ring :
    let A : Value := .text "A"
    let B : Value := .text "B"
    let g := (((empty.attempt (.ofText "/w") (.addDependency A B)).1.attempt (.ofText "/w")
      (.addDependency B A)).1.attempt (.ofText "/w") (.addDependency A A)).1
    let roots : List Name := [.text "A", .text "X", .text "A"]
    g.Attempted ∧ ∃ n expanded, Rounds g (g.start roots) n expanded (g.finish roots) ∧
      n ≤ 3 ∧ expanded.Nodup ∧ ∀ name, name ∈ expanded ↔ name ∈ [Name.text "B", .text "A"] := by
  intro A B g roots
  have attempted : g.Attempted := .call (.call (.call .empty _ _) _ _) _ _
  obtain ⟨each, n, expanded, rounds, -⟩ := rounds_expand_once attempted roots
  obtain ⟨few, apart, same, -⟩ := each n expanded _ rounds
  have visited : (g.finish roots).visited = [.text "B", .text "A"] := by decide +kernel
  have count : g.classes.length = 2 := by decide +kernel
  rw [count] at few
  exact ⟨attempted, n, expanded, rounds, few, apart, fun name => visited ▸ same name⟩

end Graph

end Classpath
