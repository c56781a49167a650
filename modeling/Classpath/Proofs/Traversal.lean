import Classpath.Closure
import Classpath.Proofs.Graph.View
import Mathlib.Data.List.Perm.Subperm
import Mathlib.Logic.Relation

/-! # What a traversal visits

Each visit takes one class from those to look at and keeps an invariant
(`Classpath.Closure.Invariant`): what is visited or still to be looked at is reached from the roots,
and what a visited class refers to is visited or still to be looked at. A round that visits no new
class leaves none to look at, so the rounds end (`Classpath.Closure.frontier_run_eq_nil`), and then
exactly the classes that a path of at least one step leads to have been visited
(`Classpath.Graph.mem_visited_closure`).
-/

namespace Classpath

open Relation

/-- A class is reached from some roots: a path of at least one step leads to it from a root that the
graph has. -/
def Graph.Reaches (g : Graph) (roots : List Name) (name : Name) : Prop :=
  ∃ root ∈ roots, g.contains root = true ∧
    TransGen (fun source target => target ∈ g.dependencies source) root name

namespace Graph

variable {g : Graph} {roots : List Name}

/-- A class that a reached class refers to is reached. -/
theorem Reaches.step {source target : Name} (reached : g.Reaches roots source)
    (refers : target ∈ g.dependencies source) : g.Reaches roots target := by
  obtain ⟨root, member, known, path⟩ := reached
  exact ⟨root, member, known, path.tail refers⟩

/-- A reached class is in the graph. -/
theorem Reaches.mem_names (numbered : g.Numbered) {name : Name} (reached : g.Reaches roots name) :
    name ∈ g.names := by
  obtain ⟨root, -, -, path⟩ := reached
  cases path with
  | single refers => exact mem_names_of_mem_dependencies numbered refers
  | tail _ refers => exact mem_names_of_mem_dependencies numbered refers

end Graph

namespace Closure

variable {g : Graph} {roots : List Name}

/-- What holds of a traversal whenever `pending` are the classes of the present round that are still
to be looked at. -/
structure Invariant (g : Graph) (roots pending : List Name) (state : State) : Prop where
  apart : state.visited.Nodup
  visitedReached : ∀ name ∈ state.visited, g.Reaches roots name
  pendingReached : ∀ name ∈ pending, g.Reaches roots name
  frontierReached : ∀ name ∈ state.frontier, g.Reaches roots name
  seeded : ∀ name ∈ seeds g roots,
    name ∈ state.visited ∨ name ∈ pending ∨ name ∈ state.frontier
  closed : ∀ source ∈ state.visited, ∀ target ∈ g.dependencies source,
    target ∈ state.visited ∨ target ∈ pending ∨ target ∈ state.frontier
  located : ∀ l, l ∈ state.locations ↔ ∃ name ∈ state.visited, g.location? name = some l
  locatedApart : state.locations.Nodup

theorem mem_seeds {name : Name} :
    name ∈ seeds g roots ↔
      ∃ root ∈ roots, g.contains root = true ∧ name ∈ g.dependencies root := by
  simp [seeds, and_assoc]

/-- When no class is left to look at, exactly the classes that are reached have been visited. -/
theorem Invariant.mem_visited_iff {state : State} (holds : Invariant g roots [] state)
    (done : state.frontier = []) {name : Name} :
    name ∈ state.visited ↔ g.Reaches roots name := by
  refine ⟨holds.visitedReached name, ?_⟩
  rintro ⟨root, given, known, path⟩
  induction path with
  | single refers =>
    have seeded := holds.seeded _ (mem_seeds.mpr ⟨root, given, known, refers⟩)
    simpa [done] using seeded
  | tail _ refers ih =>
    have next := holds.closed _ ih _ refers
    simpa [done] using next

/-- When no class is left to look at, exactly the locations of these classes have been noted. -/
theorem Invariant.mem_locations_iff {state : State} (holds : Invariant g roots [] state)
    (done : state.frontier = []) {l : Location} :
    l ∈ state.locations ↔ ∃ name, g.Reaches roots name ∧ g.location? name = some l := by
  refine (holds.located l).trans (exists_congr fun name => and_congr_left fun _ => ?_)
  exact holds.mem_visited_iff done

/-! ## One visit -/

theorem visit_of_mem {state : State} {name : Name} (visited : name ∈ state.visited) :
    state.visit g name = state := by
  unfold State.visit
  rw [if_pos (List.contains_iff_mem.mpr visited)]

theorem visit_of_not_mem {state : State} {name : Name} (fresh : name ∉ state.visited) :
    state.visit g name =
      { visited := state.visited ++ [name]
        locations := (g.location? name).elim state.locations (adjoin state.locations)
        frontier := distinct (state.frontier ++ g.dependencies name) } := by
  unfold State.visit
  rw [if_neg fun visited => fresh (List.contains_iff_mem.mp visited)]
  cases g.location? name <;> rfl

/-- A class that was visited before is passed over. -/
theorem Invariant.skip {name : Name} {pending : List Name} {state : State}
    (holds : Invariant g roots (name :: pending) state) (visited : name ∈ state.visited) :
    Invariant g roots pending state := by
  have settle : ∀ other, other ∈ state.visited ∨ other ∈ name :: pending ∨ other ∈ state.frontier →
      other ∈ state.visited ∨ other ∈ pending ∨ other ∈ state.frontier := by
    intro other place
    rw [List.mem_cons] at place
    rcases place with before | (rfl | later) | next
    · exact Or.inl before
    · exact Or.inl visited
    · exact Or.inr (Or.inl later)
    · exact Or.inr (Or.inr next)
  exact { holds with
    pendingReached := fun other member => holds.pendingReached other (List.mem_cons_of_mem _ member)
    seeded := fun other member => settle other (holds.seeded other member)
    closed := fun source member target refers =>
      settle target (holds.closed source member target refers) }

/-- A class that is visited for the first time puts what it refers to into the next round. -/
theorem Invariant.enter {name : Name} {pending : List Name} {state : State}
    (holds : Invariant g roots (name :: pending) state) (fresh : name ∉ state.visited) :
    Invariant g roots pending
      { visited := state.visited ++ [name]
        locations := (g.location? name).elim state.locations (adjoin state.locations)
        frontier := distinct (state.frontier ++ g.dependencies name) } := by
  have reached := holds.pendingReached name List.mem_cons_self
  have settle : ∀ other, other ∈ state.visited ∨ other ∈ name :: pending ∨ other ∈ state.frontier →
      other ∈ state.visited ++ [name] ∨ other ∈ pending ∨
        other ∈ distinct (state.frontier ++ g.dependencies name) := by
    intro other place
    simp only [List.mem_cons, List.mem_append, List.not_mem_nil, or_false, mem_distinct]
      at place ⊢
    tauto
  refine ⟨?_, ?_, ?_, ?_, ?_, ?_, ?_, ?_⟩
  · refine List.nodup_append.mpr ⟨holds.apart, by simp, ?_⟩
    intro old before new added same
    rw [List.mem_singleton] at added
    exact fresh (added ▸ same ▸ before)
  · intro other member
    rcases List.mem_append.mp member with before | added
    · exact holds.visitedReached other before
    · rw [List.mem_singleton] at added
      exact added ▸ reached
  · exact fun other member => holds.pendingReached other (List.mem_cons_of_mem _ member)
  · intro other member
    rw [mem_distinct, List.mem_append] at member
    exact member.elim (holds.frontierReached other) fun refers => reached.step refers
  · exact fun other member => settle other (holds.seeded other member)
  · intro source member target refers
    rcases List.mem_append.mp member with before | added
    · exact settle target (holds.closed source before target refers)
    · rw [List.mem_singleton] at added
      subst added
      exact Or.inr (Or.inr (mem_distinct.mpr (List.mem_append_right _ refers)))
  · intro l
    simp only [List.mem_append, List.mem_singleton, or_and_right, exists_or, exists_eq_left,
      ← holds.located]
    cases g.location? name with
    | none => simp
    | some place => simp [mem_adjoin, eq_comm]
  · cases g.location? name with
    | none => exact holds.locatedApart
    | some place => exact nodup_adjoin holds.locatedApart place

/-- A visit keeps the invariant. -/
theorem Invariant.visit {name : Name} {pending : List Name} {state : State}
    (holds : Invariant g roots (name :: pending) state) :
    Invariant g roots pending (state.visit g name) := by
  by_cases visited : name ∈ state.visited
  · rw [visit_of_mem visited]
    exact holds.skip visited
  · rw [visit_of_not_mem visited]
    exact holds.enter visited

theorem Invariant.foldl_visit {pending : List Name} {state : State}
    (holds : Invariant g roots pending state) :
    Invariant g roots [] (pending.foldl (State.visit g) state) := by
  induction pending generalizing state with
  | nil => exact holds
  | cons name rest ih => exact ih holds.visit

/-- Visiting some classes visits a new one, or changes nothing. -/
theorem foldl_visit_eq_or_lt (pending : List Name) (state : State) :
    pending.foldl (State.visit g) state = state ∨
      state.visited.length < (pending.foldl (State.visit g) state).visited.length := by
  induction pending generalizing state with
  | nil => exact Or.inl rfl
  | cons name rest ih =>
    rw [List.foldl_cons]
    by_cases visited : name ∈ state.visited
    · rw [visit_of_mem visited]
      exact ih state
    · have grown : state.visited.length < (state.visit g name).visited.length := by
        simp [visit_of_not_mem visited]
      rcases ih (state.visit g name) with same | more
      · rw [same]
        exact Or.inr grown
      · exact Or.inr (grown.trans more)

/-! ## Rounds -/

/-- Before a round, the classes of the frontier are those to look at. -/
theorem Invariant.begin {state : State} (holds : Invariant g roots [] state) :
    Invariant g roots state.frontier { state with frontier := [] } where
  apart := holds.apart
  visitedReached := holds.visitedReached
  pendingReached := holds.frontierReached
  frontierReached := by simp
  seeded name member := by simpa using holds.seeded name member
  closed source member target refers := by simpa using holds.closed source member target refers
  located := holds.located
  locatedApart := holds.locatedApart

theorem Invariant.round {state : State} (holds : Invariant g roots [] state) :
    Invariant g roots [] (state.round g) :=
  holds.begin.foldl_visit

theorem Invariant.run {state : State} (holds : Invariant g roots [] state) (rounds : Nat) :
    Invariant g roots [] (State.run g rounds state) := by
  induction rounds generalizing state with
  | zero => exact holds
  | succ rounds ih =>
    unfold State.run
    split
    · exact holds
    · exact ih holds.round

theorem Invariant.length_visited_le (numbered : g.Numbered) {state : State}
    (holds : Invariant g roots [] state) : state.visited.length ≤ g.names.length :=
  (List.Nodup.subperm holds.apart fun name member =>
    (holds.visitedReached name member).mem_names numbered).length_le

theorem run_of_frontier_nil {state : State} (done : state.frontier = []) (rounds : Nat) :
    State.run g rounds state = state := by
  cases rounds with
  | zero => rfl
  | succ rounds => simp [State.run, done]

/-- The rounds end: as many rounds as there are classes left to visit, and one, leave no class to
look at. -/
theorem frontier_run_eq_nil (numbered : g.Numbered) {state : State}
    (holds : Invariant g roots [] state) {rounds : Nat}
    (enough : g.names.length + 1 ≤ rounds + state.visited.length) :
    (State.run g rounds state).frontier = [] := by
  induction rounds generalizing state with
  | zero =>
    have bound := holds.length_visited_le numbered
    omega
  | succ rounds ih =>
    unfold State.run
    split
    · rename_i done
      exact List.isEmpty_iff.mp done
    · rcases foldl_visit_eq_or_lt state.frontier { state with frontier := [] } with same | more
      · have nothing : (state.round g).frontier = [] := congrArg State.frontier same
        rw [run_of_frontier_nil nothing]
        exact nothing
      · apply ih holds.round
        change state.visited.length < (state.round g).visited.length at more
        omega

end Closure

/-! ## The closure of some roots -/

namespace Graph

variable {g : Graph} {roots : List Name}

/-- The state in which a traversal from some roots starts. -/
def start (g : Graph) (roots : List Name) : Closure.State :=
  ⟨[], [], Closure.seeds g roots⟩

theorem invariant_start : Closure.Invariant g roots [] (g.start roots) where
  apart := List.nodup_nil
  visitedReached := by simp [start]
  pendingReached := by simp
  frontierReached name member := by
    obtain ⟨root, given, known, refers⟩ := Closure.mem_seeds.mp member
    exact ⟨root, given, known, .single refers⟩
  seeded name member := Or.inr (Or.inr member)
  closed := by simp [start]
  located := by simp [start]
  locatedApart := List.nodup_nil

/-- The state in which a traversal from some roots ends. -/
def finish (g : Graph) (roots : List Name) : Closure.State :=
  .run g (g.classes.length + 1) (g.start roots)

theorem invariant_finish : Closure.Invariant g roots [] (g.finish roots) :=
  invariant_start.run _

theorem closure_eq : g.closure roots =
    ⟨(g.finish roots).visited, (g.finish roots).locations,
      roots.filter fun root => !g.contains root⟩ :=
  rfl

/-- A traversal ends with no class left to look at. -/
theorem frontier_finish (numbered : g.Numbered) : (g.finish roots).frontier = [] := by
  apply Closure.frontier_run_eq_nil numbered invariant_start
  rw [length_classes numbered, names, List.length_map]
  omega

/-- A traversal visits exactly the classes that are reached. -/
theorem mem_visited_closure (numbered : g.Numbered) {name : Name} :
    name ∈ (g.closure roots).visited ↔ g.Reaches roots name :=
  invariant_finish.mem_visited_iff (frontier_finish numbered)

theorem nodup_visited_closure : (g.closure roots).visited.Nodup :=
  invariant_finish.apart

/-- A traversal finds exactly the locations of the classes that are reached. -/
theorem mem_locations_closure (numbered : g.Numbered) {l : Location} :
    l ∈ (g.closure roots).locations ↔
      ∃ name, g.Reaches roots name ∧ g.location? name = some l :=
  invariant_finish.mem_locations_iff (frontier_finish numbered)

end Graph

end Classpath
