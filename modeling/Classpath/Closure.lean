import Classpath.Graph.Basic

/-! # Closure of a class graph

The traversal starts from what the roots refer to and goes on, round by round, to what the classes
of the last round refer to. A class is visited once. The roots themselves are visited only when
something leads to them. There are never more rounds than classes and one, because every round but
the last visits a new class.
-/

namespace Classpath

/-- What a traversal has found. -/
structure Closure where
  /-- The visited classes, in the order in which they were visited. -/
  visited : List Name
  /-- The locations of the visited classes. -/
  locations : List Location
  /-- The roots that the graph does not have, as they were given and with repeats. -/
  skippedRoots : List Name
deriving DecidableEq, Repr

namespace Closure

/-- What a traversal has found so far, and the classes to look at next. -/
structure State where
  visited : List Name
  locations : List Location
  frontier : List Name
deriving DecidableEq, Repr

/-- Visit a class: note its location and queue what it refers to. -/
def State.visit (g : Graph) (state : State) (name : Name) : State :=
  if state.visited.contains name then state
  else
    { visited := state.visited ++ [name]
      locations :=
        match g.location? name with
        | some location =>
          if state.locations.contains location then state.locations
          else state.locations ++ [location]
        | none => state.locations
      frontier := distinct (state.frontier ++ g.dependencies name) }

/-- One round: visit the classes of the frontier, in its order. -/
def State.round (g : Graph) (state : State) : State :=
  state.frontier.foldl (State.visit g) { state with frontier := [] }

/-- Go on until no class is left to look at. -/
def State.run (g : Graph) : Nat → State → State
  | 0, state => state
  | rounds + 1, state =>
    if state.frontier.isEmpty then state else State.run g rounds (state.round g)

/-- The classes that the known roots refer to. -/
def seeds (g : Graph) (roots : List Name) : List Name :=
  distinct ((roots.filter g.contains).flatMap g.dependencies)

end Closure

/-- The closure of some roots. -/
def Graph.closure (g : Graph) (roots : List Name) : Closure :=
  let last := Closure.State.run g (g.classes.length + 1) ⟨[], [], Closure.seeds g roots⟩
  { visited := last.visited
    locations := last.locations
    skippedRoots := roots.filter fun root => !g.contains root }

/-- The whole graph, which stands in for a closure when there are no roots. -/
def Graph.everything (g : Graph) : Closure :=
  ⟨g.names, g.locations, []⟩

end Classpath
