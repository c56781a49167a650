import Classpath.Graph.Basic

/-! # Summaries of a class graph

The listing of a graph shows every class in order with its location and its sorted dependencies. The
counts of a graph tell how many classes, dependencies and locations it has, how many classes have no
location and how many neither have nor are a dependency.
-/

namespace Classpath.Graph

/-- A class in the listing of a graph. -/
structure Listing where
  name : Name
  location : Option Location
  dependencies : List Name
deriving DecidableEq, Repr

/-- The listing of a graph, by class name. Names without order are refused. -/
def listing (g : Graph) : Except Fault (List Listing) := do
  (← Name.sort g.names).mapM fun name => do
    return ⟨name, g.location? name, ← Name.sort (g.dependencies name)⟩

/-- The counts of a graph. -/
structure Counts where
  classes : Nat
  dependencies : Nat
  locations : Nat
  unlocated : Nat
  /-- The located classes by the scheme of their location, by first occurrence. -/
  schemes : List (String × Nat)
  orphans : Nat
deriving DecidableEq, Repr

/-- Whether a number is on no edge. -/
def isOrphan (g : Graph) (number : Nat) : Bool :=
  g.edges.all fun edge => edge.1 != number && edge.2 != number

/-- The counts of a graph. -/
def counts (g : Graph) : Counts :=
  let schemes := g.located.map fun entry => entry.2.scheme
  { classes := g.classes.length
    dependencies := g.edges.length
    locations := g.locations.length
    unlocated := g.classes.length - g.located.length
    schemes := (distinct schemes).map fun scheme => (scheme, schemes.count scheme)
    orphans := (g.classes.filter fun entry => g.isOrphan entry.1).length }

end Classpath.Graph
