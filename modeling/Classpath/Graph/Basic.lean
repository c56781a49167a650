import Classpath.Location
import Classpath.Name

/-! # Class graphs

A class graph numbers its classes, keeps the numbers of the classes that each one refers to, and
knows where a class resides. Classes get consecutive numbers in the order in which they are first
named, and naming a class again, or by a name that is the same, changes nothing. The main statements
say that the two number maps stay inverse to each other when a class is named.
-/

namespace Classpath

/-- The classes that were scanned, with their numbers, dependencies and locations. -/
structure Graph where
  /-- The number of each class. -/
  numbers : List (Name × Nat)
  /-- The class of each number. -/
  classes : List (Nat × Name)
  /-- Pairs of numbers: the first class depends on the second. -/
  edges : List (Nat × Nat)
  /-- The location of each located class, the latest given. -/
  located : List (Name × Location)
deriving DecidableEq, Repr

namespace Graph

/-- The graph without classes. -/
def empty : Graph := ⟨[], [], [], []⟩

/-- The names of all classes, in the order in which they were first named. -/
def names (g : Graph) : List Name :=
  g.numbers.map (·.1)

/-- The name under which a class is in the graph, if it is. -/
def nameFor (g : Graph) (name : Name) : Name :=
  name.among g.names

/-- The number of a class. -/
def number? (g : Graph) (name : Name) : Option Nat :=
  g.numbers.lookup (g.nameFor name)

/-- The class of a number. -/
def class? (g : Graph) (number : Nat) : Option Name :=
  g.classes.lookup number

/-- Whether a class is in the graph. -/
def contains (g : Graph) (name : Name) : Bool :=
  (g.number? name).isSome

/-- Name a class: a new one gets the next number. -/
def insert (g : Graph) (name : Name) : Graph :=
  match g.number? name with
  | some _ => g
  | none =>
    { g with
      numbers := g.numbers ++ [(name, g.classes.length)]
      classes := g.classes ++ [(g.classes.length, name)] }

/-- Record where a class of the graph resides, instead of what was recorded before. -/
def locate (g : Graph) (name : Name) (location : Location) : Graph :=
  let name := g.nameFor name
  if (g.located.lookup name).isSome then
    { g with
      located := g.located.map fun entry =>
        if entry.1 = name then (name, location) else entry }
  else { g with located := g.located ++ [(name, location)] }

/-- Connect two classes of the graph; connecting them again changes nothing. -/
def connect (g : Graph) (source target : Name) : Graph :=
  match g.number? source, g.number? target with
  | some i, some j => if g.edges.contains (i, j) then g else { g with edges := g.edges ++ [(i, j)] }
  | _, _ => g

/-- Where a class resides. -/
def location? (g : Graph) (name : Name) : Option Location :=
  g.located.lookup (g.nameFor name)

/-- The classes that a class refers to. -/
def dependencies (g : Graph) (name : Name) : List Name :=
  match g.number? name with
  | none => []
  | some i => (g.edges.filter fun edge => edge.1 == i).filterMap fun edge => g.class? edge.2

/-- The locations of all located classes. -/
def locations (g : Graph) : List Location :=
  distinct (g.located.map (·.2))

/-! ## Updates that may be refused -/

/-- Add a class, with a location if one is given. The class is in the graph even when the location
is refused. -/
def addClass (workingDirectory : Path) (g : Graph) (name : Name)
    (spelling : Option Location.Spelling) : Graph × Option Fault :=
  let g := g.insert name
  match spelling with
  | none => (g, none)
  | some spelling =>
    match Location.of workingDirectory spelling with
    | .ok location => (g.locate name location, none)
    | .error fault => (g, some fault)

/-- Add a dependency. Classes that are not in the graph yet come in without location. -/
def addDependency (g : Graph) (source target : Name) : Graph :=
  ((g.insert source).insert target).connect source target

/-! ## Numbers -/

/-- The two maps of the numbers are inverse to each other and number the classes from zero. -/
structure Numbered (g : Graph) : Prop where
  swapped : g.classes = g.numbers.map fun entry => (entry.2, entry.1)
  counted : g.numbers.map (·.2) = List.range g.numbers.length
  named : g.names.Nodup

theorem numbered_empty : empty.Numbered :=
  ⟨rfl, rfl, List.nodup_nil⟩

theorem length_classes {g : Graph} (numbered : g.Numbered) :
    g.classes.length = g.numbers.length := by
  rw [numbered.swapped, List.length_map]

theorem number?_eq_none {g : Graph} {name : Name} (absent : g.number? name = none) :
    name ∉ g.names := by
  intro member
  have chosen : g.nameFor name ∈ g.names := by
    rcases Name.among_mem_or_eq g.names name with inside | itself
    · exact inside
    · exact (congrArg (· ∈ g.names) itself).mpr member
  obtain ⟨entry, present, same⟩ := List.mem_map.mp chosen
  have := List.lookup_eq_none_iff.mp absent entry present
  simp [same] at this

/-- Naming a class keeps the numbers in order. -/
theorem Numbered.insert {g : Graph} (numbered : g.Numbered) (name : Name) :
    (g.insert name).Numbered := by
  unfold Graph.insert
  split
  · exact numbered
  · rename_i absent
    refine ⟨?_, ?_, ?_⟩
    · simp [numbered.swapped]
    · simp [numbered.counted, length_classes numbered, List.range_succ]
    · have fresh : ∀ a ∈ g.names, a ≠ name := fun a member same =>
        number?_eq_none absent (same ▸ member)
      simp only [names, List.map_append, List.map_cons, List.map_nil]
      exact List.nodup_append.mpr ⟨numbered.named, by simp, by simpa [names] using fresh⟩

end Graph

end Classpath
