import Classpath.Graph.Basic

/-! # Sources of a class graph

A source answers three questions: which classes there are, where a class resides and what it refers
to. Any of the questions may fail, and an answer may turn out to be of no use. Given here are a
source that looks its answers up in two maps, and the view of a graph as a source.
-/

namespace Classpath

/-- What answers the questions about the scanned classes. A question about a class puts the value
that a source itself has given for the class. -/
structure Source where
  /-- The word for the kind of source, used where it has no label. -/
  kind : String
  /-- The classes, in any order and with repeats. -/
  classes : Except Failure Value
  location : Value → Except Failure (Option Location.Spelling)
  dependencies : Value → Except Failure Value

/-- A question of the library to a value that a source gave. -/
def asked {α : Type} (answer : Except Fault α) : Except Failure α :=
  answer.mapError Failure.fault

/-- A class graph given as two maps. -/
structure Maps where
  dependencies : List (Name × List Name)
  locations : List (Name × Location)
deriving DecidableEq, Repr

namespace Maps

/-- The entries of a table that may be missing. An empty value counts as missing. -/
def entries (v : Value) : Except Fault (List (Value × Value)) :=
  if v.isEmptyLike then .ok []
  else
    match v with
    | .table entries => .ok entries
    | v => .error (.noAttribute v.kind "items")

/-- Read both maps; the dependencies come first. -/
def ofValues (workingDirectory : Path) (dependencies locations : Value) : Except Fault Maps := do
  let dependencies ← (← entries dependencies).mapM fun (name, answer) => do
    return (← name.asName, Name.distinct (← answer.asNames))
  let locations ← (← entries locations).mapM fun (name, spelling) => do
    return (← name.asName, ← Location.of workingDirectory (.value spelling))
  return { dependencies, locations }

/-- The classes that the maps mention. -/
def known (m : Maps) : List Name :=
  Name.distinct
    (m.dependencies.map (·.1) ++ m.locations.map (·.1) ++ m.dependencies.flatMap (·.2))

/-- What a class refers to. -/
def dependenciesOf (m : Maps) (name : Name) : List Name :=
  (m.dependencies.lookup (name.among (m.dependencies.map (·.1)))).getD []

/-- Where a class resides. -/
def location? (m : Maps) (name : Name) : Option Location :=
  m.locations.lookup (name.among (m.locations.map (·.1)))

/-- The maps as a source. -/
def toSource (m : Maps) : Source where
  kind := "MappingGraphSource"
  classes := .ok (.list (m.known.map Name.toValue))
  location name := asked (name.asName.map fun name => (m.location? name).map .location)
  dependencies name :=
    asked (name.asName.map fun name => .list ((m.dependenciesOf name).map Name.toValue))

end Maps

namespace Graph

/-- A graph as a source. -/
def toSource (g : Graph) : Source where
  kind := "DependencyGraph"
  classes := .ok (.list (g.names.map Name.toValue))
  location name := asked (name.asName.map fun name => (g.location? name).map .location)
  dependencies name :=
    asked (name.asName.map fun name => .list ((g.dependencies name).map Name.toValue))

/-- A failure while a source is questioned, as the failure of building the graph. A source that
fails to give a graph itself is quoted as it is. -/
def unavailable (label : String) (failure : Failure) : Failure :=
  match failure.asCause? with
  | none => failure
  | some cause => .graph label cause.message (some cause)

/-- Add the classes of a source one after another, asking for the location of each. -/
def addClasses (workingDirectory : Path) (s : Source) (g : Graph) :
    List Value → Except Failure Graph
  | [] => .ok g
  | answer :: rest => do
    let spelling ← s.location answer
    let name ← asked answer.asName
    match g.addClass workingDirectory name spelling with
    | (g, none) => g.addClasses workingDirectory s rest
    | (_, some fault) => .error (.fault fault)

/-- Add a dependency between classes that values name. The first class is in the graph even when
the second name is refused. -/
def addNamed (g : Graph) (source target : Value) : Graph × Option Fault :=
  match source.asName with
  | .error fault => (g, some fault)
  | .ok source =>
    match target.asName with
    | .error fault => (g.insert source, some fault)
    | .ok target => (g.addDependency source target, none)

/-- Add what a class refers to, one after another. -/
def addDependencies (g : Graph) (name : Name) : List Value → Except Failure Graph
  | [] => .ok g
  | answer :: rest =>
    match g.addNamed name.toValue answer with
    | (g, none) => g.addDependencies name rest
    | (_, some fault) => .error (.fault fault)

/-- Ask a source for the dependencies of some classes, one after another. -/
def addAllDependencies (s : Source) (g : Graph) : List Name → Except Failure Graph
  | [] => .ok g
  | name :: rest => do
    let answer ← s.dependencies name.toValue
    match answer.members? with
    | none => .error (.fault (.notIterable answer.kind))
    | some members => (← g.addDependencies name members).addAllDependencies s rest

/-- The label of a source: its name, or its kind where the name is missing or empty. -/
def label (s : Source) (name : Option String) : String :=
  match name with
  | some name => if name.isEmpty then s.kind else name
  | none => s.kind

/-- Build the graph of a source: first all its classes with their locations, then what each of them
refers to. -/
def ofSource (workingDirectory : Path) (s : Source) (name : Option String) :
    Except Failure Graph :=
  Except.mapError (unavailable (label s name)) do
    let answer ← s.classes
    match answer.members? with
    | none => .error (.fault (.notIterable answer.kind))
    | some members =>
      let g ← empty.addClasses workingDirectory s members
      g.addAllDependencies s g.names

end Graph

end Classpath
