import Classpath.Packing.Packer
import Classpath.Request
import Classpath.Selection
import Classpath.Source

/-! # Resolvers

A resolver gathers root classes and exclusions, and runs a request against a source: it builds the
graph anew for each run, resolves the roots and, if asked to, packs the directories among the kept
locations.
-/

namespace Classpath

/-- What names a root class: a name, a class that knows its name, a group of either, or a value of
any other kind. -/
inductive ClassLike where
  | class (module name : String)
  | group (members : List ClassLike)
  | value (v : Value)
deriving Inhabited

/-- The outcome of a run. -/
structure Outcome where
  locations : List Location
  archivesCreated : List Location
  excluded : List Location
  skippedRoots : List Name
  visitedClasses : Nat
deriving DecidableEq, Repr

namespace Outcome

/-- The kept locations by URI. -/
def sortedLocations (o : Outcome) : List Location :=
  Location.sort o.locations

/-- The paths of the kept locations, sorted. -/
def paths (o : Outcome) : Except Fault (List String) :=
  (o.locations.mapM Location.pathText).map Text.sort

end Outcome

/-- Gathered roots and exclusions. Values of the wrong kind are refused when the request is made. -/
structure Resolver where
  packer : Packer := {}
  sourceName : Option String := none
  classNames : List Value := []
  exclusions : List Value := []

namespace Resolver

mutual

/-- What one class goes by: its name, or the value as it is. -/
def nameOf : ClassLike → Value
  | .class module name => .text (module ++ "." ++ name)
  | .value v => v
  | .group members => .list (namesOf members)

/-- What some classes go by. -/
def namesOf : List ClassLike → List Value
  | [] => []
  | item :: rest => nameOf item :: namesOf rest

end

/-- Add a root class or a group of root classes. -/
def withClass (r : Resolver) : ClassLike → Except Fault Resolver
  | .value (.text s) => .ok { r with classNames := r.classNames ++ [.text s] }
  | .class module name =>
    .ok { r with classNames := r.classNames ++ [nameOf (.class module name)] }
  | .group members => .ok { r with classNames := r.classNames ++ namesOf members }
  | .value v =>
    match v.members? with
    | some members => .ok { r with classNames := r.classNames ++ members }
    | none => .error (.notIterable v.kind)

/-- Add root classes one after another. What was added before a refused one stays. -/
def withClasses (r : Resolver) : List ClassLike → Resolver × Option Fault
  | [] => (r, none)
  | item :: rest =>
    match r.withClass item with
    | .ok r => r.withClasses rest
    | .error fault => (r, some fault)

/-- Add exclusions. -/
def excluding (r : Resolver) (exclusions : List Value) : Resolver :=
  { r with exclusions := r.exclusions ++ exclusions }

/-- The request for what has been gathered. -/
def request (r : Resolver) (packDirectories : Value) : Except Fault Request :=
  (Request.ofValue (.table
    [(.text "roots", .list r.classNames), (.text "exclusions", .list r.exclusions),
      (.text "archive_directories", packDirectories)])).mapError .invalid

/-- The classes that a source enumerates and gives no location for. -/
def unlocated (s : Source) : List Name :=
  let enumerated := (s.classes.toOption.bind Value.members?).getD []
  enumerated.filterMap fun v =>
    match s.location v with
    | .ok none => v.asName.toOption
    | _ => none

/-- The notices of building a graph. -/
def graphNotices (label : String) (s : Source) (g : Graph) : List Notice :=
  (unlocated s).map .classUnlocated ++ [.graphBuilt label g.classes.length g.edges.length]

/-- The warning of a resolution that excludes everything. -/
def warning? (resolution : Resolution) (exclusions : List Value) : Option Notice :=
  if resolution.allExcluded then
    some (.allExcluded resolution.closure.locations.length exclusions)
  else none

/-- The notices of a resolution. -/
def resolutionNotices (resolution : Resolution) (exclusions : List Value) : List Notice :=
  resolution.closure.skippedRoots.map .rootSkipped ++
    resolution.selection.dropped.map (fun l => .remoteDropped l.uri) ++
    (warning? resolution exclusions).toList

/-- Run a request against a source. -/
def run (r : Resolver) (s : Source) (request : Request) : Action Outcome := do
  let w ← get
  let g ← Action.ofFailure (Graph.ofSource w.workingDirectory s r.sourceName)
  Action.report (graphNotices (Graph.label s r.sourceName) s g)
  let resolution := Resolution.of g (request.roots.map .text) request.exclusions
  Action.report (resolutionNotices resolution (request.exclusions.map .text))
  let kept := resolution.selection.kept
  let locations ← if request.packDirectories then r.packer.pack kept else pure kept
  let created :=
    if request.packDirectories then locations.filter fun l => !kept.contains l else []
  Action.report
    [.resolved locations.length request.roots.length resolution.closure.visited.length]
  return {
    locations
    archivesCreated := Location.sort created
    excluded := resolution.selection.excluded
    skippedRoots := resolution.closure.skippedRoots
    visitedClasses := resolution.closure.visited.length }

/-- Run the request for what has been gathered. -/
def process (r : Resolver) (s : Source) (packDirectories : Value) : Action Outcome := do
  r.run s (← Action.ofFault (r.request packDirectories))

end Resolver

end Classpath
