import Classpath.Name

/-! # Notices

What the library reports on its way, beside its results. Only warnings are shown unless more is
asked for. A notice names the part of the program that gives it, its weight and its wording.
-/

namespace Classpath

/-- How weighty a notice is. -/
inductive Weight where
  | debug
  | info
  | warning
deriving DecidableEq, Repr

/-- What the library reports. -/
inductive Notice where
  | snapshotLoaded (path : String) (classes : Nat)
  | classUnlocated (name : Name)
  | graphBuilt (label : String) (classes dependencies : Nat)
  | rootSkipped (name : Name)
  | remoteDropped (uri : String)
  | allExcluded (count : Nat) (exclusions : List Value)
  | packed (directory archive : String)
  | resolved (locations roots visited : Nat)
deriving Repr

namespace Notice

/-- The weight of a notice. -/
def weight : Notice → Weight
  | .allExcluded .. => .warning
  | .packed .. | .resolved .. => .info
  | _ => .debug

/-- The part of the program that gives a notice. -/
def channel : Notice → String
  | .snapshotLoaded .. => "anchorpack.core.snapshot"
  | .classUnlocated .. | .graphBuilt .. => "anchorpack.core.graph"
  | .packed .. => "anchorpack.core.archiver"
  | _ => "anchorpack.core.resolver"

/-- The wording of a notice. -/
def message : Notice → String
  | .snapshotLoaded path classes =>
    "Loaded snapshot " ++ path ++ " with " ++ Text.ofInt classes ++ " classes"
  | .classUnlocated name =>
    "No artifact location for " ++ name.shown ++ "; traversed but not recorded"
  | .graphBuilt label classes dependencies =>
    "Built dependency graph from " ++ label ++ ": " ++ Text.ofInt classes ++ " classes, " ++
      Text.ofInt dependencies ++ " dependencies"
  | .rootSkipped name => "Root class " ++ name.shown ++ " not present in dependency graph; skipping"
  | .remoteDropped uri => "Dropping non-local location " ++ uri
  | .allExcluded count exclusions =>
    "All " ++ Text.ofInt count ++ " resolved locations were excluded by " ++
      (Value.list exclusions).written
  | .packed directory archive => "Archived " ++ directory ++ " -> " ++ archive
  | .resolved locations roots visited =>
    "Resolved " ++ Text.ofInt locations ++ " artifact locations from " ++
      (if roots = 0 then "all" else Text.ofInt roots) ++ " root classes (" ++
      Text.ofInt visited ++ " classes visited)"

/-- The word for a weight. -/
def weightWord : Weight → String
  | .debug => "DEBUG"
  | .info => "INFO"
  | .warning => "WARNING"

/-- The line of a notice in a log. -/
def line (n : Notice) : String :=
  weightWord n.weight ++ " " ++ n.channel ++ ": " ++ n.message

end Notice

end Classpath
