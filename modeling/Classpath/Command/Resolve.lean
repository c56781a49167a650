import Classpath.Command.Options
import Classpath.Command.Report
import Classpath.Resolver

/-! # The command `resolve`

Prints the paths of the artifacts that the anchors depend on, one on a line, and a summary beside
them; or all that is known about the run as JSON.
-/

namespace Classpath.Command.Resolve

/-- The options of the command. -/
inductive Key where
  | graph
  | exclude
  | archive
  | noArchive
  | config
  | json
  | verbose
deriving DecidableEq

/-- The forms of the options. -/
def forms : List (OptionForm Key) :=
  [⟨.graph, "graph", some 'g', true⟩, ⟨.exclude, "exclude", some 'e', true⟩,
    ⟨.archive, "archive", none, false⟩, ⟨.noArchive, "no-archive", none, false⟩,
    ⟨.config, "config", some 'c', true⟩, ⟨.json, "json", none, false⟩,
    ⟨.verbose, "verbose", some 'v', false⟩]

/-- What the command is asked for. -/
structure Options where
  anchors : List String
  exclusions : List String
  graph : Option String
  /-- Whether directories are packed, where the command line says so. -/
  archive : Option Bool
  config : Option String
  asJson : Bool
  verbose : Bool

/-- What some arguments ask for. Of the two options on packing the last one counts. -/
def Options.ofArguments (a : Arguments Key) : Options where
  anchors := a.rest
  exclusions := a.values .exclude
  graph := a.last? .graph
  archive :=
    (a.options.findRev? fun found => found.1 == .archive || found.1 == .noArchive).map
      fun found => found.1 == .archive
  config := a.last? .config
  asJson := a.has .json
  verbose := a.has .verbose

/-- The layer that the command line puts on top of the settings. -/
def Options.overrides (o : Options) : Settings.Overrides :=
  [("anchors", texts o.anchors), ("exclusions", texts o.exclusions),
    ("graph", (o.graph.map fun file => Value.text (Path.ofText file).text).getD .null),
    ("archive_directories", (o.archive.map Value.bool).getD .null)]

/-- Run the resolution that settings and options ask for. -/
def perform (o : Options) : Action (Settings × Outcome) := do
  let settings ← overlay (← findSettings o.config) o.overrides
  let source ← findSource settings
  let packer ← Action.ofFault settings.packer
  let resolver : Resolver :=
    { packer
      sourceName := some settings.graph.shown
      classNames := (settings.anchors.members?).getD []
      exclusions := (settings.exclusions.members?).getD [] }
  return (settings, ← resolver.process source settings.archiveDirectories)

/-- The data of a run. -/
def data (settings : Settings) (o : Outcome) (paths : List String) : Value :=
  let uris (locations : List Location) : Value := texts (locations.map (·.uri))
  .table
    [(.text "anchors", settings.anchors), (.text "paths", texts paths),
      (.text "locations", uris o.sortedLocations),
      (.text "archives_created", uris o.archivesCreated),
      (.text "excluded", uris (Location.sort o.excluded)),
      (.text "skipped_roots", .list (o.skippedRoots.map Name.toValue)),
      (.text "visited_classes", .int o.visitedClasses)]

/-- The summary of a run. -/
def summary (o : Outcome) : String :=
  Text.ofInt o.locations.length ++ " artifact(s) resolved" ++
    (if o.archivesCreated.isEmpty then ""
    else ", " ++ Text.ofInt o.archivesCreated.length ++ " archive(s) built from directories")

/-- Lines of a text. -/
def lines (ss : List String) : String :=
  String.join (ss.map (· ++ "\n"))

/-- Report a run. -/
def report (asJson : Bool) (settings : Settings) (o : Outcome) : Report :=
  match o.paths with
  | .error fault => .ofFailure "resolve" asJson (.fault fault)
  | .ok paths =>
    if asJson then .ofData "resolve" (data settings o paths)
    else
      { exitCode := 0
        output := lines paths
        errorOutput :=
          lines (o.skippedRoots.map fun name => "⚠️  Anchor not found in graph: " ++ name.shown) ++
            "✅ " ++ summary o ++ "\n" }

/-- Run the command. -/
def run (o : Options) (w : Workspace) : Report × Workspace :=
  let (outcome, w) := (perform o).start w
  match outcome with
  | .ok (settings, outcome) => (report o.asJson settings outcome, w)
  | .error failure => (.ofFailure "resolve" o.asJson failure, w)

end Classpath.Command.Resolve
