import Classpath.Command.Options
import Classpath.Command.Report
import Classpath.Command.Table
import Classpath.Graph.Summary

/-! # The command `stats`

Prints the counts of the graph in a snapshot, as a table or as JSON.
-/

namespace Classpath.Command.Stats

/-- The options of the command. -/
inductive Key where
  | graph
  | config
  | json
deriving DecidableEq

/-- The forms of the options. -/
def forms : List (OptionForm Key) :=
  [⟨.graph, "graph", some 'g', true⟩, ⟨.config, "config", some 'c', true⟩,
    ⟨.json, "json", none, false⟩]

/-- What the command is asked for. -/
structure Options where
  graph : Option String
  config : Option String
  asJson : Bool

/-- What some arguments ask for. -/
def Options.ofArguments (a : Arguments Key) : Options where
  graph := a.last? .graph
  config := a.last? .config
  asJson := a.has .json

/-- The counts of the graph that settings and options name. -/
def perform (o : Options) : Action Graph.Counts := do
  let graph := (o.graph.map fun file => Value.text (Path.ofText file).text).getD .null
  let settings ← overlay (← findSettings o.config) [("graph", graph)]
  let source ← findSource settings
  let w ← get
  let g ← Action.ofFailure (Graph.ofSource w.workingDirectory source (some settings.graph.shown))
  return g.counts

/-- The counts of the schemes, by scheme. -/
def schemes (c : Graph.Counts) : List (String × Nat) :=
  Text.sortOn (·.1) c.schemes

/-- The counts as data. -/
def data (c : Graph.Counts) : Value :=
  .table
    [(.text "total_classes", .int c.classes), (.text "total_dependencies", .int c.dependencies),
      (.text "total_locations", .int c.locations), (.text "unlocated_classes", .int c.unlocated),
      (.text "locations_by_scheme",
        .table ((schemes c).map fun (scheme, n) => (.text scheme, .int n))),
      (.text "orphans", .int c.orphans)]

/-- The counts as a table. -/
def table (c : Graph.Counts) : BoxedTable where
  title := "📊 Dependency Graph"
  titleWidth := 19
  heading := ("Metric", "Value")
  rows :=
    [("Classes", Text.ofInt c.classes), ("Dependencies", Text.ofInt c.dependencies),
      ("Locations", Text.ofInt c.locations), ("Unlocated classes", Text.ofInt c.unlocated)] ++
    (schemes c).map (fun (scheme, n) => ("  " ++ scheme ++ ":", Text.ofInt n)) ++
    [("Orphan classes", Text.ofInt c.orphans)]

/-- Run the command. -/
def run (o : Options) (w : Workspace) : Report × Workspace :=
  let (outcome, w) := (perform o).start w
  match outcome with
  | .ok counts =>
    let report : Report :=
      if o.asJson then .ofData "stats" (data counts)
      else { exitCode := 0, output := (table counts).text }
    (report, w)
  | .error failure => (.ofFailure "stats" o.asJson failure, w)

end Classpath.Command.Stats
