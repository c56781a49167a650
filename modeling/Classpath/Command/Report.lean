import Classpath.Json.Writer
import Classpath.Settings.Reader
import Classpath.Snapshot.File

/-! # What a command reports

A command ends with an exit code and what it writes to its two outputs. With the option for JSON it
writes one envelope that holds either data or an error. Failures of the library's own are reported;
a fault that comes through as it is ends the program. Common to the commands is also how they find
their settings and the snapshot to work on.
-/

namespace Classpath.Command

/-- How a command ends. -/
structure Report where
  exitCode : Nat
  output : String := ""
  errorOutput : String := ""
  /-- The failure that ended the program. -/
  escaped : Option Failure := none

namespace Report

/-- The command line does not fit the command. -/
def usage : Report :=
  { exitCode := 2 }

/-- The word for a failure of the library's own. -/
def failureWord : Failure → String
  | .graph .. => "GraphUnavailableError"
  | .archive .. => "ArchiveIOError"
  | .settings .. => "ConfigError"
  | .fault _ => "Error"

/-- The envelope of a command. -/
def envelope (command status : String) (data error : Value) : String :=
  Json.indented (.table
    [(.text "command", .text command), (.text "status", .text status), (.text "data", data),
      (.text "error", error)]) ++ "\n"

/-- Report data in an envelope. -/
def ofData (command : String) (data : Value) : Report :=
  { exitCode := 0, output := envelope command "success" data .null }

/-- Report a failure. -/
def ofFailure (command : String) (asJson : Bool) (failure : Failure) : Report :=
  match failure with
  | .fault _ => { exitCode := 1, escaped := some failure }
  | _ =>
    if asJson then
      let error : Value := .table
        [(.text "type", .text (failureWord failure)), (.text "message", .text failure.message)]
      { exitCode := 1, output := envelope command "error" .null error }
    else { exitCode := 1, errorOutput := "❌ " ++ failure.message ++ "\n" }

end Report

/-- A list of texts as a value. -/
def texts (ss : List String) : Value :=
  .list (ss.map .text)

/-- The settings of a named file, or of the working directory where no file is named. -/
def findSettings (config : Option String) : Action Settings := do
  let w ← get
  match config with
  | some file => Action.ofFailure (Settings.load w.files w.workingDirectory (.ofText file))
  | none => Action.ofFailure (Settings.discover w.files w.workingDirectory w.workingDirectory)

/-- Lay the options of a command on top of the settings. -/
def overlay (s : Settings) (overrides : Settings.Overrides) : Action Settings :=
  Action.ofFault (s.merge overrides)

/-- The source in the snapshot that the settings name. -/
def findSource (s : Settings) : Action Source := do
  match s.graph with
  | .null =>
    throw (.graph "<none>"
      "no graph snapshot given; pass --graph or set 'graph' in anchorpack.toml" none)
  | graph =>
    let w ← get
    let path := Path.ofText graph.shown
    let snapshot ← Action.ofFailure (Snapshot.find w.files w.workingDirectory path)
    Action.report [.snapshotLoaded path.text snapshot.classes.length]
    let maps ← Action.ofFault (Snapshot.mapsAt w.files w.workingDirectory path snapshot)
    return maps.toSource

/-- Whether a value fits an option that names a file: a directory does not, and neither does what
does not exist where it has to. -/
def isFile (w : Workspace) (required : Bool) (file : String) : Bool :=
  match w.files.status w.workingDirectory file with
  | .ok (_, node) => !node.isDirectory
  | .error _ => !required

end Classpath.Command
