import Classpath.Command.Resolve
import Classpath.Command.Stats

/-! # The program

The first argument that is no option names the command, and what follows is for the command. Options
before it ask for the version. A command line that does not fit ends with exit code two before
anything is done. Notices are shown as lines of a log: warnings always, all others on request.
-/

namespace Classpath.Command

/-- The version of the program. -/
def version : String := "anchorpack, version 0.1.0"

/-- The form of the option that asks for the version. -/
def versionForm : OptionForm Unit :=
  ⟨(), "version", none, false⟩

/-- How a run of the program ends. -/
structure Run where
  report : Report
  /-- The notices that are shown. -/
  log : List Notice
  workspace : Workspace

/-- The notices of a workspace that are shown. -/
def shown (verbose : Bool) (w : Workspace) : List Notice :=
  if verbose then w.journal else w.journal.filter fun notice => notice.weight = .warning

/-- A run in which nothing is done. -/
def idle (report : Report) (w : Workspace) : Run :=
  ⟨report, [], w⟩

/-- Whether the files that the options name fit. -/
def filesFit (w : Workspace) (graphs configs : List String) : Bool :=
  ((graphs.getLast?.map (isFile w false)).getD true) &&
    ((configs.getLast?.map (isFile w true)).getD true)

/-- Run the command `resolve`. -/
def runResolve (w : Workspace) (arguments : List String) : Run :=
  match Arguments.part? Resolve.forms true arguments with
  | none => idle .usage w
  | some a =>
    if !filesFit w (a.values .graph) (a.values .config) then idle .usage w
    else
      let o := Resolve.Options.ofArguments a
      let (report, after) := Resolve.run o w
      ⟨report, shown o.verbose after, after⟩

/-- Run the command `stats`, which takes no arguments but options. -/
def runStats (w : Workspace) (arguments : List String) : Run :=
  match Arguments.part? Stats.forms true arguments with
  | none => idle .usage w
  | some a =>
    if !filesFit w (a.values .graph) (a.values .config) || !a.rest.isEmpty then idle .usage w
    else
      let (report, after) := Stats.run (.ofArguments a) w
      ⟨report, shown false after, after⟩

/-- Run the program. -/
def run (w : Workspace) (arguments : List String) : Run :=
  match Arguments.part? [versionForm] false arguments with
  | none => idle .usage w
  | some a =>
    if a.has () then idle { exitCode := 0, output := version ++ "\n" } w
    else
      match a.rest with
      | "resolve" :: rest => runResolve w rest
      | "stats" :: rest => runStats w rest
      | _ => idle .usage w

end Classpath.Command
