import Classpath.FileTree.Walk
import Classpath.Location
import Classpath.Notice

/-! # Workspaces

Where the library works: a file tree with a working directory and a directory for temporary files,
the number of temporary directories made so far, those of them that are to be removed at the end,
and the notices given so far. An action may change the workspace, and what it has changed stays
changed when it fails.
-/

namespace Classpath

/-- The state that actions work on. -/
structure Workspace where
  files : FileTree
  workingDirectory : Path
  temporaryDirectory : Path
  /-- The present time, in seconds since 1970. -/
  now : Int
  /-- How many names of temporary directories have been used. -/
  serial : Nat
  /-- The temporary directories to be removed at the end. -/
  registered : List Path
  journal : List Notice

/-- A step that may change the workspace and may fail. -/
abbrev Action (α : Type) := ExceptT Failure (StateM Workspace) α

namespace Action

/-- The outcome of an action and the workspace after it. -/
def start {α : Type} (action : Action α) (w : Workspace) : Except Failure α × Workspace :=
  (ExceptT.run action).run w

/-- Fail with a fault that comes through as it is. -/
def refuse {α : Type} (fault : Fault) : Action α :=
  throw (.fault fault)

/-- Take over an outcome that does not change the workspace. -/
def ofFault {α : Type} : Except Fault α → Action α
  | .ok a => pure a
  | .error fault => refuse fault

/-- Take over an outcome that does not change the workspace. -/
def ofFailure {α : Type} : Except Failure α → Action α
  | .ok a => pure a
  | .error failure => throw failure

/-- Give notices. -/
def report (notices : List Notice) : Action Unit :=
  modify fun w => { w with journal := w.journal ++ notices }

end Action

end Classpath
