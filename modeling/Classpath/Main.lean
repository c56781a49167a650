import Classpath.Command.Demand

/-! # The program on a real file system

The outer layer: it reads what a run demands of the file system, lets the run happen on that tree,
and prints what the run reports. The archives of a run stand in temporary directories that are
removed when the program ends, so none of them reaches the disk, and of the files below a packed
directory only names and times are read.
-/

namespace Classpath.Command

/-- What stands under a text in the file system. -/
def entryAt (text : String) : IO.FS.DirEntry :=
  ⟨"/", text⟩

/-- The text of a place. -/
def placeText (place : Place) : String :=
  "/" ++ String.intercalate "/" place

/-- Read what stands at a place into a tree: with its bytes or not, and with all that is below or
not. A link is read as a link to the place that it leads to in the end. -/
partial def readPlace (bytes deep : Bool) (place : Place) (t : FileTree) : IO FileTree := do
  let path := (entryAt (placeText place)).path
  match ← path.symlinkMetadata.toBaseIO with
  | .error _ => return t
  | .ok found =>
    match found.type with
    | .dir =>
      let t := if place.isEmpty then t else t.put place .directory
      if deep then
        (← path.readDir).foldlM
          (fun t entry => readPlace bytes true (place ++ [entry.fileName]) t) t
      else return t
    | .symlink =>
      match ← (IO.FS.realPath path).toBaseIO with
      | .error _ => return t
      | .ok target =>
        let real := (Path.ofText target.toString).names
        return (← readPlace bytes false real t).put place (.link (placeText real))
    | .file =>
      let data ← if bytes then pure (← IO.FS.readBinFile path).toList else pure []
      return t.put place (.file (.bytes data) found.modified.sec)
    | .other => return t.put place .pipe

/-- Read what a path leads to, and the places on the way. -/
partial def readAlong (bytes deep : Bool) (place : Place) (names : List String) (t : FileTree) :
    IO FileTree := do
  match names with
  | [] => readPlace bytes deep place t
  | ".." :: rest => readAlong bytes deep place.dropLast rest t
  | name :: rest =>
    let place := place ++ [name]
    let t ← readPlace (bytes && rest.isEmpty) false place t
    match t.node? place with
    | none => return t
    | some (.link target) => readAlong bytes deep [] ((Path.ofText target).names ++ rest) t
    | some _ => readAlong bytes deep place rest t

/-- Read what a path leads to, as seen from the working directory of a workspace. -/
def readPath (bytes deep : Bool) (w : Workspace) (p : Path) : IO Workspace := do
  return { w with
    files := ← readAlong bytes deep [] (w.workingDirectory.join p).names w.files }

/-- The first usable directory for temporary files. -/
def findTemporary (w : Workspace) : IO Workspace := do
  let named ← ["TMPDIR", "TEMP", "TMP"].filterMapM fun name => IO.getEnv name
  let candidates := (named ++ ["/tmp", "/var/tmp", "/usr/tmp"]).map Path.ofText
  let w ← candidates.foldlM (readPath false false) w
  let usable (p : Path) : Bool := ((w.files.isDirectory w.workingDirectory p).toOption).getD false
  return { w with temporaryDirectory := (candidates.find? usable).getD w.workingDirectory }

/-- The workspace of the program before a run, with what the run demands. -/
def prepare (arguments : List String) : IO Workspace := do
  let here := Path.ofText (← IO.currentDir).toString
  let start : Workspace :=
    { files := .empty, workingDirectory := here, temporaryDirectory := here
      now := 0, serial := 0, registered := [], journal := [] }
  let w ← findTemporary (← readPath false false start here)
  (List.range demandRounds).foldlM
    (fun w _ => do
      let demanded := demand w arguments
      let w ← demanded.trees.foldlM (readPath false true) w
      demanded.files.foldlM (readPath true false) w)
    w

/-- Print what a run reports. -/
def printRun (r : Run) : IO Unit := do
  let errors ← IO.getStderr
  r.log.forM fun notice => errors.putStrLn notice.line
  if r.report.exitCode = 2 then
    errors.putStrLn "Usage: anchorpack [--version] (resolve | stats) [OPTIONS] [ANCHORS]..."
  errors.putStr r.report.errorOutput
  IO.print r.report.output
  r.report.escaped.forM fun failure => errors.putStrLn failure.message

end Classpath.Command

open Classpath.Command in
/-- Run the program and end with the exit code of the run. -/
def main (arguments : List String) : IO UInt32 := do
  let finished := run (← prepare arguments) arguments
  printRun finished
  return finished.report.exitCode.toUInt32
