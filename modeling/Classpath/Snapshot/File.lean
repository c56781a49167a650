import Classpath.Json.Reader
import Classpath.Json.Writer
import Classpath.Snapshot.Basic
import Classpath.Workspace
import Classpath.Yaml.Reader
import Classpath.Yaml.Writer

/-! # Snapshot files

A snapshot file is YAML when its name ends in `.yaml` or `.yml`, in any case, and JSON otherwise.
Loading one gives the maps of its classes, and every complaint about the file names its path. The
locations of the loaded maps are seen from the directory of the file.
-/

namespace Classpath.Snapshot

/-- The formats of a snapshot file. -/
inductive FileFormat where
  | json
  | yaml
deriving DecidableEq, Repr

/-- The format that the name of a file gives. -/
def FileFormat.ofPath (p : Path) : FileFormat :=
  let suffix := String.ofList (p.suffix.toList.map Char.toLower)
  if suffix = ".yaml" || suffix = ".yml" then .yaml else .json

/-- Read every end of a line as a line feed. -/
def lineFeeds : List Char → List Char
  | '\r' :: '\n' :: rest => '\n' :: lineFeeds rest
  | '\r' :: rest => '\n' :: lineFeeds rest
  | c :: rest => c :: lineFeeds rest
  | [] => []

/-- The text of a file. -/
def textOf (data : List UInt8) : Except Fault String :=
  match Text.ofUtf8? data with
  | some cs => .ok (String.ofList (lineFeeds cs))
  | none => .error (.malformed .utf8)

/-- How deep a document is read: what it holds is looked at no deeper than the dependencies of a
class. -/
def depth : Nat := 5

/-- The document of a text. An empty YAML document counts as an empty table. -/
def parse (format : FileFormat) (text : String) : Except Fault Value :=
  match format with
  | .json => Json.read text
  | .yaml => (Yaml.read depth text).map fun v => if v.isEmptyLike then .table [] else v

/-- The text of a document. -/
def print (format : FileFormat) (document : List (Value × Value)) : String :=
  match format with
  | .json => Json.indented (.table document)
  | .yaml => Yaml.write document

/-- Whether a fault while a file is read and parsed is a complaint about the file. Some faults of a
document come through as they are. -/
def isComplaint : Fault → Bool
  | .missingKey _ | .noAttribute .. | .emptyText | .notSearchable _ | .tooGreat | .hugeCharacter
  | .tooDeep => false
  | _ => true

/-- The failure of loading a file. -/
def refusal (path : Path) (message : String) (cause : Option Fault) : Failure :=
  .graph path.text message cause

/-- The document of the file at a path. -/
def documentAt (files : FileTree) (workingDirectory path : Path) : Except Failure Value :=
  let document : Except Fault Value := do
    let text ← textOf (← files.read workingDirectory path)
    parse (.ofPath path) text
  document.mapError fun fault =>
    if isComplaint fault then
      refusal path ("cannot parse snapshot: " ++ fault.message) (some fault)
    else .fault fault

/-- The snapshot that a document holds, in the version that is read. A version that cannot be
written comes through as a fault. -/
def checked (path : Path) (document : Value) : Except Failure Snapshot :=
  match ofValue document with
  | .error issues =>
    let fault := Fault.invalid issues
    .error (refusal path ("invalid snapshot: " ++ fault.message) (some fault))
  | .ok s =>
    if s.version = currentVersion then .ok s
    else if Text.isTooLong s.version then .error (.fault .longNumber)
    else
      .error (refusal path ("unsupported snapshot version " ++ Text.ofInt s.version ++
        " (expected " ++ Text.ofInt currentVersion ++ ")") none)

/-- The snapshot in the file at a path. -/
def find (files : FileTree) (workingDirectory path : Path) : Except Failure Snapshot := do
  let found ← (files.exists? workingDirectory path).mapError Failure.fault
  if found then checked path (← documentAt files workingDirectory path)
  else .error (refusal path "snapshot file not found" none)

/-- The maps of a snapshot that stands in the file at a path. -/
def mapsAt (files : FileTree) (workingDirectory path : Path) (s : Snapshot) :
    Except Fault Maps :=
  s.toMaps workingDirectory (some (files.resolved workingDirectory path.parent))

/-- The maps of the snapshot file at a path. -/
def load (files : FileTree) (workingDirectory path : Path) : Except Failure Maps := do
  let s ← find files workingDirectory path
  (mapsAt files workingDirectory path s).mapError Failure.fault

/-- Write a source as a snapshot file. -/
def dump (s : Source) (path : Path) : Action Unit := do
  let snapshot ← Action.ofFailure (ofSource s)
  let text := print (.ofPath path) snapshot.toDocument
  let w ← get
  let files ← Action.ofFault
    (w.files.write w.workingDirectory path (.bytes (Text.utf8 text)) w.now)
  set { w with files }

end Classpath.Snapshot
