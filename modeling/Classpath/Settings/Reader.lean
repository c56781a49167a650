import Classpath.Settings.Basic
import Classpath.Toml.Reader
import Classpath.Value.Order

/-! # Reading settings

Settings come from a table, which a settings file holds under `resolver` and a project file under
`tool` and `anchorpack`. Names that are no settings are refused before anything else. A relative
path to a graph is seen from the directory of the file. A file that is not there gives the standard
settings, and what is wrong with a file or its table is a complaint that names the path.
-/

namespace Classpath.Settings

/-- Whether a value is the name of a setting. -/
def isName (v : Value) : Bool :=
  (v.asText?.bind Setting.ofName?).isSome

/-- The members of a value that are no names of settings; a member that can not be looked up is
refused. -/
def unknownMembers (data : Value) : Except Fault (List Value) :=
  match data.members? with
  | none => .error (.notIterable data.kind)
  | some members =>
    match Value.unhashableItem? members with
    | some kind => .error (.unhashable kind)
    | none => .ok (distinct (members.filter fun v => !isName v))

/-- The fault of names that are no settings. Texts are told in order, and a value of any other kind
is a fault of its own. -/
def unknownFault (unknown : List Value) : Fault :=
  match Value.sort unknown with
  | .error fault => fault
  | .ok sorted =>
    match sorted.find? fun v => v.asText?.isNone with
    | some v => .notText v.kind
    | none => .unknownSettings (sorted.filterMap Value.asText?)

/-- The path to a graph. -/
def graphPath (base : Option Path) : Value → Except Fault Value
  | .null => .ok .null
  | .text s =>
    let path := Path.ofText s
    .ok (.text ((base.map (·.join path)).getD path).text)
  | v => .error (.notPath v.plainKind)

/-- The members of a value as a list. -/
def listed (v : Value) : Except Fault Value :=
  match v.members? with
  | some members => .ok (.list members)
  | none => .error (.notIterable v.kind)

/-- A truth value, and nothing else. -/
def expectTruth (setting : Setting) : Value → Except Fault Value
  | .bool b => .ok (.bool b)
  | v => .error (if v.isUnprintable then .longNumber else .notTruth setting.name v)

/-- The whole number of a numeral or of a number, whose fraction is dropped. -/
def wholeNumber : Value → Except Fault Value
  | .int n => .ok (.int n)
  | .bool b => .ok (.int (if b then 1 else 0))
  | .float x =>
    match x, x.truncate? with
    | _, some n => .ok (.int n)
    | .infinite _, none => .error .infinityToInteger
    | _, none => .error .nanToInteger
  | .text s =>
    match Text.readWhole 10 s.toList with
    | .ok n => .ok (.int n)
    | .error .malformed => .error (.notNumeral 10 s)
    | .error (.tooLong digits) => .error (.longNumeral digits)
  | v => .error (.notNumber v.kind)

/-- The settings of a table. -/
def ofTable (base : Option Path) (entries : List (Value × Value)) : Except Fault Settings := do
  let given (setting : Setting) : Value :=
    (Value.field? entries setting.name).getD (standard.get setting)
  let graph ← graphPath base (given .graph)
  let anchors ← listed (given .anchors)
  let exclusions ← listed (given .exclusions)
  let archiveDirectories ← expectTruth .archiveDirectories (given .archiveDirectories)
  let maxWorkers ← wholeNumber (given .maxWorkers)
  return {
    anchors, exclusions, graph, archiveDirectories, maxWorkers
    archiveSuffix := given .archiveSuffix
    archiveExtension := given .archiveExtension
    temporaryName := given .temporaryName }

/-- The settings of a value. -/
def ofValue (base : Option Path) (data : Value) : Except Fault Settings := do
  let unknown ← unknownMembers data
  if !unknown.isEmpty then .error (unknownFault unknown)
  else
    match data with
    | .table entries => ofTable base entries
    | data => .error (.noAttribute data.kind "get")

/-! ## Files -/

/-- The name of a settings file. -/
def fileName : String := "anchorpack.toml"

/-- The name of a project file. -/
def projectFileName : String := "pyproject.toml"

/-- The part of a document that holds the settings. -/
def sectionOf (path : Path) (document : List (Value × Value)) : Except Fault Value :=
  if path.name = projectFileName then
    match (Value.field? document "tool").getD (.table []) with
    | .table tool => .ok ((Value.field? tool "anchorpack").getD (.table []))
    | v => .error (.noAttribute v.kind "get")
  else .ok ((Value.field? document "resolver").getD (.table []))

/-- Whether a fault of a table is a complaint about its file. Some come through as they are. -/
def isComplaint : Fault → Bool
  | .noAttribute .. | .infinityToInteger => false
  | _ => true

/-- The failure of loading a file. -/
def refusal (path : Path) (fault : Fault) : Failure :=
  .settings path.text fault.message (some fault)

/-- Whether a fault of a text is a complaint about its file. Some come through as they are. -/
def isTextComplaint : Fault → Bool
  | .malformed .toml => true
  | _ => false

/-- The document of the file at a path. A text that is not UTF-8 comes through as it is. -/
def documentAt (files : FileTree) (workingDirectory path : Path) :
    Except Failure (List (Value × Value)) := do
  let data ← (files.read workingDirectory path).mapError (refusal path)
  match Text.ofUtf8? data with
  | none => .error (.fault (.malformed .utf8))
  | some cs => (Toml.read cs).mapError fun fault =>
    if isTextComplaint fault then refusal path fault else .fault fault

/-- The settings of the file at a path. -/
def load (files : FileTree) (workingDirectory path : Path) : Except Failure Settings := do
  let found ← (files.exists? workingDirectory path).mapError Failure.fault
  if !found then return standard
  else
    let document ← documentAt files workingDirectory path
    let part ← (sectionOf path document).mapError Failure.fault
    let base := files.resolved workingDirectory path.parent
    (ofValue (some base) part).mapError fun fault =>
      if isComplaint fault then refusal path fault else .fault fault

/-- The settings of the first file in a directory: the settings file or else the project file. -/
def discover (files : FileTree) (workingDirectory directory : Path) : Except Failure Settings := do
  let own := directory.child fileName
  if ← (files.exists? workingDirectory own).mapError Failure.fault then
    load files workingDirectory own
  else
    let project := directory.child projectFileName
    if ← (files.exists? workingDirectory project).mapError Failure.fault then
      load files workingDirectory project
    else return standard

end Classpath.Settings
