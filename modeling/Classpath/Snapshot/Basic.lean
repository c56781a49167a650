import Classpath.Schema
import Classpath.Source

/-! # Snapshots

A snapshot is a document that lists classes with their locations and dependencies, as a scanner has
found them. Reading one from a value checks its parts. The snapshot of a source lists the classes in
order, and a snapshot gives the maps of a source again, with relative locations seen from a base
directory.
-/

namespace Classpath

/-- One class of a snapshot. -/
structure ClassRecord where
  location : Option String
  dependencies : List String
deriving DecidableEq, Repr

/-- A document that lists classes. -/
structure Snapshot where
  version : Int
  classes : List (String × ClassRecord)
deriving DecidableEq, Repr

namespace Snapshot

/-- The version of the documents that are read. -/
def currentVersion : Int := 1

/-! ## Reading from a value -/

open Checked

/-- The step to the entry of a key. A key of another kind than text or whole number is written
out where it can be. -/
def stepTo : Value → Step
  | .text s => .field (Text.withoutHalves s)
  | .bool b => .item (if b then 1 else 0)
  | v =>
    match v with
    | .int n => if Schema.fitsWord n then .item n else .field (form v)
    | v => .field (form v)
where
  /-- The written form of a key that is neither text nor small number. -/
  form (v : Value) : String :=
    if v.isUnprintable then "<unprintable " ++ v.kind ++ " object>" else v.written

/-- Read the record of a class. -/
def record : Value → Checked ClassRecord
  | .table entries =>
    let location := Schema.field entries "location" none fun v =>
      match v with
      | .null => .ok none
      | v => (Schema.text v).map some
    let dependencies := Schema.field entries "dependencies" [] (Schema.list Schema.text)
    (both location dependencies).map fun (location, dependencies) => ⟨location, dependencies⟩
  | _ => refuse .notRecord

/-- Read the entry of a class. -/
def entry (key v : Value) : Checked (String × ClassRecord) :=
  under (stepTo key) (both (under (.field "[key]") (Schema.text key)) (record v))

/-- Put an entry into a list of entries: a name that is there keeps its place. -/
def put {α : Type} (entries : List (String × α)) (entry : String × α) : List (String × α) :=
  if entries.any (·.1 == entry.1) then
    entries.map fun old => if old.1 = entry.1 then entry else old
  else entries ++ [entry]

/-- Read a snapshot. Fields that are missing take their usual values, and other fields are passed
over. Keys that are read as one name give one class, as the last of them has it. -/
def ofValue : Value → Checked Snapshot
  | .table entries =>
    let version := Schema.field entries "version" currentVersion Schema.integer
    let classes := Schema.field entries "classes" [] fun v =>
      match v with
      | .table classes => (all (fun (key, v) => entry key v) classes).map (·.foldl put [])
      | _ => refuse .notTable
    (both version classes).map fun (version, classes) => ⟨version, classes⟩
  | _ => refuse .notRecord

/-! ## Maps -/

/-- A location as seen from a base directory. A text with a colon or an absolute path stays. -/
def absolutize (base : Option Path) (location : String) : String :=
  match base with
  | none => location
  | some base =>
    let path := Path.ofText location
    if location.toList.contains ':' || path.isAbsolute then location else (base.join path).text

/-- The maps that a snapshot lists. An empty location counts as none. -/
def toMaps (workingDirectory : Path) (base : Option Path) (s : Snapshot) : Except Fault Maps := do
  let given := s.classes.filterMap fun (name, record) =>
    match record.location with
    | some location => if location.isEmpty then none else some (name, location)
    | none => none
  let locations ← given.mapM fun (name, location) => do
    let spelling := Value.text (absolutize base location)
    return (Name.text name, ← Location.of workingDirectory (.value spelling))
  return {
    dependencies := s.classes.map fun (name, record) =>
      (.text name, Name.distinct (record.dependencies.map .text))
    locations }

/-! ## The snapshot of a source -/

/-- The text that a spelling of a location is listed as. -/
def listedLocation : Location.Spelling → String
  | .location l => l.uri
  | .path p => p.text
  | .value v => v.shown

/-- The members of an answer in order. -/
def sorted (answer : Value) : Except Fault (List Value) :=
  match answer.members? with
  | none => .error (.notIterable answer.kind)
  | some members => Value.sort members

/-- The record of a class as a source answers. -/
def recordOf (s : Source) (name : Value) : Except Failure ClassRecord := do
  let location ← s.location name
  let members ← asked (sorted (← s.dependencies name))
  match under (.field "dependencies") (Schema.list Schema.text (.list members)) with
  | .ok dependencies => return ⟨location.map listedLocation, dependencies⟩
  | .error issues => throw (.fault (.invalid issues))

/-- Put a record under a name: the first of names that are the same stays. -/
def putRecord (records : List (Name × ClassRecord)) (entry : Name × ClassRecord) :
    List (Name × ClassRecord) :=
  if records.any fun old => Name.same entry.1 old.1 then
    records.map fun old => if Name.same entry.1 old.1 then (old.1, entry.2) else old
  else records ++ [entry]

/-- The records under names that are texts; any other name is refused. -/
def named (records : List (Name × ClassRecord)) : Checked (List (String × ClassRecord)) :=
  under (.field "classes") <| all
    (fun (name, record) =>
      (under (stepTo name.toValue) (under (.field "[key]") (Schema.text name.toValue))).map
        (·, record))
    records

/-- The snapshot of a source, with classes and dependencies in order. -/
def ofSource (s : Source) : Except Failure Snapshot := do
  let classes ← asked (sorted (← s.classes))
  let records ← classes.mapM fun name => do
    let record ← recordOf s name
    return (← asked name.asName, record)
  match named (records.foldl putRecord []) with
  | .ok classes => return ⟨currentVersion, classes⟩
  | .error issues => throw (.fault (.invalid issues))

/-! ## Documents -/

/-- The document of a record, with its fields in order. -/
def documentOfRecord (record : ClassRecord) : Value :=
  .table [(.text "dependencies", .list (record.dependencies.map .text)),
    (.text "location", (record.location.map Value.text).getD .null)]

/-- The document of a snapshot, with its fields in order. -/
def toDocument (s : Snapshot) : List (Value × Value) :=
  [(.text "classes", .table (s.classes.map fun (name, record) =>
      (.text name, documentOfRecord record))),
    (.text "version", .int s.version)]

end Snapshot

end Classpath
