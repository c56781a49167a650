import Classpath.Packing.Packer

/-! # Settings

What a resolution is configured with. A setting holds whatever its table gave where its kind is not
checked when the table is read, so every setting is a value. Overrides are layered on top: a list is
extended by what it does not hold yet, any other setting is replaced, and an override that is
nothing is passed over.
-/

namespace Classpath

/-- The settings there are. -/
inductive Setting where
  | anchors
  | exclusions
  | graph
  | archiveDirectories
  | archiveSuffix
  | archiveExtension
  | temporaryName
  | maxWorkers
deriving DecidableEq, Repr

namespace Setting

/-- All settings, in their order. -/
def all : List Setting :=
  [.anchors, .exclusions, .graph, .archiveDirectories, .archiveSuffix, .archiveExtension,
    .temporaryName, .maxWorkers]

/-- The name of a setting in a table. -/
def name : Setting → String
  | .anchors => "anchors"
  | .exclusions => "exclusions"
  | .graph => "graph"
  | .archiveDirectories => "archive_directories"
  | .archiveSuffix => "archive_suffix"
  | .archiveExtension => "archive_extension"
  | .temporaryName => "temp_prefix"
  | .maxWorkers => "max_workers"

/-- The setting of a name. -/
def ofName? (name : String) : Option Setting :=
  all.find? fun setting => setting.name = name

theorem ofName?_name (setting : Setting) : ofName? setting.name = some setting := by
  cases setting <;> decide

end Setting

/-- A value for every setting. -/
structure Settings where
  anchors : Value
  exclusions : Value
  graph : Value
  archiveDirectories : Value
  archiveSuffix : Value
  archiveExtension : Value
  temporaryName : Value
  maxWorkers : Value

namespace Settings

/-- The settings where nothing is configured. -/
def standard : Settings where
  anchors := .list []
  exclusions := .list []
  graph := .null
  archiveDirectories := .bool false
  archiveSuffix := .text "-dir"
  archiveExtension := .text ".jar"
  temporaryName := .text "dependency-resolver"
  maxWorkers := .int 1

/-- The value of a setting. -/
def get (s : Settings) : Setting → Value
  | .anchors => s.anchors
  | .exclusions => s.exclusions
  | .graph => s.graph
  | .archiveDirectories => s.archiveDirectories
  | .archiveSuffix => s.archiveSuffix
  | .archiveExtension => s.archiveExtension
  | .temporaryName => s.temporaryName
  | .maxWorkers => s.maxWorkers

/-- Give a setting another value. -/
def set (s : Settings) (setting : Setting) (v : Value) : Settings :=
  match setting with
  | .anchors => { s with anchors := v }
  | .exclusions => { s with exclusions := v }
  | .graph => { s with graph := v }
  | .archiveDirectories => { s with archiveDirectories := v }
  | .archiveSuffix => { s with archiveSuffix := v }
  | .archiveExtension => { s with archiveExtension := v }
  | .temporaryName => { s with temporaryName := v }
  | .maxWorkers => { s with maxWorkers := v }

@[simp] theorem get_set_self (s : Settings) (setting : Setting) (v : Value) :
    (s.set setting v).get setting = v := by
  cases setting <;> rfl

theorem get_set_of_ne (s : Settings) {setting other : Setting} (v : Value)
    (apart : other ≠ setting) : (s.set setting v).get other = s.get other := by
  cases setting <;> cases other <;> first | rfl | exact absurd rfl apart

/-! ## Layers -/

/-- A layer of overrides, by name. -/
abbrev Overrides := List (String × Value)

/-- What a setting becomes under an override. -/
def overridden (current override : Value) : Except Fault Value :=
  match current with
  | .list items =>
    match override.members? with
    | some more => .ok (.list (items ++ more.filter fun v => !items.contains v))
    | none => .error (.notIterable override.kind)
  | _ => .ok override

/-- The names that settings answer to although they are no settings: what can be done with them, and
what every record has. -/
def usedNames : List String :=
  ["merge", "create_archiver", "from_dict", "load", "discover", "__annotations__", "__class__",
    "__dataclass_fields__", "__dataclass_params__", "__delattr__", "__dict__", "__dir__", "__doc__",
    "__eq__", "__format__", "__ge__", "__getattribute__", "__getstate__", "__gt__", "__hash__",
    "__init__", "__init_subclass__", "__le__", "__lt__", "__match_args__", "__module__", "__ne__",
    "__new__", "__reduce__", "__reduce_ex__", "__repr__", "__setattr__", "__sizeof__", "__str__",
    "__subclasshook__", "__weakref__"]

/-- What a layer asks for: the changes of settings, and the names that are in use for something
else. -/
structure Changes where
  settings : List (Setting × Value)
  misused : List String

/-- The changes that a layer asks for. Every one is made against the settings as they were. -/
def changes (s : Settings) : Overrides → Except Fault Changes
  | [] => .ok ⟨[], []⟩
  | (_, .null) :: rest => s.changes rest
  | (name, v) :: rest =>
    match Setting.ofName? name with
    | some setting => do
      let changed ← overridden (s.get setting) v
      let others ← s.changes rest
      return { others with settings := (setting, changed) :: others.settings }
    | none =>
      if usedNames.contains name then
        (s.changes rest).map fun others => { others with misused := name :: others.misused }
      else .error (.unknownSetting name)

/-- The name by which a layer would name the settings themselves. -/
def ownName : String := "self"

/-- Lay overrides on top of settings. -/
def merge (s : Settings) (overrides : Overrides) : Except Fault Settings :=
  if overrides.any fun override => override.1 = ownName then .error .ownName
  else
    match s.changes overrides with
    | .error fault => .error fault
    | .ok ⟨changes, []⟩ =>
      .ok (changes.foldl (fun settings change => settings.set change.1 change.2) s)
    | .ok ⟨_, name :: _⟩ => .error (.usedName name)

/-- The packer that the settings ask for. -/
def packer (s : Settings) : Except Fault Packer :=
  Packer.checked
    { ending := s.archiveSuffix, extension := s.archiveExtension
      temporaryName := s.temporaryName, workers := s.maxWorkers }

end Settings

end Classpath
