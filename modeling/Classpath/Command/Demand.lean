import Classpath.Command.Program

/-! # What a run looks at

A run works on a file tree that is known in advance. What it looks at follows from its arguments,
its settings and its snapshot, each of which may only be known once the one before it is: a tree
that holds all that is demanded of it is complete.
-/

namespace Classpath.Command

/-- What a run demands of its file tree. -/
structure Demand where
  /-- Places that are read by themselves. -/
  files : List Path
  /-- Places that are read with all that is below them. -/
  trees : List Path

/-- What the arguments of a command say about its files. -/
structure Inputs where
  graph : Option String
  config : Option String
  /-- Whether directories are packed, where the command line says so. -/
  archive : Option Bool

/-- The inputs of a run, if its command line fits. -/
def inputs? (arguments : List String) : Option Inputs :=
  match Arguments.part? [versionForm] false arguments with
  | some ⟨[], "resolve" :: rest⟩ =>
    (Arguments.part? Resolve.forms true rest).map fun a =>
      let o := Resolve.Options.ofArguments a
      ⟨o.graph, o.config, o.archive⟩
  | some ⟨[], "stats" :: rest⟩ =>
    (Arguments.part? Stats.forms true rest).map fun a =>
      let o := Stats.Options.ofArguments a
      ⟨o.graph, o.config, some false⟩
  | _ => none

/-- The files in which settings are looked for. -/
def Inputs.settingsFiles (i : Inputs) (w : Workspace) : List Path :=
  match i.config with
  | some file => [.ofText file]
  | none =>
    [w.workingDirectory.child Settings.fileName, w.workingDirectory.child Settings.projectFileName]

/-- The local locations of a snapshot. -/
def localLocations (m : Maps) : List Path :=
  ((m.known.filterMap m.location?).filter Location.isLocal).map Location.filePath

/-- What a run demands, as far as it is known from what the workspace holds already. -/
def demand (w : Workspace) (arguments : List String) : Demand :=
  match inputs? arguments with
  | none => ⟨[], []⟩
  | some i =>
    let settings := ((findSettings i.config).start w).1.toOption
    let configured := settings.bind fun s => s.graph.asText?
    let packs := i.archive.getD
      ((settings.map fun s => !s.archiveDirectories.isEmptyLike).getD false)
    match (i.graph.or configured).map Path.ofText with
    | none => ⟨i.settingsFiles w, []⟩
    | some graph =>
      let maps := (Snapshot.load w.files w.workingDirectory graph).toOption
      ⟨graph :: i.settingsFiles w, if packs then (maps.map localLocations).getD [] else []⟩

/-- How often demands can follow from one another: settings, snapshot, locations. -/
def demandRounds : Nat := 3

end Classpath.Command
