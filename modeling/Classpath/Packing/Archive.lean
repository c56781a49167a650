import Classpath.Workspace

/-! # Writing an archive

An archive gets one entry for each regular file below a directory, in the order of the walk. The
file is opened before the walk begins, so that it is empty while its own directory is walked. When
anything on the way is refused, the file is taken away again and the directory is named in the
failure. A time of change that is too late to be stored is noticed only while the entry is being
written, and then what has been written stays.
-/

namespace Classpath.Packing

/-- The first second that an entry can store, the start of 1980. -/
def firstSecond : Int := 315532800

/-- The first second that an entry cannot store any more, the start of 2108. -/
def endSecond : Int := 4354819200

/-- The fault of a time of change. -/
def timeFault? (modified : Int) : Option Fault :=
  if modified < firstSecond then some .tooEarly
  else if endSecond ≤ modified then some .tooLate
  else none

/-- The entries of some files, up to the first whose time of change cannot be stored. -/
def entries : List FileTree.Listed → List Entry × Option Fault
  | [] => ([], none)
  | file :: rest =>
    match timeFault? file.modified with
    | some fault => ([], some fault)
    | none =>
      let (stored, fault) := entries rest
      (⟨file.entryName, file.content.data⟩ :: stored, fault)

/-- The failure of packing a directory. -/
def failure (directory : Path) (fault : Fault) : Failure :=
  .archive directory.text fault.message (some fault)

/-- Give an archive up: the file is taken away if it is there. -/
def giveUp {α : Type} (directory target : Path) (fault : Fault) : Action α := do
  let w ← get
  match w.files.unlink w.workingDirectory target.text with
  | .ok files =>
    set { w with files }
    throw (failure directory fault)
  | .error .noEntry => throw (failure directory fault)
  | .error other => Action.refuse (.file other target.text)

/-- Write the archive of a directory. -/
def write (directory target : Path) : Action Unit := do
  let w ← get
  match w.files.write w.workingDirectory target (.archive []) w.now with
  | .error fault => giveUp directory target fault
  | .ok opened =>
    set { w with files := opened }
    let (files, listingFault) := opened.files w.workingDirectory directory
    let (stored, entryFault) := entries files
    match entryFault.or listingFault with
    | none => fill w target stored
    | some .tooLate =>
      fill w target stored
      Action.refuse .tooLate
    | some fault => giveUp directory target fault
where
  /-- Put the entries into the open file. -/
  fill (w : Workspace) (target : Path) (stored : List Entry) : Action Unit :=
    modify fun current =>
      match current.files.write w.workingDirectory target (.archive stored) w.now with
      | .ok files => { current with files }
      | .error _ => current

end Classpath.Packing
