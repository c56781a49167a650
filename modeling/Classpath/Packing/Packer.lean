import Classpath.Packing.Archive

/-! # Packing directories

A packer replaces the directories among some locations by archives. Their names are planned before
anything is written: a name that is used again gets a number. All archives of one call stand in one
fresh temporary directory, and without directories nothing is written at all. The attributes of a
packer may be values of any kind, as a settings table gives them.
-/

namespace Classpath

/-- How directories are packed. -/
structure Packer where
  /-- Follows the name of the directory in the name of its archive. -/
  ending : Value := .text "-dir"
  extension : Value := .text ".jar"
  /-- Starts the name of the temporary directory. -/
  temporaryName : Value := .text "dependency-resolver"
  /-- Whether the temporary directory is removed at the end. -/
  removesAtEnd : Value := .bool true
  /-- How many directories are packed side by side. -/
  workers : Value := .int 1
  /-- Where the temporary directory is made, unless in the usual place. -/
  temporaryRoot : Option Path := none
deriving Repr

namespace Packer

/-- The greater of one and a number; of equals it is one. -/
def atLeastOne : Value → Except Fault Value
  | .int n => .ok (.int (max 1 n))
  | .bool _ => .ok (.int 1)
  | .float x =>
    match x with
    | .nan => .ok (.int 1)
    | .infinite negative => .ok (if negative then .int 1 else .float x)
    | .finite negative mantissa exponent =>
      let whole := (Binary64.finite false mantissa exponent).truncate?.getD 0
      if negative || whole < 1 || x.same (.ofInt 1) then .ok (.int 1) else .ok (.float x)
  | v => .error (.unordered ">" v.kind "int")

/-- A packer whose number of workers is at least one. -/
def checked (p : Packer) : Except Fault Packer :=
  (atLeastOne p.workers).map fun workers => { p with workers }

/-- Whether directories are packed side by side. -/
def isConcurrent (p : Packer) : Bool :=
  match p.workers with
  | .int n => decide (1 < n)
  | .float _ => true
  | _ => false

/-- A directory and the archive that it is packed into. -/
structure Job where
  source : Location
  directory : Path
  target : Path
deriving DecidableEq, Repr

/-- The start of the name of an archive. -/
def stem (p : Packer) (directory : Path) : String :=
  (if directory.name.isEmpty then "root" else directory.name) ++ p.ending.shown

/-- The name of the archive for the `count`-th use of a stem. -/
def fileName (p : Packer) (stem : String) (count : Nat) : String :=
  if count ≤ 1 then stem ++ p.extension.shown
  else stem ++ "-" ++ Text.ofInt count ++ p.extension.shown

/-- Give each directory an archive of its own; `used` are the stems given before. -/
def planAfter (p : Packer) (temporary : Path) (used : List String) :
    List Location → Except Fault (List Job)
  | [] => .ok []
  | source :: rest => do
    let directory ← source.path
    let stem := p.stem directory
    let count := used.count stem + 1
    let target := temporary.join (.ofText (p.fileName stem count))
    let jobs ← p.planAfter temporary (stem :: used) rest
    return ⟨source, directory, target⟩ :: jobs

/-- Give each directory an archive of its own. -/
def plan (p : Packer) (temporary : Path) (directories : List Location) :
    Except Fault (List Job) :=
  p.planAfter temporary [] directories

/-- The start of the name of the temporary directory. -/
def temporaryStart (p : Packer) : Except Fault String :=
  match p.temporaryName with
  | .null => .ok "tmp"
  | .text s => .ok s
  | .list _ => .error (.notJoinable "list")
  | .tuple _ => .error (.notJoinable "tuple")
  | v => .error (.notAddable v.kind "str")

/-- The text of a name below a directory. An absolute name stands for itself. -/
def below (directory name : String) : String :=
  if Path.startOf name.toList ≠ .here then name
  else if directory.toList.getLast? = some '/' then directory ++ name
  else directory ++ "/" ++ name

/-- Make a fresh temporary directory: names that exist already are passed over. -/
def makeFresh (root start : String) : Nat → Action Path
  | 0 => throw (.archive root "no usable temporary directory name found" none)
  | tries + 1 => do
    let serial := (← get).serial + 1
    modify fun w => { w with serial }
    let w ← get
    let name := below root (start ++ Text.padded 8 serial)
    match w.files.makeDirectory w.workingDirectory name with
    | .ok (_, files) =>
      set { w with files }
      return .ofText name
    | .error .exists => makeFresh root start tries
    | .error refusal =>
      let fault := Fault.file refusal name
      throw (.archive root ("cannot create temporary directory: " ++ fault.message) (some fault))

/-- Make the temporary directory of a call. -/
def makeTemporary (p : Packer) : Action Path := do
  let w ← get
  let root := (p.temporaryRoot.getD w.temporaryDirectory).text
  match p.temporaryStart with
  | .error fault =>
    modify fun w => { w with serial := w.serial + 1 }
    Action.refuse fault
  | .ok start =>
    let made ← makeFresh root start (w.files.nodes.length + 1)
    if !p.removesAtEnd.isEmptyLike then
      modify fun w => { w with registered := distinct (w.registered ++ [made]) }
    return made

/-- Pack one directory. -/
def run (job : Job) : Action Location := do
  Packing.write job.directory job.target
  Action.report [.packed job.directory.text job.target.text]
  Action.ofFault (Location.of (← get).workingDirectory (.path job.target))

/-- Run jobs one after another and stop at the first failure. -/
def runInOrder : List Job → Action (List Location)
  | [] => return []
  | job :: rest => do
    let location ← run job
    return location :: (← runInOrder rest)

/-- Run all jobs, and fail with the first failure in their order. -/
def runAll : List Job → Action (List Location)
  | [] => return []
  | job :: rest => do
    let first ← observe (run job)
    let others ← observe (runAll rest)
    match first, others with
    | .ok location, .ok locations => return location :: locations
    | .error failure, _ => throw failure
    | _, .error failure => throw failure
where
  /-- The outcome of an action, which does not end the present one. -/
  observe {α : Type} (action : Action α) : Action (Except Failure α) :=
    fun w => let (outcome, after) := action.start w; (.ok outcome, after)

/-- Run the jobs of a plan. -/
def runJobs (p : Packer) (jobs : List Job) : Action (List Location) :=
  if p.isConcurrent && 1 < jobs.length then runAll jobs else runInOrder jobs

/-- Whether a location leads to a directory. -/
def leadsToDirectory (w : Workspace) (l : Location) : Except Fault Bool :=
  if l.isLocal then w.files.isDirectory w.workingDirectory l.filePath else .ok false

/-- Replace the directories among some locations by archives. -/
def pack (p : Packer) (locations : List Location) : Action (List Location) := do
  let w ← get
  let members := distinct locations
  let marked ← Action.ofFault (members.mapM fun l => (leadsToDirectory w l).map ((l, ·)))
  let directories := Location.sort ((marked.filter (·.2)).map (·.1))
  if directories.isEmpty then return members
  let temporary ← p.makeTemporary
  let jobs ← Action.ofFault (p.plan temporary directories)
  let archives ← p.runJobs jobs
  return distinct ((members.filter fun l => !directories.contains l) ++ archives)

end Packer

/-- Remove the temporary directories that are registered, with all that is in them. -/
def Workspace.removeRegistered (w : Workspace) : Workspace :=
  { w with
    files := w.registered.foldl (fun files path => files.removeTree w.workingDirectory path) w.files
    registered := [] }

end Classpath
