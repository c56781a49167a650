import Classpath.Packing.Packer

/-! # Packing side by side

Several workers share one file tree. A job goes on by small steps, each of which opens or ends its
archive, reads the names of one directory or reads one file, and between two steps of a job others
may take theirs. The results are taken in the order of the jobs: the first job of the order that
fails decides, and what the later ones have come to by then does not count.
-/

namespace Classpath.Packer

open Packing

/-- What is still to be done of a walk. -/
inductive Task where
  /-- The names of a directory are to be read. -/
  | directory (place : Place)
  /-- What may be a file is to be stored. -/
  | leaf (place : Place)
deriving DecidableEq, Repr

/-- How far a job has come. -/
inductive Stage where
  | waiting
  /-- The archive is open and empty. -/
  | opened
  /-- The directory is walked. Its place has `depth` names, and the entries so far are kept. -/
  | walking (depth : Nat) (tasks : List Task) (stored : List Entry)
  /-- The archive is to be given up. -/
  | failing (fault : Fault)
  /-- The archive is complete. -/
  | written
  | ended (outcome : Except Failure Location)

/-- What is to be done of a directory whose names have been read. -/
def tasksIn (t : FileTree) (place : Place) : List Task :=
  (t.leavesIn place).map (fun name => .leaf (place ++ [name])) ++
    (t.directoriesIn place).map fun name => .directory (place ++ [name])

/-- The next step of a job in a workspace that it shares with others. -/
def step (job : Job) : Stage × Workspace → Stage × Workspace
  | (.waiting, w) =>
    match w.files.write w.workingDirectory job.target (.archive []) w.now with
    | .ok files => (.opened, { w with files })
    | .error fault => (.failing fault, w)
  | (.opened, w) =>
    match w.files.status w.workingDirectory job.directory.text with
    | .ok (place, node) =>
      if node.isDirectory then (.walking place.length [.directory place] [], w)
      else (.failing (.file .notDirectory job.directory.text), w)
    | .error fault => (.failing (.file fault job.directory.text), w)
  | (.walking _ [] stored, w) => (.written, ((write.fill w job.target stored).start w).2)
  | (.walking depth (.directory place :: tasks) stored, w) =>
    (.walking depth (tasksIn w.files place ++ tasks) stored, w)
  | (.walking depth (.leaf place :: tasks) stored, w) =>
    let names := place.drop depth
    match w.files.statusAt place with
    | .ok (.file content modified) =>
      match timeFault? modified with
      | none =>
        let entry : Entry := ⟨String.intercalate "/" names, content.data⟩
        (.walking depth tasks (stored ++ [entry]), w)
      | some .tooLate =>
        (.ended (.error (.fault .tooLate)), ((write.fill w job.target stored).start w).2)
      | some fault => (.failing fault, w)
    | .ok _ => (.walking depth tasks stored, w)
    | .error fault =>
      if FileTree.absent fault then (.walking depth tasks stored, w)
      else (.failing (.file fault (job.directory.join ⟨.here, names⟩).text), w)
  | (.failing fault, w) =>
    let (outcome, after) := (giveUp job.directory job.target fault).start w
    (.ended outcome, after)
  | (.written, w) =>
    let (outcome, after) := (finish job).start w
    (.ended outcome, after)
  | (.ended outcome, w) => (.ended outcome, w)
where
  /-- Report the archive that has been written. -/
  finish (job : Job) : Action Location := do
    Action.report [.packed job.directory.text job.target.text]
    Action.ofFault (Location.of (← get).workingDirectory (.path job.target))

/-- Jobs that are run side by side. -/
structure Pool where
  workspace : Workspace
  /-- The jobs in order, and how far each has come. -/
  members : List (Job × Stage)

namespace Pool

/-- A pool in which no job has begun. -/
def start (jobs : List Job) (w : Workspace) : Pool :=
  ⟨w, jobs.map (·, .waiting)⟩

/-- The job at a position takes its next step. -/
def step (pool : Pool) (i : Nat) : Pool :=
  match pool.members[i]? with
  | none => pool
  | some (job, stage) =>
    let (stage, workspace) := Packer.step job (stage, pool.workspace)
    ⟨workspace, pool.members.set i (job, stage)⟩

/-- Jobs take their steps in some order. -/
def run (pool : Pool) (schedule : List Nat) : Pool :=
  schedule.foldl step pool

/-- The outcome of some jobs in order, once all jobs up to the first failure have ended. -/
def outcome? : List (Job × Stage) → Option (Except Failure (List Location))
  | [] => some (.ok [])
  | (_, .ended (.ok location)) :: rest =>
    (outcome? rest).map fun others => others.map (location :: ·)
  | (_, .ended (.error refusal)) :: _ => some (.error refusal)
  | _ :: _ => none

/-- Jobs that are run side by side may come to an outcome and leave a workspace. -/
def Ends (jobs : List Job) (w : Workspace) (outcome : Except Failure (List Location))
    (after : Workspace) : Prop :=
  ∃ schedule, outcome? ((start jobs w).run schedule).members = some outcome ∧
    ((start jobs w).run schedule).workspace = after

end Pool

/-- A way of running jobs. With several workers, several jobs are run side by side, in any order of
their steps, and otherwise the jobs are run one after another. -/
def IsRunner (p : Packer) (runner : List Job → Action (List Location)) : Prop :=
  ∀ jobs w,
    if p.isConcurrent && 1 < jobs.length then
      Pool.Ends jobs w ((runner jobs).start w).1 ((runner jobs).start w).2
    else (runner jobs).start w = (runInOrder jobs).start w

/-- Replace the directories among some locations by archives, with some way of running the jobs. -/
def packWith (p : Packer) (runner : List Job → Action (List Location))
    (locations : List Location) : Action (List Location) := do
  let w ← get
  let members := distinct locations
  let marked ← Action.ofFault (members.mapM fun l => (leadsToDirectory w l).map ((l, ·)))
  let directories := Location.sort ((marked.filter (·.2)).map (·.1))
  if directories.isEmpty then return members
  let temporary ← p.makeTemporary
  let jobs ← Action.ofFault (p.plan temporary directories)
  let archives ← runner jobs
  return distinct ((members.filter fun l => !directories.contains l) ++ archives)

/-- Packing runs the jobs in their order. -/
theorem pack_eq (p : Packer) (locations : List Location) :
    p.pack locations = p.packWith p.runJobs locations :=
  rfl

end Classpath.Packer
