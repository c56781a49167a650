import Classpath.Proofs.Packing.Stages

/-! # What running jobs keeps

A job changes its workspace in three ways: it writes its archive, takes it away or reports it. What
these three keep is kept by each step of the job (`Classpath.Packer.KeptAt.step`), by a whole run
(`Classpath.Packer.KeptAt.run`), by a pool in any order of its steps (`Classpath.Packer.Pool.kept_run`)
and so by every way of running jobs (`Classpath.Packer.kept_runner`).
-/

namespace Classpath.Packer

open Packing

section Job

variable {kept : Workspace → Prop} {u : Workspace} {target : Path} {job : Job}

/-- A property of workspaces that lasts when an archive is written to a target, taken away from it
or reported. -/
structure KeptAt (kept : Workspace → Prop) (target : Path) : Prop where
  write : ∀ {u : Workspace} {stored : List Entry} {modified : Int} {files : FileTree}, kept u →
    u.files.write u.workingDirectory target (.archive stored) modified = .ok files →
    kept { u with files }
  unlink : ∀ {u : Workspace} {files : FileTree}, kept u →
    u.files.unlink u.workingDirectory target.text = .ok files → kept { u with files }
  report : ∀ {u : Workspace} (notices : List Notice), kept u →
    kept { u with journal := u.journal ++ notices }

namespace KeptAt

theorem fill (keeps : KeptAt kept target) (before : kept u) (stored : List Entry) :
    kept ((write.fill u target stored).start u).2 := by
  rw [write.fill, Action.start_modify]
  dsimp only
  split
  next files wrote => exact keeps.write before wrote
  · exact before

theorem giveUp (keeps : KeptAt kept target) (before : kept u) (directory : Path) (fault : Fault) :
    kept ((giveUp directory target fault : Action Location).start u).2 := by
  rw [Packing.giveUp, Action.start_bind_ok (Action.start_get u)]
  split
  next files taken => exact keeps.unlink before taken
  · exact before
  · exact before

/-- What lasts at the target of a job lasts in each of its steps. -/
theorem step (keeps : KeptAt kept job.target) (before : kept u) (stage : Stage) :
    kept (Packer.step job (stage, u)).2 := by
  cases stage with
  | waiting =>
    simp only [Packer.step]
    split
    next files wrote => exact keeps.write before wrote
    · exact before
  | opened =>
    simp only [Packer.step]
    split
    · split <;> exact before
    · exact before
  | walking depth tasks stored =>
    cases tasks with
    | nil => exact keeps.fill before stored
    | cons task tasks =>
      cases task with
      | directory place => exact before
      | leaf place =>
        simp only [Packer.step]
        split
        · split
          · exact before
          · exact keeps.fill before stored
          · exact before
        · exact before
        · split <;> exact before
  | failing fault => exact keeps.giveUp before job.directory fault
  | written =>
    rw [Packer.step, step.finish, Action.start_bind_ok (Action.start_report _ u),
      Action.start_bind_ok (Action.start_get _), Action.start_ofFault]
    exact keeps.report _ before
  | ended outcome => exact before

theorem iterate (keeps : KeptAt kept job.target) (before : kept u) (stage : Stage) (n : Nat) :
    kept ((Packer.step job)^[n] (stage, u)).2 := by
  induction n generalizing stage u with
  | zero => exact before
  | succ n ih =>
    rw [Function.iterate_succ_apply]
    exact ih (keeps.step before stage) _

theorem run (keeps : KeptAt kept job.target) (before : kept u) :
    kept ((Packer.run job).start u).2 := by
  obtain ⟨n, reached⟩ := reaches_run job u
  have after := keeps.iterate before .waiting n
  rwa [reached] at after

end KeptAt

end Job

section Jobs

variable {kept : Workspace → Prop} {u : Workspace} {jobs : List Job}

/-- What lasts at the targets of jobs lasts when they are run one after another. -/
theorem kept_runInOrder (keeps : ∀ job ∈ jobs, KeptAt kept job.target) (before : kept u) :
    kept ((runInOrder jobs).start u).2 := by
  induction jobs generalizing u with
  | nil => exact before
  | cons job rest ih =>
    have first := (keeps job List.mem_cons_self).run before
    rw [runInOrder, Action.start_bind]
    rcases ran : (Packer.run job).start u with ⟨refusal | location, between⟩
    · rw [ran] at first
      exact first
    · rw [ran] at first
      have later := ih (fun other member => keeps other (List.mem_cons_of_mem _ member)) first
      dsimp only
      rw [Action.start_bind]
      rcases ended : (runInOrder rest).start between with ⟨refusal | locations, after⟩ <;>
        · rw [ended] at later
          exact later

namespace Pool

theorem map_fst_start (jobs : List Job) (u : Workspace) :
    (start jobs u).members.map Prod.fst = jobs := by
  simp [start, Function.comp_def]

/-- A step changes how far the jobs have come, but not the jobs. -/
theorem map_fst_step (pool : Pool) (i : Nat) :
    (pool.step i).members.map Prod.fst = pool.members.map Prod.fst := by
  unfold Pool.step
  cases found : pool.members[i]? with
  | none => rfl
  | some member =>
    obtain ⟨within, here⟩ := List.getElem?_eq_some_iff.mp found
    have bound : i < (pool.members.map Prod.fst).length := by simpa using within
    have job : (pool.members.map Prod.fst)[i] = member.1 := by rw [List.getElem_map, here]
    dsimp only
    rw [List.map_set, ← job, List.set_getElem_self]

theorem kept_step {pool : Pool} (keeps : ∀ job ∈ pool.members.map Prod.fst, KeptAt kept job.target)
    (before : kept pool.workspace) (i : Nat) : kept (pool.step i).workspace := by
  unfold Pool.step
  cases found : pool.members[i]? with
  | none => exact before
  | some member =>
    exact (keeps _ (List.mem_map_of_mem (List.mem_of_getElem? found))).step before member.2

/-- What lasts at the targets of jobs lasts in any order of their steps. -/
theorem kept_run {pool : Pool} (keeps : ∀ job ∈ pool.members.map Prod.fst, KeptAt kept job.target)
    (before : kept pool.workspace) (schedule : List Nat) : kept (pool.run schedule).workspace := by
  induction schedule generalizing pool with
  | nil => exact before
  | cons i rest ih => exact ih (by rwa [map_fst_step]) (kept_step keeps before i)

end Pool

/-- What lasts at the targets of jobs lasts whichever way they are run. -/
theorem kept_runner {p : Packer} {runner : List Job → Action (List Location)}
    (way : p.IsRunner runner) (keeps : ∀ job ∈ jobs, KeptAt kept job.target) (before : kept u) :
    kept ((runner jobs).start u).2 := by
  have ran := way jobs u
  split at ran
  · obtain ⟨schedule, -, after⟩ := ran
    rw [← after]
    exact Pool.kept_run (by rwa [Pool.map_fst_start]) before schedule
  · rw [ran]
    exact kept_runInOrder keeps before

end Jobs

end Classpath.Packer
