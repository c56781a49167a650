import Classpath.Proofs.Packing.SideBySide

/-! # Side by side or one after another

Jobs that do not meet end as they do alone, whatever order their steps are taken in
(`Classpath.Packer.Pool.InStep.run`). So side by side they come to the same as one after another
(`Classpath.Packer.sameEnd_inOrder`).
-/

namespace Classpath.Packer

open Packing

/-- Two runs come to the same: both succeed with the same result and leave the same files, or both
fail. The failure is the same too, up to an exception. -/
def SameEnd {α : Type} (exception : Prop) (ran ran' : Except Failure α × Workspace) : Prop :=
  match ran.1, ran'.1 with
  | .ok a, .ok a' => a = a' ∧ ∀ place, ran.2.files.node? place = ran'.2.files.node? place
  | .error refusal, .error refusal' => refusal = refusal' ∨ exception
  | _, _ => False

theorem SameEnd.refl {α : Type} {exception : Prop} (ran : Except Failure α × Workspace) :
    SameEnd exception ran ran := by
  rcases ran with ⟨refusal | a, after⟩
  · exact Or.inl rfl
  · exact ⟨rfl, fun _ => rfl⟩

theorem SameEnd.mono {α : Type} {exception exception' : Prop}
    {ran ran' : Except Failure α × Workspace} (same : SameEnd exception ran ran')
    (weaker : exception → exception') : SameEnd exception' ran ran' := by
  rcases ran with ⟨refusal | a, after⟩ <;> rcases ran' with ⟨refusal' | a', after'⟩
  · exact same.imp_right weaker
  · exact same
  · exact same
  · exact same

/-- Runs that come to the same do so after a last step that depends on the result only. -/
theorem SameEnd.map {α β : Type} {exception : Prop} {action action' : Action α}
    {w w' : Workspace} (same : SameEnd exception (action.start w) (action'.start w'))
    (last : α → β) :
    SameEnd exception (Action.start (action >>= fun a => return last a) w)
      (Action.start (action' >>= fun a => return last a) w') := by
  rw [Action.start_bind, Action.start_bind]
  rcases here : action.start w with ⟨refusal | a, after⟩ <;>
    rcases there : action'.start w' with ⟨refusal' | a', after'⟩ <;> rw [here, there] at same
  · exact same
  · exact same
  · exact same
  · exact ⟨congrArg last same.1, same.2⟩

/-- No two of some jobs write the same archive. -/
def Distinct (temporary : Path) (fresh : Place) (jobs : List Job) : Prop :=
  ∀ (i j : Nat) (job other : Job), jobs[i]? = some job → jobs[j]? = some other → i ≠ j →
    ∀ place, slot fresh temporary job.target = .ok place →
      slot fresh temporary other.target ≠ .ok place

/-- Two workspaces have the same archive of a job. -/
def Alike (temporary : Path) (fresh : Place) (job : Job) (u u' : Workspace) : Prop :=
  ∀ place, slot fresh temporary job.target = .ok place →
    u.files.node? place = u'.files.node? place

/-- Two workspaces differ at most in the archive of a job. -/
def Elsewhere (temporary : Path) (fresh : Place) (job : Job) (u u' : Workspace) : Prop :=
  ∀ place, slot fresh temporary job.target ≠ .ok place →
    u'.files.node? place = u.files.node? place

section Steps

variable {w base u : Workspace} {temporary : Path} {fresh : Place} {slots : Place → Prop}
  {job : Job} {stage : Stage}

/-- A step in one workspace goes as in another that has the same archive of the job. -/
theorem step_alike (sits : Sits w temporary fresh slots job) (within : stage.Within w job)
    (shared : Shared w fresh slots u) (shared' : Shared w fresh slots base)
    (alike : Alike temporary fresh job u base) :
    (step job (stage, u)).1 = (step job (stage, base)).1 ∧
      (step job (stage, u)).1.Within w job ∧
      Shared w fresh slots (step job (stage, u)).2 ∧
      Shared w fresh slots (step job (stage, base)).2 ∧
      Alike temporary fresh job (step job (stage, u)).2 (step job (stage, base)).2 ∧
      Elsewhere temporary fresh job u (step job (stage, u)).2 := by
  obtain ⟨next, kept, edit, notices, at_slot, steps⟩ := exists_stepsTo sits within
  rw [steps u shared, steps base shared']
  refine ⟨rfl, kept, shared.edit sits at_slot notices, shared'.edit sits at_slot notices,
    fun place aims => ?_, fun place other => at_slot.node?_of_ne other _⟩
  exact at_slot.node?_congr sits.inside.below (alike place aims)

end Steps

section Jobs

variable {w base : Workspace} {temporary : Path} {fresh : Place} {slots : Place → Prop}
  {jobs : List Job}

/-! ## One after another -/

/-- A workspace that has the archives of some jobs as each of them alone leaves it. -/
def Archives (base : Workspace) (temporary : Path) (fresh : Place) (jobs : List Job)
    (u : Workspace) : Prop :=
  ∀ job ∈ jobs, Alike temporary fresh job u ((run job).start base).2

theorem Distinct.tail {job : Job} (distinct : Distinct temporary fresh (job :: jobs)) :
    Distinct temporary fresh jobs := by
  intro i j first second found found' different
  exact distinct (i + 1) (j + 1) first second found found' (by omega)

theorem Distinct.head {job other : Job} (distinct : Distinct temporary fresh (job :: jobs))
    (member : other ∈ jobs) {place : Place}
    (aims : slot fresh temporary other.target = .ok place) :
    slot fresh temporary job.target ≠ .ok place := by
  obtain ⟨i, found⟩ := List.getElem?_of_mem member
  exact distinct (i + 1) 0 other job found rfl (by omega) place aims

/-- A pool in which each job has come as far as it may come alone, with the same archive. -/
structure Pool.InStep (w base : Workspace) (temporary : Path) (fresh : Place)
    (slots : Place → Prop) (jobs : List Job) (pool : Pool) : Prop where
  jobs_eq : pool.members.map Prod.fst = jobs
  shared : Shared w fresh slots pool.workspace
  others : ∀ place, (∀ job ∈ jobs, slot fresh temporary job.target ≠ .ok place) →
    pool.workspace.files.node? place = base.files.node? place
  alone : ∀ (i : Nat) job stage, pool.members[i]? = some (job, stage) →
    stage.Within w job ∧ ∃ own, Reaches job (.waiting, base) (stage, own) ∧
      Shared w fresh slots own ∧ Alike temporary fresh job pool.workspace own

namespace Pool

theorem InStep.start (shared : Shared w fresh slots base) :
    InStep w base temporary fresh slots jobs (start jobs base) where
  jobs_eq := map_fst_start jobs base
  shared := shared
  others _ _ := rfl
  alone i job stage found := by
    rw [Pool.start, List.getElem?_map, Option.map_eq_some_iff] at found
    obtain ⟨_, _, same⟩ := found
    cases same
    exact ⟨trivial, base, .refl, shared, fun _ _ => rfl⟩

variable {pool : Pool}

theorem InStep.job_of_member (inStep : InStep w base temporary fresh slots jobs pool) {i : Nat}
    {job : Job} {stage : Stage} (found : pool.members[i]? = some (job, stage)) :
    jobs[i]? = some job := by
  rw [← inStep.jobs_eq, List.getElem?_map, found]
  rfl

/-- A step of one job leaves the others where they are. -/
theorem InStep.step (inStep : InStep w base temporary fresh slots jobs pool)
    (sits : ∀ job ∈ jobs, Sits w temporary fresh slots job)
    (distinct : Distinct temporary fresh jobs) (i : Nat) :
    InStep w base temporary fresh slots jobs (pool.step i) := by
  have jobs_eq := (map_fst_step pool i).trans inStep.jobs_eq
  unfold Pool.step at jobs_eq ⊢
  cases found : pool.members[i]? with
  | none => exact inStep
  | some member =>
    obtain ⟨job, stage⟩ := member
    rw [found] at jobs_eq
    have here := inStep.job_of_member found
    have sits_here := sits job (List.mem_of_getElem? here)
    obtain ⟨within, own, reaches, shared', alike⟩ := inStep.alone i job stage found
    obtain ⟨same, kept, after, after', archive, frame⟩ :=
      step_alike sits_here within inStep.shared shared' alike
    dsimp only
    refine ⟨jobs_eq, after, fun place avoids => ?_, fun j other stage' found' => ?_⟩
    · rw [frame place (avoids job (List.mem_of_getElem? here)), inStep.others place avoids]
    · rw [List.getElem?_set] at found'
      split at found'
      next at_i =>
        split at found'
        · cases found'
          refine ⟨kept, (Packer.step job (stage, own)).2, ?_, after', archive⟩
          rw [same]
          exact reaches.trans (Reaches.next .refl)
        · cases found'
      next other_place =>
        obtain ⟨within', own', reaches', shared'', alike'⟩ := inStep.alone j other stage' found'
        refine ⟨within', own', reaches', shared'', fun place aims => ?_⟩
        rw [frame place fun aims' => distinct i j job other here
          (inStep.job_of_member found') other_place place aims' aims, alike' place aims]

/-- **Each job goes as it goes alone**, in any order of the steps. -/
theorem InStep.run (inStep : InStep w base temporary fresh slots jobs pool)
    (sits : ∀ job ∈ jobs, Sits w temporary fresh slots job)
    (distinct : Distinct temporary fresh jobs) (schedule : List Nat) :
    InStep w base temporary fresh slots jobs (pool.run schedule) := by
  induction schedule generalizing pool with
  | nil => exact inStep
  | cons i rest ih => exact ih (inStep.step sits distinct i)

/-- A pool whose jobs have all succeeded has their archives. -/
theorem InStep.archives (inStep : InStep w base temporary fresh slots jobs pool)
    {locations : List Location} (ended : outcome? pool.members = some (.ok locations)) :
    Archives base temporary fresh jobs pool.workspace := by
  intro job member
  rw [← inStep.jobs_eq, List.mem_map] at member
  obtain ⟨⟨_, stage⟩, member, rfl⟩ := member
  obtain ⟨location, rfl⟩ : ∃ location, stage = .ended (.ok location) :=
    ended_of_outcome? ended _ member
  obtain ⟨i, found⟩ := List.getElem?_of_mem member
  obtain ⟨-, own, reaches, -, alike⟩ := inStep.alone i _ _ found
  rw [← (reaches.ended_inj (reaches_run _ base)).2]
  exact alike

end Pool

end Jobs

/-! ## Running all jobs in their order -/

/-- The outcome of a first job and of the jobs after it. -/
def join (first : Except Failure Location) (others : Except Failure (List Location)) :
    Except Failure (List Location) :=
  match first, others with
  | .ok location, .ok locations => .ok (location :: locations)
  | .error refusal, _ => .error refusal
  | _, .error refusal => .error refusal

theorem start_runAll_cons (job : Job) (rest : List Job) (w : Workspace) :
    (runAll (job :: rest)).start w =
      (join ((run job).start w).1 ((runAll rest).start ((run job).start w).2).1,
        ((runAll rest).start ((run job).start w).2).2) := by
  have observed : ∀ {α : Type} (action : Action α) (u : Workspace),
      Action.start (runAll.observe action) u = (.ok (action.start u).1, (action.start u).2) :=
    fun _ _ => rfl
  rw [runAll, Action.start_bind_ok (observed _ w), Action.start_bind_ok (observed _ _)]
  cases ((run job).start w).1 with
  | error refusal => rfl
  | ok location => cases ((runAll rest).start ((run job).start w).2).1 <;> rfl

namespace Pool

theorem run_replicate (pool : Pool) {i : Nat} {job : Job} {stage : Stage}
    (found : pool.members[i]? = some (job, stage)) (n : Nat) :
    pool.run (List.replicate n i) =
      ⟨((Packer.step job)^[n] (stage, pool.workspace)).2,
        pool.members.set i (job, ((Packer.step job)^[n] (stage, pool.workspace)).1)⟩ := by
  obtain ⟨within, here⟩ := List.getElem?_eq_some_iff.mp found
  induction n generalizing pool stage with
  | zero =>
    have kept : pool.members.set i (job, stage) = pool.members := by
      rw [← here]
      exact List.set_getElem_self within
    exact congrArg (Pool.mk pool.workspace) kept.symm
  | succ n ih =>
    have stepped : pool.step i = ⟨(Packer.step job (stage, pool.workspace)).2,
        pool.members.set i (job, (Packer.step job (stage, pool.workspace)).1)⟩ := by
      rw [Pool.step, found]
    have size :
        i < (pool.members.set i (job, (Packer.step job (stage, pool.workspace)).1)).length := by
      rwa [List.length_set]
    change (pool.step i).run (List.replicate n i) = _
    rw [stepped, ih _ (List.getElem?_set_self within) size (by simp), List.set_set]
    rfl

/-- Jobs that take all their steps in their order do what running all of them does. -/
theorem exists_runAll (front : List (Job × Stage)) (jobs : List Job) (w : Workspace) :
    ∃ schedule ended,
      (⟨w, front ++ jobs.map (·, .waiting)⟩ : Pool).run schedule =
        ⟨((runAll jobs).start w).2, front ++ ended⟩ ∧
      outcome? ended = some ((runAll jobs).start w).1 := by
  induction jobs generalizing front w with
  | nil => exact ⟨[], [], rfl, rfl⟩
  | cons job rest ih =>
    obtain ⟨n, reaches⟩ := reaches_run job w
    let done : Job × Stage := (job, .ended ((Packer.run job).start w).1)
    obtain ⟨schedule, ended, ran, outcome⟩ := ih (front ++ [done]) ((Packer.run job).start w).2
    refine ⟨List.replicate n front.length ++ schedule, done :: ended, ?_, ?_⟩
    · have found : (front ++ (job :: rest).map (·, Stage.waiting))[front.length]? =
          some (job, .waiting) := by simp
      have first := run_replicate ⟨w, front ++ (job :: rest).map (·, Stage.waiting)⟩ found n
      rw [reaches] at first
      have parts : (front ++ (job :: rest).map (·, Stage.waiting)).set front.length done =
          front ++ [done] ++ rest.map (·, Stage.waiting) := by simp
      rw [Pool.run, List.foldl_append, ← Pool.run, ← Pool.run, first]
      dsimp only
      rw [parts, ran, start_runAll_cons, List.append_assoc]
      rfl
    · rw [start_runAll_cons]
      simp only [done]
      cases ((Packer.run job).start w).1 with
      | error refusal => rfl
      | ok location =>
        rw [outcome?, outcome]
        cases ((runAll rest).start ((Packer.run job).start w).2).1 <;> rfl

end Pool

/-- The jobs of a call are run in one of the ways in which they may be run. -/
theorem isRunner_runJobs (p : Packer) : p.IsRunner p.runJobs := by
  intro jobs w
  split
  next concurrent =>
    obtain ⟨schedule, ended, ran, outcome⟩ := Pool.exists_runAll [] jobs w
    rw [runJobs, if_pos concurrent]
    rw [List.nil_append, List.nil_append] at ran
    exact ⟨schedule, by rw [Pool.start, ran, outcome], by rw [Pool.start, ran]⟩
  next single => rw [runJobs, if_neg single]

end Classpath.Packer
