import Classpath.Proofs.Packing.Unreachable

/-! # Jobs that do not meet

A job reads its own directory and changes its own archive only. When the archives are different
files of the temporary directory and no directory contains that directory, a step of a job does the
same whatever the other jobs have done (`Classpath.Packer.exists_stepsTo`), so that in any order of
the steps each job ends as it does alone.
-/

namespace Classpath

namespace FileTree

theorem erase_of_absent {t : FileTree} {place : Place} (below : place ≠ [])
    (absent : t.node? place = none) : t.erase place = t := by
  have kept : t.nodes.filter (fun entry => !decide (entry.1 = place)) = t.nodes := by
    rw [List.filter_eq_self]
    intro entry member
    simpa using (node?_eq_none_iff below).mp absent entry member
  rw [erase, kept]

end FileTree

namespace Packer

open Packing

/-- Jobs that do not meet: their archives are different files of the temporary directory, and no
directory contains the temporary directory, by itself or through a link. -/
structure Apart (w : Workspace) (temporary : Path) (fresh : Place) (jobs : List Job) : Prop where
  /-- Only for a directory that is named `..` can an archive be planned elsewhere. -/
  below : ∀ job ∈ jobs, temporary.Below job.target
  different : (jobs.map Job.target).Nodup
  outside : ∀ job ∈ jobs, ∀ place,
    w.files.status w.workingDirectory job.directory.text = .ok (place, .directory) →
      ¬ place <+: fresh ∧ ¬ w.files.Leads place fresh

/-- No archive is planned below another one. -/
def Level (jobs : List Job) : Prop :=
  ∀ job ∈ jobs, ∀ other ∈ jobs, job.target.names <+: other.target.names →
    job.target = other.target

/-- A job of a call: its archive is below the temporary directory, and its directory stands apart
from that. -/
structure Sits (w : Workspace) (temporary : Path) (fresh : Place) (slots : Place → Prop)
    (job : Job) : Prop where
  inside : IsTarget w temporary fresh job.target
  /-- The place of the archive is one of the places that are known. -/
  known : ∀ place, slot fresh temporary job.target = .ok place → slots place
  vacant : ∀ t : FileTree,
    (∀ place, fresh <+: place → place ≠ fresh → t.node? place ≠ none → slots place) →
      Vacant t fresh temporary job.target
  outside : ¬ fresh <+: w.workingDirectory.names
  directory : ∃ place,
    w.files.status w.workingDirectory job.directory.text = .ok (place, .directory) ∧
      (∀ other, place <+: other → ¬ fresh <+: other) ∧ ¬ w.files.Leads place fresh

/-- A workspace in which jobs are being run, with archives at places that are known. -/
structure Shared (w : Workspace) (fresh : Place) (slots : Place → Prop) (u : Workspace) : Prop
    extends Held w fresh u where
  only : ∀ place, fresh <+: place → place ≠ fresh → u.files.node? place ≠ none → slots place
  now : u.now = w.now

/-! ## What a step may change -/

/-- What a step does to the archive of its job. -/
inductive Edit where
  | keep
  | put (place : Place) (stored : List Entry)
  | erase (place : Place)

namespace Edit

/-- The file tree after an edit. -/
def apply (now : Int) : Edit → FileTree → FileTree
  | keep, t => t
  | put place stored, t => t.put place (.file (.archive stored) now)
  | erase place, t => t.erase place

/-- An edit that changes nothing but a known archive. -/
def IsAt (aims : Except FileFault Place) : Edit → Prop
  | keep => True
  | put place _ => aims = .ok place
  | erase place => aims = .ok place

end Edit

section Edits

variable {w u u' : Workspace} {temporary target : Path} {fresh : Place} {slots : Place → Prop}
  {edit : Edit} {now : Int}

/-- An edit changes nothing at another place. -/
theorem Edit.IsAt.node?_of_ne {aims : Except FileFault Place} (at_slot : edit.IsAt aims)
    {place : Place} (other : aims ≠ .ok place) (t : FileTree) :
    (edit.apply now t).node? place = t.node? place := by
  cases edit with
  | keep => rfl
  | put here stored =>
    exact FileTree.node?_put_of_ne _ _ fun same => other (same ▸ at_slot)
  | erase here => exact FileTree.node?_erase_of_ne _ fun same => other (same ▸ at_slot)

/-- What stands at a place after an edit depends only on what stood there. -/
theorem Edit.IsAt.node?_congr (below : temporary.Below target)
    (at_slot : edit.IsAt (slot fresh temporary target)) {place : Place} {t t' : FileTree}
    (same : t.node? place = t'.node? place) :
    (edit.apply now t).node? place = (edit.apply now t').node? place := by
  by_cases other : slot fresh temporary target = .ok place
  · obtain ⟨name, -, -, rfl⟩ := exists_child_of_slot below other
    cases edit with
    | keep => exact same
    | put here stored =>
      cases other.symm.trans at_slot
      rw [apply, apply, FileTree.node?_put_self _ _ (by simp),
        FileTree.node?_put_self _ _ (by simp)]
    | erase here =>
      cases other.symm.trans at_slot
      rw [apply, apply, FileTree.node?_erase_self _ (by simp),
        FileTree.node?_erase_self _ (by simp)]
  · rw [at_slot.node?_of_ne other, at_slot.node?_of_ne other, same]

end Edits

section Shared

variable {w u : Workspace} {temporary : Path} {fresh : Place} {slots : Place → Prop} {job : Job}

/-- A workspace in which the archive of a job has been edited is shared as before. -/
theorem Shared.edit (shared : Shared w fresh slots u) (sits : Sits w temporary fresh slots job)
    {edit : Edit} (at_slot : edit.IsAt (slot fresh temporary job.target))
    (notices : List Notice) :
    Shared w fresh slots
      { u with files := edit.apply w.now u.files, journal := u.journal ++ notices } := by
  cases edit with
  | keep => exact ⟨⟨shared.made, shared.working⟩, shared.only, shared.now⟩
  | put here stored =>
    obtain ⟨name, -, -, rfl⟩ := exists_child_of_slot sits.inside.below at_slot
    refine ⟨⟨shared.made.put name stored w.now, shared.working⟩,
      fun place below other stands => ?_, shared.now⟩
    by_cases same : place = fresh ++ [name]
    · exact same ▸ sits.known _ at_slot
    · exact shared.only place below other (by rwa [← FileTree.node?_put_of_ne _ _ same])
  | erase here =>
    obtain ⟨name, -, -, rfl⟩ := exists_child_of_slot sits.inside.below at_slot
    refine ⟨⟨shared.made.erase name, shared.working⟩, fun place below other stands => ?_,
      shared.now⟩
    by_cases same : place = fresh ++ [name]
    · exact same ▸ sits.known _ at_slot
    · exact shared.only place below other (by rwa [← FileTree.node?_erase_of_ne _ same])

theorem Shared.write_eq (shared : Shared w fresh slots u)
    (sits : Sits w temporary fresh slots job) (stored : List Entry) :
    u.files.write u.workingDirectory job.target (.archive stored) u.now =
      match slot fresh temporary job.target with
      | .ok place => .ok (u.files.put place (.file (.archive stored) w.now))
      | .error fault => .error (.file fault job.target.text) := by
  rw [shared.now, shared.working]
  exact shared.made.write_eq sits.inside (sits.vacant _ shared.only) rfl _ _

/-- Entries are stored by an edit, or nothing is done. -/
theorem exists_fill_eq (sits : Sits w temporary fresh slots job) (stored : List Entry) :
    ∃ edit : Edit, edit.IsAt (slot fresh temporary job.target) ∧
      ∀ u, Shared w fresh slots u →
        ((write.fill u job.target stored).start u).2 =
          { u with files := edit.apply w.now u.files } := by
  cases aims : slot fresh temporary job.target with
  | ok place =>
    refine ⟨.put place stored, rfl, fun u shared => ?_⟩
    rw [write.fill, Action.start_modify, shared.write_eq sits, aims]
    rfl
  | error fault =>
    refine ⟨.keep, trivial, fun u shared => ?_⟩
    rw [write.fill, Action.start_modify, shared.write_eq sits, aims]
    rfl

/-- An archive is given up by an edit, and the failure is always the same. -/
theorem exists_giveUp_eq (sits : Sits w temporary fresh slots job) (fault : Fault) :
    ∃ (refusal : Failure) (edit : Edit), edit.IsAt (slot fresh temporary job.target) ∧
      ∀ u, Shared w fresh slots u →
        (giveUp job.directory job.target fault : Action Location).start u =
          (.error refusal, { u with files := edit.apply w.now u.files }) := by
  have gone : ∀ u, Shared w fresh slots u → u.files.unlink u.workingDirectory job.target.text =
      match slot fresh temporary job.target with
      | .ok place =>
        if u.files.node? place = none then .error .noEntry else .ok (u.files.erase place)
      | .error fault => .error fault := fun u shared =>
    shared.made.unlink_eq sits.inside (sits.vacant _ shared.only) (by rw [shared.working])
  cases aims : slot fresh temporary job.target with
  | ok place =>
    obtain ⟨name, -, -, rfl⟩ := exists_child_of_slot sits.inside.below aims
    refine ⟨failure job.directory fault, .erase (fresh ++ [name]), rfl, fun u shared => ?_⟩
    rw [start_giveUp, gone u shared, aims]
    dsimp only
    by_cases absent : u.files.node? (fresh ++ [name]) = none
    · rw [if_pos absent, Edit.apply, FileTree.erase_of_absent (by simp) absent]
    · rw [if_neg absent]
      rfl
  | error other =>
    by_cases absent : other = .noEntry
    · subst absent
      refine ⟨failure job.directory fault, .keep, trivial, fun u shared => ?_⟩
      rw [start_giveUp, gone u shared, aims]
      rfl
    · refine ⟨.fault (.file other job.target.text), .keep, trivial, fun u shared => ?_⟩
      rw [start_giveUp, gone u shared, aims]
      cases other <;> first | rfl | exact absurd rfl absent

end Shared

/-! ## What a step does -/

/-- A task of a walk through a directory. -/
def Task.Within (t : FileTree) (directory : Place) : Task → Prop
  | .directory place => directory <+: place
  | .leaf place => directory <+: place ∧ t.node? place ≠ none

/-- A stage in which what is left of a walk is in the directory of the job. -/
def Stage.Within (w : Workspace) (job : Job) : Stage → Prop
  | .walking _ tasks _ => ∀ directory,
    w.files.status w.workingDirectory job.directory.text = .ok (directory, .directory) →
      ∀ task ∈ tasks, task.Within w.files directory
  | _ => True

/-- A step of a job that takes it to a stage, edits its archive and gives notices, whatever others
have done. -/
def StepsTo (w : Workspace) (temporary : Path) (fresh : Place) (slots : Place → Prop) (job : Job)
    (stage next : Stage) : Prop :=
  next.Within w job ∧ ∃ (edit : Edit) (notices : List Notice),
    edit.IsAt (slot fresh temporary job.target) ∧
      ∀ u, Shared w fresh slots u → step job (stage, u) =
        (next, { u with files := edit.apply w.now u.files, journal := u.journal ++ notices })

section Step

variable {w : Workspace} {temporary : Path} {fresh : Place} {slots : Place → Prop} {job : Job}
  {stage next : Stage}

/-- A step that edits nothing. -/
theorem StepsTo.of_keep (within : next.Within w job)
    (keeps : ∀ u, Shared w fresh slots u → step job (stage, u) = (next, u)) :
    StepsTo w temporary fresh slots job stage next := by
  refine ⟨within, .keep, [], trivial, fun u shared => ?_⟩
  rw [keeps u shared, List.append_nil]
  rfl

/-- A step that edits the archive. -/
theorem StepsTo.of_edit (within : next.Within w job) (edit : Edit)
    (at_slot : edit.IsAt (slot fresh temporary job.target))
    (edits : ∀ u, Shared w fresh slots u →
      step job (stage, u) = (next, { u with files := edit.apply w.now u.files })) :
    StepsTo w temporary fresh slots job stage next := by
  refine ⟨within, edit, [], at_slot, fun u shared => ?_⟩
  rw [edits u shared, List.append_nil]

theorem exists_stepsTo_waiting (sits : Sits w temporary fresh slots job) :
    ∃ next, StepsTo w temporary fresh slots job .waiting next := by
  cases aims : slot fresh temporary job.target with
  | ok place =>
    refine ⟨.opened, .of_edit trivial (.put place []) aims fun u shared => ?_⟩
    rw [step, shared.write_eq sits, aims]
    rfl
  | error fault =>
    refine ⟨.failing (.file fault job.target.text), .of_keep trivial fun u shared => ?_⟩
    rw [step, shared.write_eq sits, aims]

theorem exists_stepsTo_failing (sits : Sits w temporary fresh slots job) (fault : Fault) :
    ∃ next, StepsTo w temporary fresh slots job (.failing fault) next := by
  obtain ⟨refusal, edit, at_slot, given⟩ := exists_giveUp_eq sits fault
  refine ⟨.ended (.error refusal), .of_edit trivial edit at_slot fun u shared => ?_⟩
  rw [step, given u shared]

theorem exists_stepsTo_written :
    ∃ next, StepsTo w temporary fresh slots job .written next := by
  refine ⟨.ended ((Location.of w.workingDirectory (.path job.target)).mapError .fault), trivial,
    .keep, [.packed job.directory.text job.target.text], trivial, fun u shared => ?_⟩
  rw [step, step.finish, Action.start_bind_ok (Action.start_report _ u),
    Action.start_bind_ok (Action.start_get _), Action.start_ofFault, shared.working]
  rfl

theorem exists_stepsTo_opened (sits : Sits w temporary fresh slots job) :
    ∃ next, StepsTo w temporary fresh slots job .opened next := by
  obtain ⟨place, stands, aside, unlinked⟩ := sits.directory
  refine ⟨.walking place.length [.directory place] [], .of_keep ?_ fun u shared => ?_⟩
  · intro directory found task member
    cases stands.symm.trans found
    rw [List.mem_singleton.mp member]
    exact List.prefix_rfl
  · have same : u.files.status u.workingDirectory job.directory.text = .ok (place, .directory) := by
      rw [shared.working, FileTree.status_agree shared.made.agree sits.inside.found.absent
        sits.outside (by rw [FileTree.missingAt?_eq_none stands]; exact nofun), stands]
    rw [step, same]
    rfl

theorem exists_stepsTo_directory (sits : Sits w temporary fresh slots job) {depth : Nat}
    {place : Place} {tasks : List Task} {stored : List Entry}
    (within : (Stage.walking depth (.directory place :: tasks) stored).Within w job) :
    ∃ next, StepsTo w temporary fresh slots job
      (.walking depth (.directory place :: tasks) stored) next := by
  obtain ⟨directory, stands, aside, unlinked⟩ := sits.directory
  have below : directory <+: place := within directory stands _ List.mem_cons_self
  refine ⟨.walking depth (tasksIn w.files place ++ tasks) stored, .of_keep ?_ fun u shared => ?_⟩
  · intro directory' found task member
    cases stands.symm.trans found
    rcases List.mem_append.mp member with inside | later
    · rcases List.mem_append.mp inside with leaf | deeper
      · obtain ⟨name, listed, rfl⟩ := List.mem_map.mp leaf
        exact ⟨below.trans (List.prefix_append _ _),
          FileTree.mem_namesIn.mp (List.mem_filter.mp listed).1⟩
      · obtain ⟨name, listed, rfl⟩ := List.mem_map.mp deeper
        exact below.trans (List.prefix_append _ _)
    · exact within directory stands task (List.mem_cons_of_mem _ later)
  · have same : tasksIn u.files place = tasksIn w.files place := by
      rw [tasksIn, tasksIn,
        FileTree.leavesIn_agree shared.made.agree sits.inside.found.absent aside unlinked below,
        FileTree.directoriesIn_agree shared.made.agree aside below]
    rw [step, same]

theorem exists_stepsTo_leaf (sits : Sits w temporary fresh slots job) {depth : Nat}
    {place : Place} {tasks : List Task} {stored : List Entry}
    (within : (Stage.walking depth (.leaf place :: tasks) stored).Within w job) :
    ∃ next, StepsTo w temporary fresh slots job
      (.walking depth (.leaf place :: tasks) stored) next := by
  obtain ⟨directory, stands, aside, unlinked⟩ := sits.directory
  obtain ⟨below, there⟩ := within directory stands _ List.mem_cons_self
  have later : ∀ stored, (Stage.walking depth tasks stored).Within w job :=
    fun stored directory found task member =>
      within directory found task (List.mem_cons_of_mem _ member)
  have same : ∀ u, Shared w fresh slots u → u.files.statusAt place = w.files.statusAt place :=
    fun u shared => FileTree.statusAt_agree shared.made.agree sits.inside.found.absent unlinked
      below there
  cases found : w.files.statusAt place with
  | error fault =>
    by_cases absent : FileTree.absent fault = true
    · refine ⟨.walking depth tasks stored, .of_keep (later _) fun u shared => ?_⟩
      simp only [step, same u shared, found, absent, ↓reduceIte]
    · let path := job.directory.join ⟨.here, place.drop depth⟩
      refine ⟨.failing (.file fault path.text), .of_keep trivial fun u shared => ?_⟩
      simp only [step, same u shared, found, absent, Bool.false_eq_true, ↓reduceIte]
      rfl
  | ok node =>
    cases node with
    | file content modified =>
      cases refused : timeFault? modified with
      | none =>
        let entry : Entry := ⟨String.intercalate "/" (place.drop depth), content.data⟩
        refine ⟨.walking depth tasks (stored ++ [entry]), .of_keep (later _) fun u shared => ?_⟩
        simp only [step, same u shared, found, refused]
        rfl
      | some reason =>
        by_cases late : reason = .tooLate
        · subst late
          obtain ⟨edit, at_slot, filled⟩ := exists_fill_eq sits stored
          refine ⟨.ended (.error (.fault .tooLate)), .of_edit trivial edit at_slot
            fun u shared => ?_⟩
          simp only [step, same u shared, found, refused, filled u shared]
        · refine ⟨.failing reason, .of_keep trivial fun u shared => ?_⟩
          simp only [step, same u shared, found, refused]
    | directory =>
      refine ⟨.walking depth tasks stored, .of_keep (later _) fun u shared => ?_⟩
      simp only [step, same u shared, found]
    | link target =>
      refine ⟨.walking depth tasks stored, .of_keep (later _) fun u shared => ?_⟩
      simp only [step, same u shared, found]
    | pipe =>
      refine ⟨.walking depth tasks stored, .of_keep (later _) fun u shared => ?_⟩
      simp only [step, same u shared, found]

theorem exists_stepsTo_end (sits : Sits w temporary fresh slots job) (depth : Nat)
    (stored : List Entry) :
    ∃ next, StepsTo w temporary fresh slots job (.walking depth [] stored) next := by
  obtain ⟨edit, at_slot, filled⟩ := exists_fill_eq sits stored
  refine ⟨.written, .of_edit trivial edit at_slot fun u shared => ?_⟩
  rw [step, filled u shared]

/-- **A step of a job does the same whatever the other jobs have done.** -/
theorem exists_stepsTo (sits : Sits w temporary fresh slots job) (within : stage.Within w job) :
    ∃ next, StepsTo w temporary fresh slots job stage next := by
  cases stage with
  | waiting => exact exists_stepsTo_waiting sits
  | opened => exact exists_stepsTo_opened sits
  | walking depth tasks stored =>
    cases tasks with
    | nil => exact exists_stepsTo_end sits depth stored
    | cons task tasks =>
      cases task with
      | directory place => exact exists_stepsTo_directory sits within
      | leaf place => exact exists_stepsTo_leaf sits within
  | failing fault => exact exists_stepsTo_failing sits fault
  | written => exact exists_stepsTo_written
  | ended outcome => exact ⟨.ended outcome, .of_keep trivial fun u _ => rfl⟩

end Step

end Packer

end Classpath
