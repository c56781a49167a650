import Classpath.Packing.Pool
import Classpath.Proofs.Packing.Run

/-! # The steps of a job

A job that takes its steps without a break does what the job does as a whole
(`Classpath.Packer.reaches_run`). While it walks its directory, the files that are still to be
stored are those below the directories that have not been read and the leaves that are left.
-/

namespace Classpath.Packer

open Packing

/-! ## Steps without a break -/

/-- A job comes from one state to another when it takes some steps without a break. -/
def Reaches (job : Job) (s s' : Stage × Workspace) : Prop :=
  ∃ n, (step job)^[n] s = s'

variable {job : Job} {s s' s'' : Stage × Workspace}

theorem Reaches.refl : Reaches job s s :=
  ⟨0, rfl⟩

theorem Reaches.next (later : Reaches job (step job s) s') : Reaches job s s' := by
  obtain ⟨n, later⟩ := later
  exact ⟨n + 1, later⟩

theorem Reaches.trans (first : Reaches job s s') (second : Reaches job s' s'') :
    Reaches job s s'' := by
  obtain ⟨n, rfl⟩ := first
  obtain ⟨m, rfl⟩ := second
  exact ⟨m + n, Function.iterate_add_apply _ _ _ _⟩

theorem iterate_ended (outcome : Except Failure Location) (w : Workspace) (n : Nat) :
    (step job)^[n] (.ended outcome, w) = (.ended outcome, w) :=
  Function.iterate_fixed rfl n

/-- A job ends in one way. -/
theorem Reaches.ended_inj {outcome outcome' : Except Failure Location} {after after' : Workspace}
    (first : Reaches job s (.ended outcome, after))
    (second : Reaches job s (.ended outcome', after')) : outcome = outcome' ∧ after = after' := by
  obtain ⟨n, first⟩ := first
  obtain ⟨m, second⟩ := second
  have ended : (step job)^[m + n] s = (.ended outcome, after) := by
    rw [Function.iterate_add_apply, first, iterate_ended]
  have ended' : (step job)^[n + m] s = (.ended outcome', after') := by
    rw [Function.iterate_add_apply, second, iterate_ended]
  rw [Nat.add_comm, ended, Prod.mk.injEq, Stage.ended.injEq] at ended'
  exact ended'

/-! ## The walk -/

/-- The places that may be files among what is still to be done. -/
def Task.leaves (t : FileTree) : Task → List Place
  | .directory place => t.leavesBelow place
  | .leaf place => [place]

theorem flatMap_leaves_tasksIn (t : FileTree) (place : Place) :
    (tasksIn t place).flatMap (Task.leaves t) = t.leavesBelow place := by
  rw [FileTree.leavesBelow_eq, tasksIn, List.flatMap_append, List.flatMap_map, List.flatMap_map]
  simp only [Task.leaves, ← List.map_eq_flatMap]

/-- The state in which a walk ends that has stored some entries and lists the files that are
left. -/
def walked (job : Job) (depth : Nat) (w : Workspace) (stored : List Entry)
    (listing : List FileTree.Listed × Option Fault) : Stage × Workspace :=
  let (more, entryFault) := entries listing.1
  match entryFault.or listing.2 with
  | none => (.walking depth [] (stored ++ more), w)
  | some .tooLate =>
    (.ended (.error (.fault .tooLate)),
      ((write.fill w job.target (stored ++ more)).start w).2)
  | some fault => (.failing fault, w)

/-- A file whose time of change can be stored is stored before the files after it. -/
theorem walked_cons {job : Job} {depth : Nat} {w : Workspace} {stored : List Entry}
    (file : FileTree.Listed) {files : List FileTree.Listed} {fault : Option Fault}
    (storable : timeFault? file.modified = none) :
    walked job depth w stored (file :: files, fault) =
      walked job depth w (stored ++ [entryOf file]) (files, fault) := by
  cases later : entries files with
  | mk more entryFault =>
    simp only [walked, entries, storable, later, List.append_assoc, List.singleton_append]
    rfl

/-- A file whose time of change cannot be stored ends the walk. -/
theorem walked_refused {job : Job} {depth : Nat} {w : Workspace} {stored : List Entry}
    (file : FileTree.Listed) {files : List FileTree.Listed} {fault : Option Fault}
    {reason : Fault} (refused : timeFault? file.modified = some reason) :
    walked job depth w stored (file :: files, fault) =
      walked job depth w stored ([], some reason) := by
  simp [walked, entries, refused]

section Walk

variable {depth : Nat} {w : Workspace} {tasks : List Task}

/-- What is left of a walk is done as the listing says. -/
def Walks (job : Job) (depth : Nat) (w : Workspace) (tasks : List Task) : Prop :=
  ∀ stored, Reaches job (.walking depth tasks stored, w) (walked job depth w stored
    (w.files.regular job.directory depth (tasks.flatMap (Task.leaves w.files))))

theorem walks_nil : Walks job depth w [] := by
  intro stored
  have ended : walked job depth w stored (w.files.regular job.directory depth []) =
      (.walking depth [] stored, w) := by
    simp [walked, FileTree.regular, entries]
  rw [List.flatMap_nil, ended]
  exact .refl

theorem Walks.leaf (later : Walks job depth w tasks) (place : Place) :
    Walks job depth w (.leaf place :: tasks) := by
  intro stored
  apply Reaches.next
  rw [List.flatMap_cons, Task.leaves, List.singleton_append, FileTree.regular]
  simp only [step]
  cases found : w.files.statusAt place with
  | error fault =>
    dsimp only
    split
    · exact later stored
    · exact .refl
  | ok node =>
    cases node with
    | file content modified =>
      dsimp only
      cases refused : timeFault? modified with
      | none => exact walked_cons ⟨_, _, content, modified⟩ refused ▸ later _
      | some reason =>
        rw [walked_refused ⟨_, _, content, modified⟩ refused]
        simp only [walked, entries, Option.none_or, List.append_nil]
        cases reason <;> exact .refl
    | directory => exact later stored
    | link target => exact later stored
    | pipe => exact later stored

theorem Walks.directory {place : Place}
    (later : Walks job depth w (tasksIn w.files place ++ tasks)) :
    Walks job depth w (.directory place :: tasks) := by
  intro stored
  apply Reaches.next
  have same := later stored
  rwa [List.flatMap_append, flatMap_leaves_tasksIn] at same

/-- Every walk comes to an end while nothing changes. -/
theorem walks (tasks : List Task) : Walks job depth w tasks := by
  have below : ∀ place tasks, Walks job depth w tasks →
      Walks job depth w (.directory place :: tasks) := by
    intro place
    induction place using FileTree.leavesBelow.induct w.files with
    | case1 place ih =>
      intro tasks later
      apply Walks.directory
      have deeper : ∀ names : List String, (∀ name ∈ names, name ∈ w.files.directoriesIn place) →
          Walks job depth w (names.map (fun name => .directory (place ++ [name])) ++ tasks) := by
        intro names inside
        induction names with
        | nil => exact later
        | cons name names inner =>
          exact ih ⟨name, inside name List.mem_cons_self⟩ _
            (inner fun other member => inside other (List.mem_cons_of_mem _ member))
      have leaves : ∀ names : List String,
          Walks job depth w (names.map (fun name => .leaf (place ++ [name])) ++
            ((w.files.directoriesIn place).map (fun name => .directory (place ++ [name])) ++
              tasks)) := by
        intro names
        induction names with
        | nil => exact deeper _ fun _ member => member
        | cons name names inner => exact inner.leaf _
      rw [tasksIn, List.append_assoc]
      exact leaves _
  induction tasks with
  | nil => exact walks_nil
  | cons task tasks ih =>
    cases task with
    | directory place => exact below place tasks ih
    | leaf place => exact ih.leaf place

end Walk

/-! ## A whole job -/

theorem run_eq (job : Job) :
    run job = (write job.directory job.target >>= fun _ => step.finish job) :=
  rfl

/-- An archive is given up with the same failure whatever was to come. -/
theorem exists_giveUp (directory target : Path) (fault : Fault) (w : Workspace) :
    ∃ refusal after, ∀ α : Type,
      (giveUp directory target fault : Action α).start w = (.error refusal, after) := by
  simp only [start_giveUp]
  split
  · exact ⟨_, _, fun _ => rfl⟩
  · exact ⟨_, _, fun _ => rfl⟩
  · exact ⟨_, _, fun _ => rfl⟩

theorem reaches_failing (job : Job) (fault : Fault) (w : Workspace)
    {next : Unit → Action Location} :
    Reaches job (.failing fault, w)
      (.ended ((giveUp job.directory job.target fault >>= next).start w).1,
        ((giveUp job.directory job.target fault >>= next).start w).2) := by
  obtain ⟨refusal, after, given⟩ := exists_giveUp job.directory job.target fault w
  apply Reaches.next
  rw [step, Action.start_bind, given, given]
  exact .refl

/-- What a job does about its archive once the files of the directory have been listed. -/
def conclude (job : Job) (w : Workspace) (listing : List FileTree.Listed × Option Fault) :
    Action Unit :=
  let (stored, entryFault) := entries listing.1
  match entryFault.or listing.2 with
  | none => write.fill w job.target stored
  | some .tooLate => do
    write.fill w job.target stored
    Action.refuse .tooLate
  | some fault => giveUp job.directory job.target fault

/-- After the walk a job ends as it does after the listing. -/
theorem reaches_conclude (job : Job) (depth : Nat) (w : Workspace)
    (listing : List FileTree.Listed × Option Fault) :
    Reaches job (walked job depth w [] listing)
      (.ended ((conclude job w listing >>= fun _ => step.finish job).start w).1,
        ((conclude job w listing >>= fun _ => step.finish job).start w).2) := by
  cases storing : entries listing.1 with
  | mk stored entryFault =>
    have filled : (write.fill w job.target stored).start w =
        (.ok (), ((write.fill w job.target stored).start w).2) := rfl
    simp only [walked, conclude, storing, List.nil_append]
    cases entryFault.or listing.2 with
    | none =>
      apply Reaches.next
      apply Reaches.next
      rw [Action.start_bind_ok filled]
      exact .refl
    | some fault =>
      by_cases late : fault = .tooLate
      · subst late
        dsimp only
        rw [Action.start_bind, Action.start_bind_ok filled]
        exact .refl
      · cases fault <;> first | exact absurd rfl late | exact reaches_failing job _ w

theorem run_of_refused {job : Job} {w : Workspace} {fault : Fault}
    (refused : w.files.write w.workingDirectory job.target (.archive []) w.now = .error fault) :
    (run job).start w =
      (giveUp job.directory job.target fault >>= fun _ : Unit => step.finish job).start w := by
  rw [run_eq, Action.start_bind, Action.start_bind, start_write_of_refused refused]

theorem run_of_opened {job : Job} {w : Workspace} {opened : FileTree}
    (opens : w.files.write w.workingDirectory job.target (.archive []) w.now = .ok opened) :
    (run job).start w =
      (conclude job { w with files := opened } (opened.files w.workingDirectory job.directory) >>=
        fun _ => step.finish job).start { w with files := opened } := by
  have concluded : (write job.directory job.target).start w =
      (conclude job { w with files := opened }
        (opened.files w.workingDirectory job.directory)).start { w with files := opened } := by
    rw [write, Action.start_bind_ok (Action.start_get w), opens,
      Action.start_bind_ok (Action.start_set _ w)]
    rfl
  rw [run_eq, Action.start_bind, Action.start_bind, concluded]

/-- **A job that takes its steps without a break does what it does as a whole.** -/
theorem reaches_run (job : Job) (w : Workspace) :
    Reaches job (.waiting, w) (.ended ((run job).start w).1, ((run job).start w).2) := by
  apply Reaches.next
  rw [step]
  cases opening : w.files.write w.workingDirectory job.target (.archive []) w.now with
  | error fault =>
    rw [run_of_refused opening]
    exact reaches_failing job fault w
  | ok opened =>
    rw [run_of_opened opening]
    apply Reaches.next
    simp only [step]
    cases found : opened.status w.workingDirectory job.directory.text with
    | error fault =>
      rw [FileTree.files, found]
      exact reaches_conclude job 0 { w with files := opened } ([], some (.file fault _))
    | ok entry =>
      obtain ⟨place, node⟩ := entry
      rw [FileTree.files, found]
      dsimp only
      split
      next directory =>
        have walk : Walks job place.length { w with files := opened } [.directory place] :=
          walks _
        specialize walk []
        rw [List.flatMap_singleton, Task.leaves] at walk
        exact walk.trans (reaches_conclude job _ _ _)
      next other =>
        exact reaches_conclude job 0 { w with files := opened } ([], some (.file .notDirectory _))

end Classpath.Packer
