import Classpath.Proofs.Packing.Numbered
import Classpath.Proofs.Packing.Run

/-! # The same jobs in another temporary directory

The jobs of a call may be run in two temporary directories of which the paths differ in numbers
only. In lockstep, a job ends well in one of them exactly when it does in the other, and both get
the same archives (`Classpath.Packer.run_elsewhere`). So the jobs together fail in both, or they
leave the same archives in both (`Classpath.Packer.runInOrder_elsewhere`).
-/

namespace Classpath

namespace Packing

/-- The entries of the archive at a place, where one stands. -/
def archiveAt (t : FileTree) (place : Place) : Option (List Entry) :=
  match t.node? place with
  | some (.file (.archive stored) _) => some stored
  | _ => none

theorem archiveAt_put_self (t : FileTree) {place : Place} (below : place ≠ [])
    (stored : List Entry) (modified : Int) :
    archiveAt (t.put place (.file (.archive stored) modified)) place = some stored := by
  rw [archiveAt, FileTree.node?_put_self _ _ below]

theorem archiveAt_put_of_ne (t : FileTree) {place other : Place} (node : Node)
    (apart : other ≠ place) : archiveAt (t.put place node) other = archiveAt t other := by
  rw [archiveAt, archiveAt, FileTree.node?_put_of_ne _ _ apart]

/-- The tree in which an archive has been written to the fresh directory. -/
def filled (current : Workspace) (fresh : Place) (name : String) (stored : List Entry) : FileTree :=
  (opened current fresh name).put (fresh ++ [name]) (.file (.archive stored) current.now)

theorem archiveAt_filled (current : Workspace) (fresh : Place) (name other : String)
    (stored : List Entry) : archiveAt (filled current fresh name stored) (fresh ++ [other]) =
      if other = name then some stored else archiveAt current.files (fresh ++ [other]) := by
  split
  next same => rw [same, filled, archiveAt_put_self _ (by simp)]
  next different =>
    have apart : fresh ++ [other] ≠ fresh ++ [name] := fun same =>
      different (List.singleton_inj.mp (List.append_cancel_left same))
    rw [filled, archiveAt_put_of_ne _ _ apart, opened, archiveAt_put_of_ne _ _ apart]

/-- Two trees in which fresh directories have been made, with the same archives in them. -/
structure Mirrors (w : Workspace) (fresh fresh' : Place) (t t' : FileTree) : Prop where
  left : Made w.files fresh t
  right : Made w.files fresh' t'
  same : ∀ name, archiveAt t (fresh ++ [name]) = archiveAt t' (fresh' ++ [name])

/-- The same archive may be written to both. -/
theorem Mirrors.filled {w current current' : Workspace} {fresh fresh' : Place}
    (mirrors : Mirrors w fresh fresh' current.files current'.files) (name : String)
    (stored : List Entry) :
    Mirrors w fresh fresh' (filled current fresh name stored)
      (Packing.filled current' fresh' name stored) where
  left := (mirrors.left.opened name).put name stored current.now
  right := (mirrors.right.opened name).put name stored current'.now
  same other := by rw [archiveAt_filled, archiveAt_filled, mirrors.same]

end Packing

namespace Packer

open Packing

/-! ## One job -/

/-- The job that writes its archive below a temporary directory. -/
def Job.within (temporary : Path) (job : Job) : Job :=
  { job with target := temporary.join job.target }

/-- A job that writes its archive below a temporary directory and packs a directory that is apart
from it. -/
structure Beside (w : Workspace) (temporary : Path) (fresh : Place) (job : Job) : Prop where
  inside : IsTarget w temporary fresh job.target
  directory : ∃ place,
    w.files.status w.workingDirectory job.directory.text = .ok (place, .directory) ∧
      ¬ place <+: fresh ∧ ¬ w.files.Leads place fresh

/-- What a job comes to that ends well: its archive has a name in the temporary directory, holds an
entry for each file of the directory and is accepted as a location. -/
structure Stores (w : Workspace) (temporary : Path) (job : Job) (name : String)
    (stored : List Entry) (l : Location) : Prop where
  accepted : Location.of w.workingDirectory (.path job.target) = .ok l
  notUp : name ≠ ".."
  target : job.target = temporary.child name
  short : Short job.target
  listed : ∃ listed, w.files.files w.workingDirectory job.directory = (listed, none) ∧
    (entries listed).2 = none ∧ stored = listed.map entryOf

section Job

variable {w current after : Workspace} {temporary : Path} {fresh : Place} {job : Job} {l : Location}

/-- The directory has the files that it had before the temporary directory was made. -/
theorem Beside.files_eq (beside : Beside w temporary fresh job) (sound : w.files.Sound)
    (working : w.files.node? w.workingDirectory.names = some .directory) {t : FileTree}
    (made : Made w.files fresh t) : t.files w.workingDirectory job.directory =
      w.files.files w.workingDirectory job.directory := by
  obtain ⟨place, stands, apart, unlinked⟩ := beside.directory
  have absent := beside.inside.found.absent
  have outside : ¬ fresh <+: w.workingDirectory.names := by
    intro above
    cases (sound.absent_below absent above).symm.trans working
  have passes : w.files.missingAt? w.workingDirectory job.directory.text ≠ some fresh := by
    rw [FileTree.missingAt?_eq_none stands]
    simp
  have there := FileTree.stands_of_status stands
  exact FileTree.files_agree made.agree absent outside stands passes
    (sound.aside absent (by simp [there]) apart) unlinked

/-- A job ends well exactly when it stores the files that its directory had before. -/
theorem Beside.run_eq_ok_iff (beside : Beside w temporary fresh job) (sound : w.files.Sound)
    (working : w.files.node? w.workingDirectory.names = some .directory)
    (made : Made w.files fresh current.files)
    (same : current.workingDirectory = w.workingDirectory) :
    (run job).start current = (.ok l, after) ↔
      ∃ name stored, Stores w temporary job name stored l ∧
        after = { current with
          files := filled current fresh name stored
          journal := current.journal ++ [.packed job.directory.text job.target.text] } := by
  rw [Packer.run_eq_ok_iff beside.inside made (by rw [same]), same]
  have files := fun name => beside.files_eq sound working (made.opened name)
  constructor
  · rintro ⟨accepted, name, listed, notUp, target, short, listing, stores, rfl⟩
    rw [files] at listing
    exact ⟨name, _, ⟨accepted, notUp, target, short, listed, listing, stores, rfl⟩, rfl⟩
  · rintro ⟨name, _, ⟨accepted, notUp, target, short, listed, listing, stores, rfl⟩, rfl⟩
    rw [← files] at listing
    exact ⟨accepted, name, listed, notUp, target, short, listing, stores, rfl⟩

end Job

/-! ## The same job elsewhere -/

/-- A job that may write its archive below either of two temporary directories. -/
structure Movable (w : Workspace) (temporary temporary' : Path) (fresh fresh' : Place)
    (job : Job) : Prop where
  relative : job.target.isAbsolute = false
  left : Beside w temporary fresh (job.within temporary)
  right : Beside w temporary' fresh' (job.within temporary')
  literal : Location.Literal (Text.trim (temporary.join job.target).text)

section Elsewhere

variable {w current current' : Workspace} {temporary temporary' : Path} {fresh fresh' : Place}

protected theorem Movable.symm {job : Job} (renumbered : temporary.Renumbered temporary')
    (movable : Movable w temporary temporary' fresh fresh' job) :
    Movable w temporary' temporary fresh' fresh job :=
  ⟨movable.relative, movable.right, movable.left,
    movable.literal.renumbered (Location.trim_renumbered (renumbered.join _).text)⟩

/-- What ends well in one of the directories ends well in the other. -/
theorem Stores.elsewhere {job : Job} {name : String} {stored : List Entry} {l : Location}
    (renumbered : temporary.Renumbered temporary')
    (movable : Movable w temporary temporary' fresh fresh' job)
    (stores : Stores w temporary (job.within temporary) name stored l) :
    ∃ l', Stores w temporary' (job.within temporary') name stored l' := by
  have joined : ∀ p : Path, p.join job.target = ⟨p.start, p.names ++ job.target.names⟩ :=
    fun p => by rw [Path.join, movable.relative, if_neg (by simp)]
  have target : job.target.names = [name] := by
    have names := stores.target
    rw [Job.within, joined] at names
    exact List.append_cancel_left (congrArg Path.names names)
  have target' : temporary'.join job.target = temporary'.child name := by
    rw [joined, target]
    rfl
  obtain ⟨l', accepted⟩ := Location.exists_of_renumbered (renumbered.join job.target)
    movable.literal ⟨l, stores.accepted⟩
  refine ⟨l', accepted, stores.notUp, target', ?_, stores.listed⟩
  obtain ⟨shortText, shortName⟩ := stores.short
  have size := (renumbered.join job.target).text.utf8ByteSize_eq
  rw [String.ofList_toList, String.ofList_toList] at size
  refine ⟨?_, ?_⟩
  · rw [Job.within, ← size]
    exact shortText
  · rw [stores.target, name_child] at shortName
    rw [Job.within, target', name_child]
    exact shortName

/-- Two workspaces in which the same jobs have been run so far. -/
structure Halfway (w : Workspace) (fresh fresh' : Place) (current current' : Workspace) :
    Prop where
  mirrors : Mirrors w fresh fresh' current.files current'.files
  same : current.workingDirectory = w.workingDirectory
  same' : current'.workingDirectory = w.workingDirectory

/-- In lockstep, a job fails in both temporary directories or leaves the same archive in both. -/
theorem run_elsewhere {job : Job} (sound : w.files.Sound)
    (working : w.files.node? w.workingDirectory.names = some .directory)
    (renumbered : temporary.Renumbered temporary')
    (movable : Movable w temporary temporary' fresh fresh' job)
    (halfway : Halfway w fresh fresh' current current') :
    ((run (job.within temporary)).Fails current ∧ (run (job.within temporary')).Fails current') ∨
    ∃ name stored l l' after after',
      (run (job.within temporary)).start current = (.ok l, after) ∧
      (run (job.within temporary')).start current' = (.ok l', after') ∧
      Stores w temporary (job.within temporary) name stored l ∧
      Stores w temporary' (job.within temporary') name stored l' ∧
      after.files = filled current fresh name stored ∧
      Halfway w fresh fresh' after after' := by
  obtain ⟨mirrors, same, same'⟩ := halfway
  by_cases ends : ∃ name stored l, Stores w temporary (job.within temporary) name stored l
  · obtain ⟨name, stored, l, stores⟩ := ends
    obtain ⟨l', stores'⟩ := stores.elsewhere renumbered movable
    exact .inr ⟨name, stored, l, l', _, _,
      (movable.left.run_eq_ok_iff sound working mirrors.left same).mpr ⟨name, stored, stores, rfl⟩,
      (movable.right.run_eq_ok_iff sound working mirrors.right same').mpr
        ⟨name, stored, stores', rfl⟩,
      stores, stores', rfl, mirrors.filled name stored, same, same'⟩
  · refine .inl ⟨Action.fails_of_not_ok fun l after ran => ?_,
      Action.fails_of_not_ok fun l after ran => ?_⟩
    · obtain ⟨name, stored, stores, -⟩ :=
        (movable.left.run_eq_ok_iff sound working mirrors.left same).mp ran
      exact ends ⟨name, stored, l, stores⟩
    · obtain ⟨name, stored, stores, -⟩ :=
        (movable.right.run_eq_ok_iff sound working mirrors.right same').mp ran
      obtain ⟨l', stores'⟩ := stores.elsewhere renumbered.symm (movable.symm renumbered)
      exact ends ⟨name, stored, l', stores'⟩

/-! ## All jobs -/

/-- What jobs that end well come to, one name for each of them. -/
structure Yields (w : Workspace) (temporary : Path) (fresh : Place) (names : List String)
    (locations : List Location) (after : Workspace) : Prop where
  accepted : List.Forall₂ (fun name l =>
    Location.of w.workingDirectory (.path (temporary.child name)) = .ok l) names locations
  inside : ∀ name ∈ names, IsTarget w temporary fresh (temporary.child name) ∧
    Short (temporary.child name) ∧ archiveAt after.files (fresh ++ [name]) ≠ none

/-- What a job stores stands until all jobs have ended. -/
theorem Yields.cons {after : Workspace} {names : List String} {locations : List Location}
    {job : Job} {name : String} {stored : List Entry} {l : Location}
    (inside : IsTarget w temporary fresh job.target)
    (stores : Stores w temporary job name stored l)
    (stands : archiveAt after.files (fresh ++ [name]) ≠ none)
    (yields : Yields w temporary fresh names locations after) :
    Yields w temporary fresh (name :: names) (l :: locations) after where
  accepted := .cons (stores.target ▸ stores.accepted) yields.accepted
  inside := by
    refine List.forall_mem_cons.mpr ⟨⟨?_, ?_, stands⟩, yields.inside⟩
    · exact stores.target ▸ inside
    · exact stores.target ▸ stores.short

/-- **The same jobs come to the same in another temporary directory.** -/
theorem runInOrder_elsewhere {jobs : List Job} (sound : w.files.Sound)
    (working : w.files.node? w.workingDirectory.names = some .directory)
    (renumbered : temporary.Renumbered temporary')
    (movable : ∀ job ∈ jobs, Movable w temporary temporary' fresh fresh' job)
    (halfway : Halfway w fresh fresh' current current') :
    ((runInOrder (jobs.map (·.within temporary))).Fails current ∧
      (runInOrder (jobs.map (·.within temporary'))).Fails current') ∨
    ∃ names locations locations' after after',
      (runInOrder (jobs.map (·.within temporary))).start current = (.ok locations, after) ∧
      (runInOrder (jobs.map (·.within temporary'))).start current' = (.ok locations', after') ∧
      Yields w temporary fresh names locations after ∧
      Yields w temporary' fresh' names locations' after' ∧
      (∀ name, archiveAt current.files (fresh ++ [name]) ≠ none →
        archiveAt after.files (fresh ++ [name]) ≠ none) ∧
      Halfway w fresh fresh' after after' := by
  induction jobs generalizing current current' with
  | nil =>
    exact .inr ⟨[], [], [], current, current', rfl, rfl, ⟨.nil, by simp⟩, ⟨.nil, by simp⟩,
      fun _ => id, halfway⟩
  | cons job rest ih =>
    -- The mirrored trees carry the induction: they tell that the next job finds the same files.
    have first := movable job List.mem_cons_self
    rcases run_elsewhere sound working renumbered first halfway with ⟨fails, fails'⟩ |
      ⟨name, stored, l, l', between, between', ran, ran', stores, stores', files, later⟩
    · exact .inl ⟨fails.bind _, fails'.bind _⟩
    rcases ih (fun other member => movable other (List.mem_cons_of_mem _ member)) later with
      ⟨fails, fails'⟩ |
      ⟨names, locations, locations', after, after', rest_ran, rest_ran', yields, yields', keeps,
        ended⟩
    · exact .inl ⟨Action.fails_bind_of_ok ran (fails.bind _),
        Action.fails_bind_of_ok ran' (fails'.bind _)⟩
    -- A later job may write the same archive again, so what it holds is read off the last tree.
    have stands : ∀ other, other = name ∨ archiveAt current.files (fresh ++ [other]) ≠ none →
        archiveAt after.files (fresh ++ [other]) ≠ none := by
      intro other before
      apply keeps
      rw [files, archiveAt_filled]
      split
      · simp
      next different => exact before.resolve_left different
    have stands' : archiveAt after'.files (fresh' ++ [name]) ≠ none := by
      rw [← ended.mirrors.same]
      exact stands name (.inl rfl)
    refine .inr ⟨name :: names, l :: locations, l' :: locations', after, after', ?_, ?_,
      yields.cons first.left.inside stores (stands name (.inl rfl)),
      yields'.cons first.right.inside stores' stands',
      fun other before => stands other (.inr before), ended⟩
    · rw [List.map_cons, runInOrder, Action.start_bind_ok ran, Action.start_bind_ok rest_ran]
      rfl
    · rw [List.map_cons, runInOrder, Action.start_bind_ok ran', Action.start_bind_ok rest_ran']
      rfl

end Elsewhere

end Packer

end Classpath
