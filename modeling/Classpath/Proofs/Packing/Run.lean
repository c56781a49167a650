import Classpath.Proofs.Packing.Slot

/-! # Packing into the fresh directory

While the jobs of a plan are run, the file tree stays as it was except below the fresh directory
(`Classpath.Packing.Made`). Each job adds one archive there, with an entry for each file that its
directory has at that moment (`Classpath.Packing.write_eq_ok_iff`), and the archives of the jobs
before stay (`Classpath.Packer.runInOrder_spec`).
-/

namespace Classpath

namespace Packing

/-! ## Writing one archive -/

/-- The entry of a file in an archive. -/
def entryOf (file : FileTree.Listed) : Entry :=
  ⟨file.entryName, file.content.data⟩

/-- Where no file is refused, there is an entry for each. -/
theorem eq_map_of_entries {listed : List FileTree.Listed} {stored : List Entry}
    (stores : entries listed = (stored, none)) : stored = listed.map entryOf := by
  induction listed generalizing stored with
  | nil =>
    cases stores
    rfl
  | cons file rest ih =>
    unfold entries at stores
    split at stores
    · cases stores
    cases later : entries rest with
    | mk more fault =>
      rw [later] at stores
      cases stores
      rw [List.map_cons, ih later]
      rfl

theorem fst_entries {listed : List FileTree.Listed} (stores : (entries listed).2 = none) :
    (entries listed).1 = listed.map entryOf :=
  eq_map_of_entries (Prod.ext_iff.mpr ⟨rfl, stores⟩)

/-- An archive is given up with the failure of its directory, unless its file cannot be taken away
for another reason than that it is not there. -/
theorem start_giveUp {α : Type} (directory target : Path) (fault : Fault) (w : Workspace) :
    (giveUp directory target fault : Action α).start w =
      match w.files.unlink w.workingDirectory target.text with
      | .ok files => (.error (failure directory fault), { w with files })
      | .error .noEntry => (.error (failure directory fault), w)
      | .error other => (.error (.fault (.file other target.text)), w) := by
  rw [giveUp, Action.start_bind_ok (Action.start_get w)]
  cases w.files.unlink w.workingDirectory target.text with
  | ok files => rfl
  | error other => cases other <;> rfl

theorem giveUp_ne_ok {α : Type} {directory target : Path} {fault : Fault} {w after : Workspace}
    {a : α} : (giveUp directory target fault).start w ≠ (.ok a, after) := by
  intro ran
  rw [start_giveUp] at ran
  split at ran <;> cases ran

/-- An archive that cannot be opened is given up. -/
theorem start_write_of_refused {w : Workspace} {directory target : Path} {fault : Fault}
    (refused : w.files.write w.workingDirectory target (.archive []) w.now = .error fault) :
    (write directory target).start w =
      (giveUp directory target fault : Action Unit).start w := by
  rw [write, Action.start_bind_ok (Action.start_get w), refused]

/-- What is done about the files that are listed when the archive has been opened. -/
theorem start_write_of_opened {w filled : Workspace} {directory target : Path} {opened : FileTree}
    {listed : List FileTree.Listed} {fault : Option Fault}
    (opens : w.files.write w.workingDirectory target (.archive []) w.now = .ok opened)
    (lists : opened.files w.workingDirectory directory = (listed, fault))
    (fills : (write.fill w target (entries listed).1).start { w with files := opened } =
      (.ok (), filled)) :
    (write directory target).start w =
      match (entries listed).2.or fault with
      | none => (.ok (), filled)
      | some .tooLate => (.error (.fault .tooLate), filled)
      | some reason =>
        (giveUp directory target reason : Action Unit).start { w with files := opened } := by
  rw [write, Action.start_bind_ok (Action.start_get w)]
  simp only [opens, lists]
  rw [Action.start_bind_ok (Action.start_set _ w)]
  generalize (entries listed).2.or fault = stopped
  split
  · exact fills
  · exact Action.start_bind_ok fills _
  · simp

/-- What a job leaves at a place of the fresh directory: an archive with an entry for each file that
the directory had at some moment. -/
def Holds (before : FileTree) (fresh : Place) (workingDirectory directory : Path) (node : Node) :
    Prop :=
  ∃ moment listed modified, Made before fresh moment ∧
    moment.files workingDirectory directory = (listed, none) ∧
      node = .file (.archive (listed.map entryOf)) modified

section Target

variable {w current after : Workspace} {temporary target : Path} {fresh place : Place}
  {directory : Path}

/-- The tree in which an archive of the fresh directory stands open and empty. -/
def opened (current : Workspace) (fresh : Place) (name : String) : FileTree :=
  current.files.put (fresh ++ [name]) (.file (.archive []) current.now)

theorem Made.opened (made : Made w.files fresh current.files) (name : String) :
    Made w.files fresh (opened current fresh name) :=
  made.put name [] current.now

/-- The entries are put into the archive that stands open. -/
theorem fill_eq {t : FileTree} (inside : IsTarget w temporary fresh target)
    (made : Made w.files fresh t) (vacant : Vacant t fresh temporary target)
    (same : temporary.origin current.workingDirectory = temporary.origin w.workingDirectory)
    (aims : slot fresh temporary target = .ok place) (stored : List Entry) :
    (write.fill current target stored).start { current with files := t } =
      (.ok (), { current with
        files := t.put place (.file (.archive stored) current.now) }) := by
  rw [write.fill, Action.start_modify, made.write_eq inside vacant same, aims]

/-- A directory is packed into a file of the fresh directory, which is open while the files of the
directory are listed, and that ends well when each of the files can be stored. -/
theorem write_eq_ok_iff (inside : IsTarget w temporary fresh target)
    (made : Made w.files fresh current.files)
    (same : temporary.origin current.workingDirectory = temporary.origin w.workingDirectory) :
    (write directory target).start current = (.ok (), after) ↔
      ∃ name listed, name ≠ ".." ∧ target = temporary.child name ∧ Short target ∧
        (opened current fresh name).files current.workingDirectory directory = (listed, none) ∧
        (entries listed).2 = none ∧
        after = { current with
          files := (opened current fresh name).put (fresh ++ [name])
            (.file (.archive (listed.map entryOf)) current.now) } := by
  have refused : ∀ {fault},
      current.files.write current.workingDirectory target (.archive []) current.now =
        .error fault → (write directory target).start current ≠ (.ok (), after) := by
    intro fault refused
    rw [start_write_of_refused refused]
    exact giveUp_ne_ok
  by_cases deep : Deep temporary target
  · obtain ⟨fault, nowhere⟩ := made.exists_locate_error inside deep .newFile same
    refine iff_of_false (refused (by rw [FileTree.write, FileTree.writable, nowhere]; rfl)) ?_
    rintro ⟨name, -, -, rfl, -⟩
    simp [Deep, Path.child] at deep
  obtain ⟨name, notUp, rfl⟩ := exists_child_of_not_deep inside.below deep
  have named : ∀ {other}, temporary.child name = temporary.child other → other = name := by
    intro other same
    exact (List.singleton_inj.mp (List.append_cancel_left (congrArg Path.names same))).symm
  have opens := made.write_eq inside vacant_child same (.archive []) current.now
  cases aims : slot fresh temporary (temporary.child name) with
  | error fault =>
    rw [aims] at opens
    refine iff_of_false (refused opens) ?_
    rintro ⟨other, -, -, target, short, -⟩
    cases aims.symm.trans (slot_child_eq_ok_iff.mpr ⟨short, rfl⟩)
  | ok place =>
    rw [aims] at opens
    obtain ⟨short, rfl⟩ := slot_child_eq_ok_iff.mp aims
    rcases lists : (opened current fresh name).files current.workingDirectory directory with
      ⟨listed, fault⟩
    rw [start_write_of_opened opens lists (fill_eq inside (made.opened name) vacant_child same aims _)]
    constructor
    · intro ran
      split at ran
      next whole =>
        obtain ⟨stores, rfl⟩ := Option.or_eq_none_iff.mp whole
        cases ran
        rw [fst_entries stores]
        exact ⟨name, listed, notUp, rfl, short, lists, stores, rfl⟩
      · cases ran
      · exact absurd ran giveUp_ne_ok
    · rintro ⟨other, listed', -, target, -, lists', stores, rfl⟩
      obtain rfl := named target
      cases lists.symm.trans lists'
      rw [stores, fst_entries stores]
      rfl

end Target

end Packing

namespace Location

/-- A path whose text ends in no blank is accepted as its URI, if at all. -/
theorem eq_fileUri_of_path {workingDirectory p : Path} {l : Location} (canonical : p.Canonical)
    {front : List Char} {last : Char} (text : p.text.toList = front ++ [last])
    (other : last ≠ '/') (closing : Text.isBlank last = false)
    (accepted : of workingDirectory (.path p) = .ok l) : l = ⟨fileUri p⟩ := by
  obtain ⟨rest, slash⟩ := List.head?_eq_some_iff.mp (Path.head?_text canonical.rooted)
  obtain ⟨cs, rfl⟩ : ∃ cs, front = '/' :: cs := by
    cases front with
    | nil => simp_all
    | cons first cs =>
      rw [text, List.cons_append, List.cons.injEq] at slash
      exact ⟨cs, by rw [slash.1]⟩
  have whole : p.text = String.ofList ('/' :: cs ++ [last]) := by
    rw [← String.toList_inj, String.toList_ofList, text]
  have scheme : (Uri.Reference.ofText p.text).scheme = [] := by
    rw [Uri.Reference.ofText, slash]
    exact Uri.Reference.scheme_slash _
  have visible : Text.blank p.text = false := by
    rw [whole]
    exact blank_eq_false (by decide)
  have trimmed : Text.trim p.text = p.text := by
    rw [whole]
    exact trim_eq (by decide) closing
  have form : normalForm workingDirectory p.text = localUri workingDirectory p := by
    rw [normalForm, scheme]
    exact if_pos (Nat.zero_le 1) |>.trans (by rw [canonical.ofText_text])
  rw [of, ofText, visible, if_neg (by simp), normalize, trimmed, form] at accepted
  split at accepted
  · cases accepted
  · cases made : localUri workingDirectory p with
    | error fault => simp [made, Except.map] at accepted
    | ok uri =>
      rw [made] at accepted
      rw [← canonical.absolute_eq workingDirectory, ← uri_of_localUri made]
      exact (Except.ok.inj accepted).symm

end Location

namespace Packer

open Packing

/-! ## Running the jobs -/

theorem Planned.isTarget {w : Workspace} {temporary : Path} {top fresh : Place} {job : Job}
    {count : Nat} (planned : Planned temporary [] job count)
    (found : Fresh w temporary top fresh) : IsTarget w temporary fresh job.target := by
  obtain ⟨named, notUp⟩ := isName_archiveName planned.normal count
  rw [planned.target]
  exact ⟨found.freshAt, (found.canonical.child named notUp).normal, temporary.below_child notUp⟩

/-- The archive of a job of a plan is accepted as its URI. -/
theorem Planned.location {w : Workspace} {workingDirectory temporary : Path} {top fresh : Place}
    {job : Job} {count : Nat} {l : Location} (planned : Planned temporary [] job count)
    (found : Fresh w temporary top fresh)
    (accepted : Location.of workingDirectory (.path job.target) = .ok l) :
    l = ⟨Location.fileUri job.target⟩ := by
  obtain ⟨named, notUp⟩ := isName_archiveName planned.normal count
  obtain ⟨front, text⟩ := Path.exists_text_child found.canonical.rooted
    (archiveName job.directory count)
  obtain ⟨more, ends⟩ := exists_archiveName job.directory count
  rw [ends, ← List.append_assoc] at text
  rw [planned.target] at accepted ⊢
  exact Location.eq_fileUri_of_path (found.canonical.child named notUp) text (by decide)
    (by decide) accepted

/-- A job ends well when its archive can be written and is accepted as a location, and then it
leaves the archive in the fresh directory. -/
theorem run_eq_ok_iff {w current after : Workspace} {temporary : Path} {fresh : Place} {job : Job}
    {l : Location} (inside : IsTarget w temporary fresh job.target)
    (made : Made w.files fresh current.files)
    (same : temporary.origin current.workingDirectory = temporary.origin w.workingDirectory) :
    (run job).start current = (.ok l, after) ↔
      Location.of current.workingDirectory (.path job.target) = .ok l ∧
        ∃ name listed, name ≠ ".." ∧ job.target = temporary.child name ∧ Short job.target ∧
          (opened current fresh name).files current.workingDirectory job.directory =
            (listed, none) ∧
          (entries listed).2 = none ∧
          after = { current with
            files := (opened current fresh name).put (fresh ++ [name])
              (.file (.archive (listed.map entryOf)) current.now)
            journal := current.journal ++ [.packed job.directory.text job.target.text] } := by
  rw [run]
  constructor
  · intro ran
    obtain ⟨_, written, wrote, rest⟩ := Action.start_bind_eq_ok.mp ran
    obtain ⟨name, listed, notUp, target, short, listing, stored, rfl⟩ :=
      (write_eq_ok_iff inside made same).mp wrote
    obtain ⟨_, noted, reported, rest⟩ := Action.start_bind_eq_ok.mp rest
    cases reported
    obtain ⟨_, _, got, rest⟩ := Action.start_bind_eq_ok.mp rest
    cases got
    obtain ⟨accepted, rfl⟩ := Action.start_ofFault_eq_ok.mp rest
    exact ⟨accepted, name, listed, notUp, target, short, listing, stored, rfl⟩
  · rintro ⟨accepted, name, listed, notUp, target, short, listing, stored, rfl⟩
    have wrote := (write_eq_ok_iff inside made same).mpr
      ⟨name, listed, notUp, target, short, listing, stored, rfl⟩
    rw [Action.start_bind_ok wrote, Action.start_bind_ok (Action.start_report _ _),
      Action.start_bind_ok (Action.start_get _)]
    exact Action.start_ofFault_eq_ok.mpr ⟨accepted, rfl⟩

/-- A moment at which a job lists its directory after some jobs before it have ended: archives that
stood already stand, and so do those of the jobs before and its own. -/
structure Moment (w current : Workspace) (fresh : Place) (front : List Job) (job : Job)
    (moment : FileTree) (listed : List FileTree.Listed) : Prop where
  made : Made w.files fresh moment
  kept : ∀ place, current.files.node? place ≠ none → moment.node? place ≠ none
  archives : ∀ other ∈ front ++ [job], moment.node? (fresh ++ [other.target.name]) ≠ none
  files : moment.files current.workingDirectory job.directory = (listed, none)

section Moment

variable {w current : Workspace} {temporary : Path} {fresh : Place} {job other : Job}
  {moment : FileTree} {listed : List FileTree.Listed}

/-- A job that is run first lists its directory while its own archive stands open. -/
theorem Moment.first (made : Made w.files fresh current.files)
    (listing : (opened current fresh job.target.name).files current.workingDirectory job.directory =
      (listed, none)) :
    Moment w current fresh [] job (opened current fresh job.target.name) listed where
  made := made.opened _
  kept _ there := FileTree.node?_put_ne_none _ _ (by simp) there
  archives := by
    intro other member
    rw [List.mem_singleton.mp member, opened, FileTree.node?_put_self _ _ (by simp)]
    simp
  files := listing

end Moment

end Packer

end Classpath
