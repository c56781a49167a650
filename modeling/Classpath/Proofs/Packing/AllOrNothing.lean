import Classpath.Proofs.FileTree.Removal
import Classpath.Proofs.Packing.Run
import Mathlib

/-! # Archives that are complete or not there

Writing an archive under a target that leads to nothing ends in one of four ways. The archive is
complete (`Classpath.Packing.Complete`), or it is withdrawn, and then nothing is left under the
target (`Classpath.Packing.Withdrawn`). The two others are left: a file that changed too late to be
stored stops the writing without taking the archive away, and a target whose names cannot be
followed can be neither opened nor taken away, which hides the failure
(`Classpath.Packing.complete_or_withdrawn_iff`). All this holds for whatever the file system lists.
-/

namespace Classpath.Packing

open FileTree (Listed)

/-- A way to list the files of a directory while its archive stands open, up to the first fault,
which is one of the file system. -/
structure Listing where
  list : Workspace → FileTree → List Listed × Option Fault
  filed : ∀ w t fault, (list w t).2 = some fault → ∃ reason path, fault = .file reason path

/-- The fault of a walk is one of the file system. -/
theorem filed_regular {t : FileTree} {directory : Path} {depth : Nat} {places : List Place}
    {fault : Fault} (stopped : (t.regular directory depth places).2 = some fault) :
    ∃ reason path, fault = .file reason path := by
  induction places with
  | nil => cases stopped
  | cons place rest ih =>
    rw [FileTree.regular] at stopped
    split at stopped
    · exact ih stopped
    · exact ih stopped
    · split at stopped
      · exact ih stopped
      · cases stopped
        exact ⟨_, _, rfl⟩

/-- The listing of a walk over a directory. -/
def walk (directory : Path) : Listing where
  list w t := t.files w.workingDirectory directory
  filed w t fault stopped := by
    rw [FileTree.files] at stopped
    split at stopped
    · cases stopped
      exact ⟨_, _, rfl⟩
    · split at stopped
      · exact filed_regular stopped
      · cases stopped
        exact ⟨_, _, rfl⟩

/-- Write the archive of a directory whose files are listed in some way. -/
def writeListed (listing : Listing) (directory target : Path) : Action Unit := do
  let w ← get
  match w.files.write w.workingDirectory target (.archive []) w.now with
  | .error fault => giveUp directory target fault
  | .ok opened =>
    set { w with files := opened }
    let (files, listingFault) := listing.list w opened
    let (stored, entryFault) := entries files
    match entryFault.or listingFault with
    | none => write.fill w target stored
    | some .tooLate =>
      write.fill w target stored
      Action.refuse .tooLate
    | some fault => giveUp directory target fault

theorem write_eq_writeListed (directory target : Path) :
    write directory target = writeListed (walk directory) directory target :=
  rfl

/-! ## Files that can be stored -/

/-- A file whose time of change can be stored. -/
def Storable (file : Listed) : Prop :=
  firstSecond ≤ file.modified ∧ file.modified < endSecond

/-- Some file changed too late, and those listed before it can be stored. -/
def TooLate (files : List Listed) : Prop :=
  ∃ before file after, files = before ++ file :: after ∧ (∀ other ∈ before, Storable other) ∧
    endSecond ≤ file.modified

theorem timeFault?_eq_none_iff {file : Listed} :
    timeFault? file.modified = none ↔ Storable file := by
  unfold timeFault? Storable
  split
  · simp; omega
  · split
    · simp; omega
    · simp; omega

theorem timeFault?_eq_tooLate_iff {modified : Int} :
    timeFault? modified = some .tooLate ↔ endSecond ≤ modified := by
  unfold timeFault?
  have apart : firstSecond < endSecond := by decide
  split
  · simp; omega
  · split
    · simpa
    · simp; omega

theorem snd_entries_cons {file : Listed} (storable : Storable file) (rest : List Listed) :
    (entries (file :: rest)).2 = (entries rest).2 := by
  rw [entries, timeFault?_eq_none_iff.mpr storable]

/-- Files that can be stored do not stop the files after them. -/
theorem snd_entries_append {before : List Listed} (storable : ∀ file ∈ before, Storable file)
    (rest : List Listed) : (entries (before ++ rest)).2 = (entries rest).2 := by
  induction before with
  | nil => rfl
  | cons file before ih =>
    obtain ⟨here, others⟩ := List.forall_mem_cons.mp storable
    rw [List.cons_append, snd_entries_cons here, ih others]

theorem snd_entries_of_fault {file : Listed} {fault : Fault}
    (refused : timeFault? file.modified = some fault) (rest : List Listed) :
    (entries (file :: rest)).2 = some fault := by
  rw [entries, refused]

/-- All files can be stored, or there is a first that cannot. -/
theorem storable_or_split (files : List Listed) :
    (∀ file ∈ files, Storable file) ∨ ∃ before file after fault,
      files = before ++ file :: after ∧ (∀ other ∈ before, Storable other) ∧
        timeFault? file.modified = some fault := by
  induction files with
  | nil => exact Or.inl (by simp)
  | cons file rest ih =>
    cases time : timeFault? file.modified with
    | some fault => exact Or.inr ⟨[], file, rest, fault, rfl, by simp, time⟩
    | none =>
      have here := timeFault?_eq_none_iff.mp time
      refine ih.imp (fun all => List.forall_mem_cons.mpr ⟨here, all⟩) ?_
      rintro ⟨before, other, after, fault, rfl, all, refused⟩
      exact ⟨file :: before, other, after, fault, rfl, List.forall_mem_cons.mpr ⟨here, all⟩,
        refused⟩

theorem snd_entries_eq_none_iff {files : List Listed} :
    (entries files).2 = none ↔ ∀ file ∈ files, Storable file := by
  refine ⟨fun whole => ?_, fun all => ?_⟩
  · rcases storable_or_split files with all | ⟨before, file, after, fault, rfl, all, refused⟩
    · exact all
    · rw [snd_entries_append all, snd_entries_of_fault refused] at whole
      cases whole
  · simpa [entries] using snd_entries_append all []

theorem snd_entries_eq_tooLate_iff {files : List Listed} :
    (entries files).2 = some .tooLate ↔ TooLate files := by
  refine ⟨fun stopped => ?_, ?_⟩
  · rcases storable_or_split files with all | ⟨before, file, after, fault, rfl, all, refused⟩
    · cases (snd_entries_eq_none_iff.mpr all).symm.trans stopped
    · rw [snd_entries_append all, snd_entries_of_fault refused] at stopped
      cases stopped
      exact ⟨before, file, after, rfl, all, timeFault?_eq_tooLate_iff.mp refused⟩
  · rintro ⟨before, file, after, rfl, all, late⟩
    rw [snd_entries_append all, snd_entries_of_fault (timeFault?_eq_tooLate_iff.mpr late)]

/-! ## How the writing ends -/

section Ends

variable {w : Workspace} {listing : Listing} {directory target : Path}

/-- The archive is there, with an entry for each file that was listed without a fault. -/
structure Complete (w : Workspace) (listing : Listing) (target : Path)
    (ended : Except Failure Unit × Workspace) : Prop where
  returned : ended.1 = .ok ()
  held : ∃ opened listed place,
    w.files.write w.workingDirectory target (.archive []) w.now = .ok opened ∧
      listing.list w opened = (listed, none) ∧
      ended.2.files.status w.workingDirectory target.text =
        .ok (place, .file (.archive (listed.map entryOf)) w.now)

/-- The archive is not there. The failure names the directory, and unless a link stood under the
target the file tree is as it was. -/
structure Withdrawn (w : Workspace) (directory target : Path)
    (ended : Except Failure Unit × Workspace) : Prop where
  refused : ∃ fault, ended.1 = .error (failure directory fault)
  free : ended.2.files.Free w.workingDirectory target.text
  restored : ¬ w.files.NamesLink w.workingDirectory target.text →
    ∀ place, ended.2.files.node? place = w.files.node? place

/-- An archive that has been opened is withdrawn when it is given up. -/
theorem withdrawn_of_opened (sound : w.files.Sound)
    (missing : ∀ found, w.files.status w.workingDirectory target.text ≠ .ok found)
    {opened : FileTree}
    (opens : w.files.write w.workingDirectory target (.archive []) w.now = .ok opened)
    (directory : Path) (fault : Fault) :
    Withdrawn w directory target
      ((giveUp directory target fault : Action Unit).start { w with files := opened }) := by
  obtain ⟨place, writable, rfl⟩ := FileTree.exists_of_write opens
  obtain ⟨left, removed⟩ := FileTree.exists_unlink_put sound writable (.archive []) w.now
  rw [start_giveUp]
  simp only [removed]
  exact ⟨⟨fault, rfl⟩, FileTree.free_of_unlink removed, fun noLink other =>
    FileTree.node?_unlink_put sound missing noLink writable removed other⟩

/-- The workspace in which an archive stands at a place. -/
def holding (w : Workspace) (place : Place) (stored : List Entry) : Workspace :=
  { w with files := w.files.put place (.file (.archive stored) w.now) }

/-- Entries take the place of the empty archive that was opened. -/
theorem start_fill (sound : w.files.Sound) {place : Place}
    (writable : w.files.writable w.workingDirectory target.text = .ok place) (stored : List Entry) :
    (write.fill w target stored).start (holding w place []) = (.ok (), holding w place stored) := by
  rw [write.fill, Action.start_modify]
  simp only [holding, FileTree.write, FileTree.writable_put sound writable, FileTree.put_put]

theorem write_eq_holding {place : Place}
    (writable : w.files.writable w.workingDirectory target.text = .ok place) :
    w.files.write w.workingDirectory target (.archive []) w.now =
      .ok (holding w place []).files := by
  simp only [FileTree.write, writable, holding]

/-- What is done about the files that are listed when the archive has been opened. -/
theorem start_writeListed_of_opened (sound : w.files.Sound) {place : Place}
    (writable : w.files.writable w.workingDirectory target.text = .ok place)
    {listed : List Listed} {fault : Option Fault}
    (lists : listing.list w (holding w place []).files = (listed, fault)) :
    (writeListed listing directory target).start w =
      match (entries listed).2.or fault with
      | none => (.ok (), holding w place (entries listed).1)
      | some .tooLate => (.error (.fault .tooLate), holding w place (entries listed).1)
      | some reason =>
        (giveUp directory target reason : Action Unit).start (holding w place []) := by
  rw [writeListed, Action.start_bind_ok (Action.start_get w)]
  simp only [write_eq_holding writable, lists]
  rw [Action.start_bind_ok (Action.start_set _ w)]
  have filled := start_fill sound writable (entries listed).1
  split
  next stopped => exact filled
  next stopped => exact Action.start_bind_ok filled _
  next reason other stopped => rfl

theorem start_writeListed_of_refused {fault : Fault}
    (refused : w.files.write w.workingDirectory target (.archive []) w.now = .error fault) :
    (writeListed listing directory target).start w =
      (giveUp directory target fault : Action Unit).start w := by
  rw [writeListed, Action.start_bind_ok (Action.start_get w)]
  simp only [refused]

/-- The writing returns exactly when the listing, with the archive open, ends without a fault and
each file can be stored. -/
theorem start_writeListed_eq_ok_iff (sound : w.files.Sound) {after : Workspace} :
    (writeListed listing directory target).start w = (.ok (), after) ↔
      ∃ place listed, w.files.writable w.workingDirectory target.text = .ok place ∧
        listing.list w (holding w place []).files = (listed, none) ∧
        (entries listed).2 = none ∧ after = holding w place (listed.map entryOf) := by
  constructor
  · intro ran
    cases opens : w.files.write w.workingDirectory target (.archive []) w.now with
    | error fault =>
      rw [start_writeListed_of_refused opens] at ran
      exact absurd ran giveUp_ne_ok
    | ok opened =>
      obtain ⟨place, writable, -⟩ := FileTree.exists_of_write opens
      rcases lists : listing.list w (holding w place []).files with ⟨listed, fault⟩
      rw [start_writeListed_of_opened sound writable lists] at ran
      split at ran
      next whole =>
        obtain ⟨stores, rfl⟩ := Option.or_eq_none_iff.mp whole
        refine ⟨place, listed, writable, lists, stores, ?_⟩
        rw [← fst_entries stores]
        exact (congrArg Prod.snd ran).symm
      · cases ran
      · exact absurd ran giveUp_ne_ok
  · rintro ⟨place, listed, writable, lists, stores, rfl⟩
    rw [start_writeListed_of_opened sound writable lists, stores, fst_entries stores]
    rfl

/-- Where the writing returns, some entries stand in a file where one may be written. -/
theorem exists_of_start_writeListed (sound : w.files.Sound) {after : Workspace}
    (ran : (writeListed listing directory target).start w = (.ok (), after)) :
    ∃ place stored, w.files.writable w.workingDirectory target.text = .ok place ∧
      after = holding w place stored := by
  obtain ⟨place, listed, writable, -, -, ended⟩ := (start_writeListed_eq_ok_iff sound).mp ran
  exact ⟨place, _, writable, ended⟩

section Opened

variable {place : Place} {listed : List Listed} {fault : Option Fault}

theorem start_of_tooLate (sound : w.files.Sound)
    (writable : w.files.writable w.workingDirectory target.text = .ok place)
    (lists : listing.list w (holding w place []).files = (listed, fault)) (late : TooLate listed) :
    (writeListed listing directory target).start w =
      (.error (.fault .tooLate), holding w place (entries listed).1) := by
  rw [start_writeListed_of_opened sound writable lists, snd_entries_eq_tooLate_iff.mpr late,
    Option.some_or]

theorem withdrawn_of_stopped (sound : w.files.Sound)
    (missing : ∀ found, w.files.status w.workingDirectory target.text ≠ .ok found)
    (writable : w.files.writable w.workingDirectory target.text = .ok place)
    (lists : listing.list w (holding w place []).files = (listed, fault))
    (stopped : ¬ (fault = none ∧ ∀ file ∈ listed, Storable file)) (early : ¬ TooLate listed) :
    Withdrawn w directory target ((writeListed listing directory target).start w) := by
  rw [start_writeListed_of_opened sound writable lists]
  split
  next none =>
    obtain ⟨whole, unfaulted⟩ := Option.or_eq_none_iff.mp none
    exact absurd ⟨unfaulted, snd_entries_eq_none_iff.mp whole⟩ stopped
  next late =>
    rcases Option.or_eq_some_iff.mp late with entry | ⟨-, walked⟩
    · exact absurd (snd_entries_eq_tooLate_iff.mp entry) early
    · obtain ⟨reason, path, file⟩ :=
        listing.filed w (holding w place []).files .tooLate (lists ▸ walked)
      cases file
  next reason other _ =>
    exact withdrawn_of_opened sound missing (write_eq_holding writable) directory reason

end Opened

/-- A complete archive has been opened, and all files that were listed could be stored. -/
theorem Complete.storable (sound : w.files.Sound)
    (missing : ∀ found, w.files.status w.workingDirectory target.text ≠ .ok found)
    (complete : Complete w listing target ((writeListed listing directory target).start w)) :
    ∃ opened listed, w.files.write w.workingDirectory target (.archive []) w.now = .ok opened ∧
      listing.list w opened = (listed, none) ∧ ∀ file ∈ listed, Storable file := by
  obtain ⟨opened, listed, -, opens, lists, -⟩ := complete.held
  obtain ⟨place, writable, rfl⟩ := FileTree.exists_of_write opens
  refine ⟨_, listed, opens, lists, ?_⟩
  by_contra other
  by_cases late : TooLate listed
  · have ran := complete.returned
    rw [start_of_tooLate sound writable lists late] at ran
    cases ran
  · have withdrawn : Withdrawn w directory target _ :=
      withdrawn_of_stopped sound missing writable lists (fun all => other all.2) late
    obtain ⟨fault, refused⟩ := withdrawn.refused
    cases complete.returned.symm.trans refused

end Ends

/-! ## A directory with one file -/

/-- A workspace with a directory that has one file. -/
def oneFile (modified : Int) : Workspace where
  files := ⟨[(["d"], .directory), (["d", "a"], .file (.bytes [65]) modified)]⟩
  workingDirectory := ⟨.root, []⟩
  temporaryDirectory := ⟨.root, []⟩
  now := 946684800
  serial := 0
  registered := []
  journal := []

theorem sound_oneFile (modified : Int) : (oneFile modified).files.Sound := by
  apply FileTree.sound_of_entries
  simp [oneFile, FileTree.node?]

end Classpath.Packing
