import Classpath.Proofs.FileTree.Standing
import Classpath.Proofs.Packing.Call

/-! # What an archive packs

An archive has an entry for each file that its directory has while the archive stands open. When the
directory does not contain the temporary directory, these are the files that it had before.
Otherwise the archive packs what the call has written so far: the archives of the jobs before, and
itself (`Classpath.Packer.pack_contents`).
-/

namespace Classpath

namespace Packer

open Packing

/-! ## The place of the temporary directory -/

section Fresh

variable {w : Workspace} {temporary : Path} {fresh : Place}

/-- The temporary directory is made in a directory. -/
theorem FreshAt.above (found : FreshAt w temporary fresh) (sound : w.files.Sound)
    (working : w.files.node? w.workingDirectory.names = some .directory) {front back : Place}
    (split : fresh = front ++ back) (below : back ≠ []) :
    w.files.node? front = some .directory := by
  have start : w.files.node? (temporary.origin w.workingDirectory) ≠ none := by
    unfold Path.origin
    split
    · simp [working]
    · simp
  have parent := FileTree.directory_of_follow sound found.followed start found.absent
  obtain ⟨more, name, rfl⟩ := (List.eq_nil_or_concat back).resolve_left below
  rw [split, List.concat_eq_append, ← List.append_assoc, List.dropLast_concat] at parent
  by_cases last : more = []
  · rwa [last, List.append_nil] at parent
  · exact sound.directory_above (by simp [parent]) last

theorem FreshAt.unique {fresh' : Place} (found : FreshAt w temporary fresh)
    (found' : FreshAt w temporary fresh') : fresh = fresh' :=
  Except.ok.inj (found.followed.symm.trans found'.followed)

/-- The place of the temporary directory is made of names. -/
theorem FreshAt.canonical (found : FreshAt w temporary fresh)
    (canonical : w.workingDirectory.Canonical) : (⟨.root, fresh⟩ : Path).Canonical := by
  have named := FileTree.named_of_follow found.followed
    (fun name member => (found.normal name member).2.2) (by
      intro name member
      unfold Path.origin at member
      split at member
      · exact ⟨canonical.normal name member, fun up => canonical.plain (up ▸ member)⟩
      · cases member)
  exact ⟨rfl, fun name member => (named name member).1, fun up => (named _ up).2 rfl⟩

end Fresh

/-! ## The archives of a call -/

section Moment

variable {w current : Workspace} {temporary : Path} {fresh : Place} {front : List Job} {job : Job}
  {moment : FileTree} {listed : List FileTree.Listed}

/-- The archives that stand while a directory is listed. -/
theorem Moment.reached (held : Moment w current fresh front job moment listed)
    (found : FreshAt w temporary fresh) (sound : w.files.Sound)
    (working : w.files.node? w.workingDirectory.names = some .directory)
    (canonical : w.workingDirectory.Canonical) {other : Job} (member : other ∈ front ++ [job])
    (named : Path.IsName other.target.name) (notUp : other.target.name ≠ "..") :
    ∃ stored modified, moment.Reached (fresh ++ [other.target.name])
      (.file (.archive stored) modified) := by
  have place := found.canonical canonical
  obtain ⟨node, stands⟩ := Option.ne_none_iff_exists'.mp (held.archives other member)
  obtain ⟨stored, modified, rfl⟩ :=
    held.made.archives _ _ (List.prefix_append _ _) (by simp) stands
  refine ⟨stored, modified, place.child named notUp, stands, by simp,
    fun above back split below => ?_⟩
  obtain ⟨more, last, rfl⟩ := (List.eq_nil_or_concat back).resolve_left below
  rw [List.concat_eq_append, ← List.append_assoc] at split
  obtain ⟨split, -⟩ := List.append_inj' split rfl
  by_cases here : more = []
  · rw [here, List.append_nil] at split
    exact split ▸ held.made.directory
  · have directory := found.above sound working split here
    rw [held.made.agree above, directory]
    rintro ⟨rest, beyond⟩
    have size := congrArg List.length split
    rw [← beyond, List.length_append, List.length_append] at size
    exact here (List.eq_nil_of_length_eq_zero (by omega))

end Moment

section Call

variable {p : Packer} {w between after : Workspace} {locations archives : List Location}
  {temporary : Path} {fresh : Place} {jobs : List Job}

/-- A call with jobs runs them and adds their archives to the locations that stay. -/
theorem Prepared.start_packWith (prepared : p.Prepared w locations temporary jobs between)
    (some_job : jobs ≠ []) (runner : List Job → Action (List Location)) :
    (p.packWith runner locations).start w = Action.start (do
      let archives ← runner jobs
      return distinct ((distinct locations).filter
        (fun l => !(directoriesOf w locations).contains l) ++ archives)) between := by
  have planning : (Action.ofFault (p.plan temporary (directoriesOf w locations))).start between =
      (.ok jobs, between) := Action.start_ofFault_eq_ok.mpr ⟨prepared.planned, rfl⟩
  rw [packWith_eq prepared.decided, if_neg, Action.start_bind_ok prepared.made,
    Action.start_bind_ok planning]
  intro none
  have planned := prepared.planned
  rw [List.isEmpty_iff.mp none] at planned
  cases planned
  exact some_job rfl

end Call

/-! ## A directory that contains the temporary directory -/

/-- A workspace with one empty directory, in which temporary directories are made. -/
def emptyDirectory : Workspace :=
  ⟨⟨[(["x"], .directory)]⟩, ⟨.root, []⟩, ⟨.root, ["x"]⟩, 946684800, 0, [], []⟩

/-- A packer that adds nothing to names. -/
def plainNames : Packer :=
  { ending := .text "", extension := .text "", temporaryName := .text "" }

/-- The job that packs the directory. -/
def emptyJob : Job :=
  ⟨⟨"file:///x"⟩, ⟨.root, ["x"]⟩, ⟨.root, ["x", "00000001", "x"]⟩⟩

/-- The workspace after the temporary directory has been made. -/
def withTemporary : Workspace :=
  { emptyDirectory with
    files := ⟨[(["x", "00000001"], .directory), (["x"], .directory)]⟩
    serial := 1
    registered := [⟨.root, ["x", "00000001"]⟩] }

/-- The workspace in which the archive has some entries. -/
def withArchive (stored : List Entry) : Workspace :=
  { withTemporary with
    files := ⟨[(["x", "00000001", "x"], .file (.archive stored) 946684800),
      (["x", "00000001"], .directory), (["x"], .directory)]⟩ }

theorem sound_emptyDirectory : emptyDirectory.files.Sound :=
  FileTree.sound_of_entries (by decide)

theorem isPacked_emptyDirectory :
    leadsToDirectory emptyDirectory ⟨"file:///x"⟩ = .ok true ∧
      isPacked emptyDirectory ⟨"file:///x"⟩ = true := by
  have isLocal : (Location.mk "file:///x").isLocal = true := rfl
  have path : (Location.mk "file:///x").filePath = ⟨.root, ["x"]⟩ := rfl
  have status : emptyDirectory.files.status emptyDirectory.workingDirectory
      (Path.text ⟨.root, ["x"]⟩) = .ok (["x"], .directory) :=
    FileTree.status_followable sound_emptyDirectory (by decide) (by decide) rfl nofun
  have decided : leadsToDirectory emptyDirectory ⟨"file:///x"⟩ = .ok true := by
    rw [leadsToDirectory, if_pos isLocal, path, FileTree.isDirectory, FileTree.ask, status]
    rfl
  refine ⟨decided, ?_⟩
  rw [isPacked, decided]
  rfl

theorem directoriesOf_emptyDirectory :
    directoriesOf emptyDirectory [⟨"file:///x"⟩] = [⟨"file:///x"⟩] := by
  rw [directoriesOf, distinct_of_nodup (List.nodup_singleton _),
    List.filter_cons_of_pos isPacked_emptyDirectory.2]
  exact List.mergeSort_singleton _

theorem prepared_emptyDirectory : plainNames.Prepared emptyDirectory [⟨"file:///x"⟩]
    ⟨.root, ["x", "00000001"]⟩ [emptyJob] withTemporary := by
  have path : (Location.mk "file:///x").path = .ok ⟨.root, ["x"]⟩ := rfl
  obtain ⟨decided, packed⟩ := isPacked_emptyDirectory
  have stem : plainNames.stem ⟨.root, ["x"]⟩ = "x" := rfl
  have target : (⟨.root, ["x", "00000001"]⟩ : Path).join (.ofText (plainNames.fileName "x" 1)) =
      ⟨.root, ["x", "00000001", "x"]⟩ := rfl
  refine ⟨fun l member => ?_, by cbv, ?_⟩
  · rw [distinct_of_nodup (List.nodup_singleton _), List.mem_singleton] at member
    rw [member, packed, decided]
  · simp only [directoriesOf_emptyDirectory, Packer.plan, planAfter, path, bind, Except.bind, stem,
      List.count_nil, Nat.zero_add, target, pure, Except.pure]
    rfl

theorem of_emptyJob : Location.of ⟨.root, []⟩ (.path emptyJob.target) =
    .ok ⟨"file:///x/00000001/x"⟩ := by
  have text : emptyJob.target.text = "/x/00000001/x" := rfl
  have visible : Text.blank "/x/00000001/x" = false := rfl
  have trimmed : Text.trim "/x/00000001/x" = "/x/00000001/x" := rfl
  have host : Uri.hostFault? (Uri.Reference.ofText "/x/00000001/x").authority = none := rfl
  have normal : Location.normalForm ⟨.root, []⟩ "/x/00000001/x" = .ok "file:///x/00000001/x" := rfl
  rw [Location.of, text, Location.ofText, visible, if_neg (by simp), Location.normalize, trimmed,
    host, normal]
  rfl

theorem write_emptyJob : (write emptyJob.directory emptyJob.target).start withTemporary =
    (.ok (), withArchive [⟨"00000001/x", []⟩]) := by
  have sound : withTemporary.files.Sound := FileTree.sound_of_entries (by decide)
  have writable : withTemporary.files.writable withTemporary.workingDirectory
      (Path.text ⟨.root, ["x", "00000001", "x"]⟩) = .ok ["x", "00000001", "x"] :=
    FileTree.writable_followable sound (by decide) (by decide) rfl none rfl nofun nofun
  have opens : withTemporary.files.write withTemporary.workingDirectory emptyJob.target
      (.archive []) withTemporary.now = .ok (withArchive []).files := by
    rw [FileTree.write, emptyJob, writable]
    rfl
  have listing : (withArchive []).files.files withTemporary.workingDirectory emptyJob.directory =
      ([⟨⟨.root, ["x", "00000001", "x"]⟩, ["00000001", "x"], .archive [], 946684800⟩], none) := by
    cbv
  have again : (withArchive []).files.writable withTemporary.workingDirectory
      (Path.text ⟨.root, ["x", "00000001", "x"]⟩) = .ok ["x", "00000001", "x"] :=
    FileTree.writable_put sound writable (.archive []) 946684800
  have fills : (write.fill withTemporary emptyJob.target [⟨"00000001/x", []⟩]).start
      (withArchive []) = (.ok (), withArchive [⟨"00000001/x", []⟩]) := by
    rw [write.fill, Action.start_modify, FileTree.write, emptyJob, again]
    rfl
  exact start_write_of_opened opens listing fills

/-- The call packs the directory into its own temporary directory. -/
theorem pack_emptyDirectory : (plainNames.pack [⟨"file:///x"⟩]).start emptyDirectory =
    (.ok [⟨"file:///x/00000001/x"⟩], { withArchive [⟨"00000001/x", []⟩] with
      journal := [.packed emptyJob.directory.text emptyJob.target.text] }) := by
  have ran : (run emptyJob).start withTemporary = (.ok ⟨"file:///x/00000001/x"⟩,
      { withArchive [⟨"00000001/x", []⟩] with
        journal := [.packed emptyJob.directory.text emptyJob.target.text] }) := by
    rw [run, Action.start_bind_ok write_emptyJob, Action.start_bind_ok (Action.start_report _ _),
      Action.start_bind_ok (Action.start_get _)]
    exact Action.start_ofFault_eq_ok.mpr ⟨of_emptyJob, rfl⟩
  have jobs : plainNames.runJobs [emptyJob] = runInOrder [emptyJob] := rfl
  have kept : (distinct [Location.mk "file:///x"]).filter
      (fun l => !(directoriesOf emptyDirectory [⟨"file:///x"⟩]).contains l) = [] := by
    rw [directoriesOf_emptyDirectory, distinct_of_nodup (List.nodup_singleton _)]
    simp
  rw [pack_eq, prepared_emptyDirectory.start_packWith (by simp), jobs, runInOrder,
    Action.start_bind, Action.start_bind_ok ran, kept]
  rfl

end Packer

end Classpath
