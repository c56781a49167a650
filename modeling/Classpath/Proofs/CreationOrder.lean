import Classpath.Proofs.Graph.Refusal
import Classpath.Proofs.Packing.AllOrNothing
import Classpath.Proofs.Packing.Contents
import Classpath.Proofs.Packing.Frame
import Classpath.Proofs.Reproduction

/-! # The order of the archives that a run tells of

A run writes the archives in the order of the plan, which is the order of the directories' URIs, and
it gives a notice of each (`Classpath.Packer.Written`). The order is lost where the archives join
the other locations, and the run tells of the new ones sorted by their own URIs. So each is told of
once, and the order is the order of writing exactly when the archives' URIs come in it
(`Classpath.Resolver.archivesCreated_inOrder`).
-/

namespace Classpath

namespace Packer

open Packing

/-! ## Writing in the order of the plan -/

/-- Jobs that have been run one after another: where their archives are, and the notices of them in
the order in which they were written. -/
structure Written (w after : Workspace) (jobs : List Job) (archives : List Location) : Prop where
  located : List.Forall₂
    (fun job archive => Location.of w.workingDirectory (.path job.target) = .ok archive)
    jobs archives
  told : after.journal =
    w.journal ++ jobs.map fun job => .packed job.directory.text job.target.text

variable {w after : Workspace} {jobs : List Job} {archives : List Location}

/-- Writing an archive changes nothing but files. -/
theorem exists_files_of_write {directory target : Path}
    (ran : (write directory target).start w = (.ok (), after)) :
    ∃ files, after = { w with files } := by
  have filled : ∀ (u : Workspace) (stored : List Entry),
      ∃ files, (write.fill w target stored).start u = (.ok (), { u with files }) := by
    intro u stored
    rw [write.fill, Action.start_modify]
    split
    · exact ⟨_, rfl⟩
    · exact ⟨u.files, rfl⟩
  cases opens : w.files.write w.workingDirectory target (.archive []) w.now with
  | error fault =>
    rw [start_write_of_refused opens] at ran
    exact absurd ran giveUp_ne_ok
  | ok opened =>
    rcases lists : opened.files w.workingDirectory directory with ⟨listed, fault⟩
    obtain ⟨files, fills⟩ := filled { w with files := opened } (entries listed).1
    rw [start_write_of_opened opens lists fills] at ran
    split at ran
    · cases ran
      exact ⟨files, rfl⟩
    · cases ran
    · exact absurd ran giveUp_ne_ok

theorem run_written {job : Job} {archive : Location}
    (ran : (run job).start w = (.ok archive, after)) :
    Location.of w.workingDirectory (.path job.target) = .ok archive ∧
      after.workingDirectory = w.workingDirectory ∧
      after.journal = w.journal ++ [.packed job.directory.text job.target.text] := by
  obtain ⟨⟨⟩, between, wrote, ended⟩ := Action.start_bind_eq_ok.mp ran
  obtain ⟨files, rfl⟩ := exists_files_of_write wrote
  rw [Action.start_bind_ok (Action.start_report _ _), Action.start_bind_ok (Action.start_get _)]
    at ended
  obtain ⟨located, rfl⟩ := Action.start_ofFault_eq_ok.mp ended
  exact ⟨located, rfl, rfl⟩

/-- Jobs that succeed one after another have written their archives in order. -/
theorem runInOrder_written (ran : (runInOrder jobs).start w = (.ok archives, after)) :
    Written w after jobs archives := by
  induction jobs generalizing w archives with
  | nil =>
    cases ran
    exact ⟨.nil, by simp⟩
  | cons job rest ih =>
    obtain ⟨archive, between, first, ran⟩ := Action.start_bind_eq_ok.mp ran
    obtain ⟨others, last, later, ended⟩ := Action.start_bind_eq_ok.mp ran
    cases ended
    obtain ⟨located, same, told⟩ := run_written first
    obtain ⟨elsewhere, onward⟩ := ih later
    rw [same] at elsewhere
    refine ⟨.cons located elsewhere, ?_⟩
    rw [onward, told, List.map_cons, List.append_assoc, List.singleton_append]

/-! ## A call -/

variable {p : Packer}

/-- Making the temporary directory gives no notice and does not move. -/
theorem same_of_makeTemporary {temporary : Path} {between : Workspace}
    (made : p.makeTemporary.start w = (.ok temporary, between)) :
    between.journal = w.journal ∧ between.workingDirectory = w.workingDirectory := by
  rw [makeTemporary, Action.start_bind_ok (Action.start_get _)] at made
  dsimp only at made
  split at made
  · cases made
  · obtain ⟨made', u, ran, last⟩ := Action.start_bind_eq_ok.mp made
    obtain ⟨serial, place, files, -, -, -, -, rfl⟩ := makeFresh_spec ran
    split at last <;>
      · cases last
        exact ⟨rfl, rfl⟩

/-- The archives that a call has written in the order of its plan, and what it gives back. -/
structure Created (p : Packer) (w after : Workspace) (kept locations : List Location)
    (jobs : List Job) (archives : List Location) : Prop where
  planned : ∃ temporary, p.plan temporary (directoriesOf w kept) = .ok jobs
  sources : jobs.map Job.source = directoriesOf w kept
  written : Written w after jobs archives
  given : locations =
    distinct ((distinct kept).filter (fun l => !(directoriesOf w kept).contains l) ++ archives)

/-- A call that runs its jobs one after another writes the archives in the order of its plan. -/
theorem exists_created {kept locations : List Location} (single : p.isConcurrent = false)
    (ran : (p.pack kept).start w = (.ok locations, after)) :
    ∃ jobs archives, p.Created w after kept locations jobs archives := by
  by_cases decided : ∀ l ∈ distinct kept, leadsToDirectory w l = .ok (isPacked w l)
  case neg =>
    obtain ⟨refusal, between, failed⟩ := pack_fails decided
    cases failed.symm.trans ran
  rw [start_pack single decided] at ran
  split at ran
  next none =>
    cases ran
    have empty := List.isEmpty_iff.mp none
    refine ⟨[], [], ⟨⟨.here, []⟩, by rw [empty]; rfl⟩, empty.symm, ⟨.nil, by simp⟩, ?_⟩
    rw [empty]
    simp [distinct_of_nodup (nodup_distinct kept)]
  next some_directory =>
    rw [packing] at ran
    obtain ⟨temporary, between, made, planning⟩ := Action.start_bind_eq_ok.mp ran
    obtain ⟨jobs, _, plan, running⟩ := Action.start_bind_eq_ok.mp planning
    obtain ⟨planned, rfl⟩ := Action.start_ofFault_eq_ok.mp plan
    obtain ⟨archives, final, inOrder, last⟩ := Action.start_bind_eq_ok.mp running
    cases last
    obtain ⟨told, working⟩ := same_of_makeTemporary made
    have isLocal : ∀ l ∈ directoriesOf w kept, l.isLocal = true := by
      intro l member
      obtain ⟨inside, packed⟩ := mem_directoriesOf.mp member
      have leads := decided l (mem_distinct.mpr inside)
      rw [packed] at leads
      exact (leadsToDirectory_eq_true_iff.mp leads).1
    obtain ⟨jobs', planned', sources, -⟩ := exists_planAfter p temporary [] isLocal
    cases planned.symm.trans planned'
    obtain ⟨located, onward⟩ := runInOrder_written inOrder
    rw [working] at located
    rw [told] at onward
    exact ⟨jobs, archives, ⟨temporary, planned⟩, sources, ⟨located, onward⟩, rfl⟩

/-- The new ones among some archives, in the order in which they were written. -/
def newOnes (kept archives : List Location) : List Location :=
  (distinct archives).filter fun l => !kept.contains l

/-- What a call gives back beside the locations that it was given are the new archives. -/
theorem Created.perm_newOnes {kept locations : List Location}
    (created : p.Created w after kept locations jobs archives) :
    (locations.filter fun l => !kept.contains l).Perm (newOnes kept archives) := by
  have apart : (locations.filter fun l => !kept.contains l).Nodup := by
    rw [created.given]
    exact (nodup_distinct _).filter _
  refine (List.perm_ext_iff_of_nodup apart ((nodup_distinct archives).filter _)).mpr fun l => ?_
  rw [List.mem_filter, List.mem_filter, created.given, mem_distinct, mem_distinct,
    List.mem_append, List.mem_filter, mem_distinct]
  simp only [Bool.not_eq_true', List.contains_eq_mem, decide_eq_false_iff_not]
  refine and_congr_left fun fresh => or_iff_right fun stays => fresh stays.1

end Packer

/-! ## The order of URIs -/

/-- Locations in the order of their URIs. -/
def Location.InOrder (locations : List Location) : Prop :=
  locations.Pairwise fun l l' => Text.le l.uri l'.uri = true

theorem Location.inOrder_sort (locations : List Location) : InOrder (Location.sort locations) :=
  Text.pairwise_sortOn uri locations

/-- Sorting leaves alone what is in order, and nothing else. -/
theorem Location.sort_eq_self_iff {locations : List Location} :
    Location.sort locations = locations ↔ InOrder locations :=
  ⟨fun same => same ▸ inOrder_sort locations, fun inOrder => List.mergeSort_of_pairwise inOrder⟩

/-! ## Two directories -/

namespace Packer

open Packing

theorem eq_ok_of_toOption {α : Type} {x : Except Fault α} {a : α} (found : x.toOption = some a) :
    x = .ok a := by
  cases x with
  | error => cases found
  | ok => exact congrArg _ (Option.some.inj found)

/-- Directories without files are packed into archives without entries. -/
theorem run_of_no_files {w : Workspace} {job : Job} {place : Place} {l : Location}
    (sound : w.files.Sound)
    (writable : w.files.writable w.workingDirectory job.target.text = .ok place)
    (listing : (w.files.put place (.file (.archive []) w.now)).files w.workingDirectory
      job.directory = ([], none))
    (located : Location.of w.workingDirectory (.path job.target) = .ok l) :
    (run job).start w = (.ok l, { w with
      files := w.files.put place (.file (.archive []) w.now)
      journal := w.journal ++ [.packed job.directory.text job.target.text] }) := by
  have opens : w.files.write w.workingDirectory job.target (.archive []) w.now =
      .ok (w.files.put place (.file (.archive []) w.now)) := by
    rw [FileTree.write, writable]
  have fills := start_fill sound writable []
  have conclusion : (conclude job (holding w place []) ([], none)).start (holding w place []) =
      (.ok (), holding w place []) := by
    simp only [conclude, entries, Option.or]
    exact fills
  rw [run_of_opened opens, listing, ← holding, Action.start_bind_ok conclusion, step.finish,
    Action.start_bind_ok (Action.start_report _ _), Action.start_bind_ok (Action.start_get _)]
  exact Action.start_ofFault_eq_ok.mpr ⟨located, rfl⟩

/-- Two directories whose names come in another order than their places. -/
def twoDirectories : List Location :=
  [⟨"file:///p/z"⟩, ⟨"file:///q/a"⟩]

/-- The two directories. -/
def twoTree : FileTree :=
  ⟨[(["p"], .directory), (["p", "z"], .directory), (["q"], .directory), (["q", "a"], .directory)]⟩

/-- The tree after the temporary directory has been made. -/
def madeTree : FileTree :=
  twoTree.put ["00000001"] .directory

/-- The tree after the first job. -/
def halfTree : FileTree :=
  madeTree.put ["00000001", "z"] (.file (.archive []) 946684800)

/-- A workspace with the two directories. -/
def withDirectories (journal : List Notice) : Workspace where
  files := twoTree
  workingDirectory := ⟨.root, []⟩
  temporaryDirectory := ⟨.root, []⟩
  now := 946684800
  serial := 0
  registered := []
  journal

/-- The workspace after the temporary directory has been made. -/
def madeTemporary (journal : List Notice) : Workspace :=
  { withDirectories journal with
    files := madeTree
    serial := 1
    registered := [⟨.root, ["00000001"]⟩] }

/-- The workspace after the first job. -/
def halfway (journal : List Notice) : Workspace :=
  { madeTemporary journal with
    files := halfTree
    journal := journal ++ [.packed "/p/z" "/00000001/z"] }

/-- The workspace after both jobs. -/
def bothPacked (journal : List Notice) : Workspace :=
  { halfway journal with
    files := halfTree.put ["00000001", "a"] (.file (.archive []) 946684800)
    journal := (halfway journal).journal ++ [.packed "/q/a" "/00000001/a"] }

@[simp]
theorem journal_bothPacked (journal : List Notice) : (bothPacked journal).journal =
    journal ++ [.packed "/p/z" "/00000001/z", .packed "/q/a" "/00000001/a"] :=
  List.append_assoc journal _ _

/-- The job that packs the first directory. -/
def firstJob : Job :=
  ⟨⟨"file:///p/z"⟩, ⟨.root, ["p", "z"]⟩, ⟨.root, ["00000001", "z"]⟩⟩

/-- The job that packs the second directory. -/
def secondJob : Job :=
  ⟨⟨"file:///q/a"⟩, ⟨.root, ["q", "a"]⟩, ⟨.root, ["00000001", "a"]⟩⟩

theorem sound_twoTree : twoTree.Sound :=
  FileTree.sound_of_entries (by decide)

theorem sound_madeTree : madeTree.Sound :=
  FileTree.sound_of_entries (by decide)

theorem sound_halfTree : halfTree.Sound :=
  FileTree.sound_of_entries (by decide)

theorem leadsToDirectory_twoDirectories (journal : List Notice) :
    ∀ l ∈ twoDirectories, leadsToDirectory (withDirectories journal) l = .ok true := by
  have first : twoTree.status ⟨.root, []⟩ (Path.text ⟨.root, ["p", "z"]⟩) =
      .ok (["p", "z"], .directory) :=
    FileTree.status_followable sound_twoTree (by decide) (by decide) rfl nofun
  have second : twoTree.status ⟨.root, []⟩ (Path.text ⟨.root, ["q", "a"]⟩) =
      .ok (["q", "a"], .directory) :=
    FileTree.status_followable sound_twoTree (by decide) (by decide) rfl nofun
  intro l member
  rw [leadsToDirectory_eq_true_iff]
  rcases List.mem_cons.mp member with rfl | last
  · exact ⟨rfl, _, first⟩
  · obtain rfl := List.mem_singleton.mp last
    exact ⟨rfl, _, second⟩

theorem directoriesOf_twoDirectories (journal : List Notice) :
    (∀ l ∈ distinct twoDirectories, leadsToDirectory (withDirectories journal) l =
      .ok (isPacked (withDirectories journal) l)) ∧
      directoriesOf (withDirectories journal) twoDirectories = twoDirectories := by
  have leads := leadsToDirectory_twoDirectories journal
  have packed : ∀ l ∈ twoDirectories, isPacked (withDirectories journal) l = true := by
    intro l member
    rw [isPacked, leads l member]
    rfl
  have apart : distinct twoDirectories = twoDirectories := distinct_of_nodup (by decide)
  rw [apart, directoriesOf, apart, List.filter_eq_self.mpr packed, Location.sort_eq_self_iff]
  refine ⟨fun l member => by rw [leads l member, packed l member], ?_⟩
  unfold Location.InOrder
  decide

theorem run_firstJob (journal : List Notice) :
    (run firstJob).start (madeTemporary journal) =
      (.ok ⟨"file:///00000001/z"⟩, halfway journal) := by
  have writable : (madeTemporary journal).files.writable ⟨.root, []⟩ firstJob.target.text =
      .ok ["00000001", "z"] :=
    FileTree.writable_followable sound_madeTree (by decide) (by decide) rfl none rfl
      nofun nofun
  have listing : (halfway journal).files.files ⟨.root, []⟩ firstJob.directory = ([], none) := by cbv
  have located : Location.of ⟨.root, []⟩ (.path firstJob.target) = .ok ⟨"file:///00000001/z"⟩ :=
    eq_ok_of_toOption (by decide)
  exact run_of_no_files sound_madeTree writable listing located

theorem run_secondJob (journal : List Notice) :
    (run secondJob).start (halfway journal) =
      (.ok ⟨"file:///00000001/a"⟩, bothPacked journal) := by
  have writable : (halfway journal).files.writable ⟨.root, []⟩ secondJob.target.text =
      .ok ["00000001", "a"] :=
    FileTree.writable_followable sound_halfTree (by decide) (by decide) rfl none rfl
      nofun nofun
  have listing : (bothPacked journal).files.files ⟨.root, []⟩ secondJob.directory = ([], none) := by
    cbv
  have located : Location.of ⟨.root, []⟩ (.path secondJob.target) = .ok ⟨"file:///00000001/a"⟩ :=
    eq_ok_of_toOption (by decide)
  exact run_of_no_files sound_halfTree writable listing located

theorem plan_twoDirectories :
    plainNames.plan ⟨.root, ["00000001"]⟩ twoDirectories = .ok [firstJob, secondJob] :=
  eq_ok_of_toOption (by decide)

/-- The call writes the archive of the first directory first. -/
theorem start_pack_twoDirectories (journal : List Notice) :
    (plainNames.pack twoDirectories).start (withDirectories journal) =
      (.ok [⟨"file:///00000001/z"⟩, ⟨"file:///00000001/a"⟩], bothPacked journal) := by
  obtain ⟨decided, directories⟩ := directoriesOf_twoDirectories journal
  have made : plainNames.makeTemporary.start (withDirectories journal) =
      (.ok ⟨.root, ["00000001"]⟩, madeTemporary journal) := by cbv
  have planning : (Action.ofFault (.ok [firstJob, secondJob])).start (madeTemporary journal) =
      (.ok [firstJob, secondJob], madeTemporary journal) := rfl
  have ran : (runInOrder [firstJob, secondJob]).start (madeTemporary journal) =
      (.ok [⟨"file:///00000001/z"⟩, ⟨"file:///00000001/a"⟩], bothPacked journal) := by
    rw [runInOrder, Action.start_bind_ok (run_firstJob journal), runInOrder, Action.start_bind,
      Action.start_bind_ok (run_secondJob journal)]
    rfl
  have given : distinct ((distinct twoDirectories).filter
      (fun l => !twoDirectories.contains l) ++ [⟨"file:///00000001/z"⟩, ⟨"file:///00000001/a"⟩]) =
      [⟨"file:///00000001/z"⟩, ⟨"file:///00000001/a"⟩] := by
    decide
  rw [start_pack rfl decided, directories, if_neg (by decide), packing, Action.start_bind_ok made,
    plan_twoDirectories, Action.start_bind_ok planning, Action.start_bind_ok ran, given]
  rfl

end Packer

namespace Resolver

open Packer

/-- The classes in the two directories. -/
def inTwoDirectories : Source :=
  Maps.toSource ⟨[], [(.text "A", ⟨"file:///p/z"⟩), (.text "B", ⟨"file:///q/a"⟩)]⟩

/-- The archives of the two directories in the order of the notices and as the run tells of them. -/
theorem exists_run_twoDirectories :
    ∃ o after, (run { packer := plainNames } inTwoDirectories ⟨[], [], true⟩).start
        (withDirectories []) = (.ok o, after) ∧
      (∃ notices last, after.journal = notices ++
        [.packed "/p/z" "/00000001/z", .packed "/q/a" "/00000001/a"] ++ [last]) ∧
      o.archivesCreated = [⟨"file:///00000001/a"⟩, ⟨"file:///00000001/z"⟩] := by
  have resolved : (Graph.ofSource ⟨.root, []⟩ inTwoDirectories none).toOption.map (fun g =>
      (Resolution.of g [] []).selection.kept) = some twoDirectories := by
    decide +kernel
  cases built : Graph.ofSource ⟨.root, []⟩ inTwoDirectories none with
  | error failure =>
    rw [built] at resolved
    cases resolved
  | ok g =>
    rw [built] at resolved
    have kept : (Resolution.of g [] []).selection.kept = twoDirectories :=
      Option.some.inj resolved
    obtain ⟨notices, whole⟩ := exists_start_run { packer := plainNames }
      (w := withDirectories []) built ⟨[], [], true⟩
    have packed : (({ packer := plainNames } : Resolver).packer.pack twoDirectories).start
        { withDirectories [] with journal := (withDirectories []).journal ++ notices } =
          (.ok [⟨"file:///00000001/z"⟩, ⟨"file:///00000001/a"⟩], bothPacked notices) :=
      start_pack_twoDirectories notices
    have sorted : Location.sort (List.filter (fun l => !twoDirectories.contains l)
        [⟨"file:///00000001/z"⟩, ⟨"file:///00000001/a"⟩]) =
          [⟨"file:///00000001/a"⟩, ⟨"file:///00000001/z"⟩] := by
      refine (Location.sort_eq_of_perm (.trans ?_ (.swap _ _ _))).trans
        (Location.sort_eq_self_iff.mpr ?_)
      · exact .of_eq (by decide)
      · unfold Location.InOrder
        decide
    rw [whole, conclude, List.map_nil, kept, if_pos rfl, Action.start_bind_ok packed]
    refine ⟨_, _, rfl, ⟨notices, .resolved 2 0 (Resolution.of g [] []).closure.visited.length, ?_⟩,
      sorted⟩
    simp

/-! ## A run -/

/-- **A run tells of its archives in the order of their URIs.** Over a packer with a single worker a
run writes the archives in the order of the plan, which is the order of the directories' URIs, as
its notices tell. It tells of each new archive once, sorted by the URIs of the archives, and so in
the order of writing exactly when these URIs come in that order. -/
theorem archivesCreated_inOrder {r : Resolver} {s : Source} {w after : Workspace}
    {request : Request} {o : Outcome} (single : r.packer.isConcurrent = false)
    (packs : request.packDirectories = true)
    (ran : (r.run s request).start w = (.ok o, after)) :
    ∃ g kept temporary jobs archives,
      Graph.ofSource w.workingDirectory s r.sourceName = .ok g ∧
      kept = (Resolution.of g (request.roots.map .text) request.exclusions).selection.kept ∧
      r.packer.plan temporary (directoriesOf w kept) = .ok jobs ∧
      jobs.map Job.source = directoriesOf w kept ∧ Location.InOrder (directoriesOf w kept) ∧
      List.Forall₂
        (fun job archive => Location.of w.workingDirectory (.path job.target) = .ok archive)
        jobs archives ∧
      (∃ notices last, after.journal = w.journal ++ notices ++
        jobs.map (fun job => .packed job.directory.text job.target.text) ++ [last]) ∧
      o.archivesCreated.Perm (newOnes kept archives) ∧ o.archivesCreated.Nodup ∧
      Location.InOrder o.archivesCreated ∧
      (o.archivesCreated = newOnes kept archives ↔
        Location.InOrder (newOnes kept archives)) := by
  cases built : Graph.ofSource w.workingDirectory s r.sourceName with
  | error failure =>
    rw [start_run_of_error r built] at ran
    cases ran
  | ok g =>
    obtain ⟨notices, whole⟩ := exists_start_run r built request
    rw [whole, conclude, if_pos packs] at ran
    obtain ⟨locations, between, packed, ended⟩ := Action.start_bind_eq_ok.mp ran
    rw [Action.start_bind_ok (Action.start_report _ _), if_pos packs] at ended
    obtain ⟨jobs, archives, created⟩ := Packer.exists_created single packed
    obtain ⟨temporary, planned⟩ := created.planned
    have sorted := Location.sort_eq_of_perm created.perm_newOnes
    cases ended
    refine ⟨g, _, temporary, jobs, archives, rfl, rfl, planned, created.sources,
      Location.inOrder_sort _, created.written.located,
      ⟨notices, _, congrArg (· ++ _) created.written.told⟩, ?_⟩
    dsimp only
    rw [sorted]
    refine ⟨Text.perm_sortOn _ _, ?_, Location.inOrder_sort _, Location.sort_eq_self_iff⟩
    exact (Text.perm_sortOn _ _).nodup_iff.mpr ((nodup_distinct archives).filter _)

theorem archivesCreated_inOrder_twoDirectories :
    plainNames.isConcurrent = false ∧
      ∃ o after, (run { packer := plainNames } inTwoDirectories ⟨[], [], true⟩).start
          (withDirectories []) = (.ok o, after) ∧
        ∃ kept temporary jobs archives,
          plainNames.plan temporary (directoriesOf (withDirectories []) kept) = .ok jobs ∧
          jobs.map Job.source = directoriesOf (withDirectories []) kept ∧
          (∃ notices last, after.journal = notices ++
            jobs.map (fun job => .packed job.directory.text job.target.text) ++ [last]) ∧
          o.archivesCreated.Perm (newOnes kept archives) ∧ o.archivesCreated.Nodup ∧
          Location.InOrder o.archivesCreated := by
  obtain ⟨o, after, ran, -⟩ := exists_run_twoDirectories
  obtain ⟨_, kept, temporary, jobs, archives, -, -, planned, sources, -, -, told, perm, apart,
    inOrder, -⟩ := archivesCreated_inOrder rfl rfl ran
  exact ⟨rfl, o, after, ran, kept, temporary, jobs, archives, planned, sources, told, perm, apart,
    inOrder⟩

/-- The archive of `/p/z` is written before that of `/q/a`, and the run tells of it after that. -/
theorem archivesCreated_not_as_written :
    plainNames.isConcurrent = false ∧
      plainNames.plan ⟨.root, ["00000001"]⟩ twoDirectories = .ok [firstJob, secondJob] ∧
      ([firstJob, secondJob].map Job.target).Nodup ∧
      ∃ o after, (run { packer := plainNames } inTwoDirectories ⟨[], [], true⟩).start
          (withDirectories []) = (.ok o, after) ∧
        (∃ notices last, after.journal = notices ++
          [.packed "/p/z" "/00000001/z", .packed "/q/a" "/00000001/a"] ++ [last]) ∧
        o.archivesCreated = [⟨"file:///00000001/a"⟩, ⟨"file:///00000001/z"⟩] :=
  ⟨rfl, plan_twoDirectories, by decide, exists_run_twoDirectories⟩

end Resolver

end Classpath
