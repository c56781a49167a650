import Classpath.Packing.Pool
import Classpath.Proofs.Graph.View
import Classpath.Proofs.Packing.Run

/-! # What packing makes of some locations

Packing gives back each location that is no directory and, for each directory, an archive of its own
(`Classpath.Packer.pack_spec`). This is said of locations that keep clear of the temporary
directory: none of them contains it, and none leads to a name in it that a fresh directory may get.
-/

namespace Classpath

namespace Workspace

/-- A workspace in a file system: whatever stands somewhere stands in a directory, the working
directory is a directory, and the path of the temporary directory is absolute, goes up nowhere and
is made of characters. -/
structure Proper (w : Workspace) : Prop where
  sound : w.files.Sound
  working : w.files.node? w.workingDirectory.names = some .directory
  canonical : w.temporaryDirectory.Canonical
  whole : w.temporaryDirectory.Whole

theorem Proper.outside {w : Workspace} (proper : w.Proper) {fresh : Place}
    (absent : w.files.node? fresh = none) : ¬ fresh <+: w.workingDirectory.names := fun below => by
  cases (proper.sound.absent_below absent below).symm.trans proper.working

/-- Where the temporary directory is. -/
def TemporaryAt (w : Workspace) (top : Place) : Prop :=
  w.files.status w.workingDirectory w.temporaryDirectory.text = .ok (top, .directory)

/-- A location that keeps clear of the temporary directory: it is not a directory that contains it,
and it leads to no name inside it that is free and may become the name of a fresh directory. Its
path holds no stand-in for half of a surrogate pair, since no URI encodes such a half. -/
structure Clear (w : Workspace) (l : Location) : Prop where
  whole : l.filePath.Whole
  above : ∀ place top, w.files.status w.workingDirectory l.filePath.text = .ok (place, .directory) →
    w.TemporaryAt top → ¬ place <+: top
  inside : ∀ top serial, w.TemporaryAt top →
    w.files.missingAt? w.workingDirectory l.filePath.text ≠ some (top ++ [Packer.freshName serial])

end Workspace

namespace Packer

open Packing

/-- Whether a location leads to a directory, where this can be told. -/
def isPacked (w : Workspace) (l : Location) : Bool :=
  (leadsToDirectory w l).toOption.getD false

/-- The archive of a directory: a file of the fresh directory with an entry for each file of the
directory. The files are those that the directory has when it is packed; unless a link below it
leads to the fresh directory they are those that it had before. -/
def Archived (w after : Workspace) (fresh : Place) (l archive : Location) (name : String) : Prop :=
  ∃ moment listed modified, Made w.files fresh moment ∧
    moment.files w.workingDirectory l.filePath = (listed, none) ∧
    after.files.status after.workingDirectory archive.filePath.text =
      .ok (fresh ++ [name], .file (.archive (listed.map entryOf)) modified) ∧
    ∀ place, w.files.status w.workingDirectory l.filePath.text = .ok (place, .directory) →
      ¬ w.files.Leads place fresh → w.files.files w.workingDirectory l.filePath = (listed, none)

/-- The fresh directory with one archive for each of the directories and nothing else. -/
structure Filled (w after : Workspace) (kept : List Location) (archiveOf : Location → Location)
    (top fresh : Place) (nameOf : Location → String) : Prop where
  temporary : w.TemporaryAt top
  inside : ∃ serial, fresh = top ++ [freshName serial]
  absent : w.files.node? fresh = none
  made : Made w.files fresh after.files
  archived : ∀ l ∈ kept, isPacked w l = true → Archived w after fresh l (archiveOf l) (nameOf l)
  names : ∀ l ∈ kept, ∀ m ∈ kept, isPacked w l = true → isPacked w m = true →
    nameOf l = nameOf m → l = m
  only : ∀ place, fresh <+: place → place ≠ fresh → after.files.node? place ≠ none →
    ∃ l ∈ kept, isPacked w l = true ∧ place = fresh ++ [nameOf l]

/-- What packing makes of some locations. Each is known to be a directory or not; those that are
none stay, and no directory is left. -/
structure Replaced (w after : Workspace) (kept : List Location) (archiveOf : Location → Location) :
    Prop where
  decided : ∀ l ∈ kept, leadsToDirectory w l = .ok (isPacked w l)
  apart : (kept.map archiveOf).Nodup
  stays : ∀ l ∈ kept, isPacked w l = false → archiveOf l = l
  plain : ∀ l ∈ kept, leadsToDirectory after (archiveOf l) = .ok false
  untouched : (∀ l ∈ kept, isPacked w l = false) → after.files = w.files
  packed : (∃ l ∈ kept, isPacked w l = true) →
    ∃ top fresh nameOf, Filled w after kept archiveOf top fresh nameOf

/-! ## Which locations are directories -/

theorem marked_eq {w : Workspace} {locations : List Location} {marked : List (Location × Bool)}
    (ran : (locations.mapM fun l => (leadsToDirectory w l).map ((l, ·))) = .ok marked) :
    (∀ l ∈ locations, leadsToDirectory w l = .ok (isPacked w l)) ∧
      marked = locations.map fun l => (l, isPacked w l) := by
  have each : ∀ l ∈ locations, leadsToDirectory w l = .ok (isPacked w l) := by
    intro l member
    obtain ⟨entry, found⟩ := exists_ok_of_mapM ran l member
    cases here : leadsToDirectory w l with
    | error fault =>
      rw [here] at found
      cases found
    | ok packed =>
      rw [isPacked, here]
      rfl
  have all : (locations.mapM fun l => (leadsToDirectory w l).map ((l, ·))) =
      .ok (locations.map fun l => (l, isPacked w l)) :=
    mapM_eq_ok fun l member => by rw [each l member]; rfl
  exact ⟨each, Except.ok.inj (ran.symm.trans all)⟩

/-- What a location leads to does not change when it does not come to the place where the trees
differ. -/
theorem leadsToDirectory_agree {w after : Workspace} {fresh : Place}
    (agree : w.files.Agree fresh after.files) (absent : w.files.node? fresh = none)
    (outside : ¬ fresh <+: w.workingDirectory.names)
    (same : after.workingDirectory = w.workingDirectory) {l : Location}
    (passes : w.files.missingAt? w.workingDirectory l.filePath.text ≠ some fresh) :
    leadsToDirectory after l = leadsToDirectory w l := by
  rw [leadsToDirectory, leadsToDirectory, FileTree.isDirectory, FileTree.isDirectory, FileTree.ask,
    FileTree.ask, same, FileTree.status_agree agree absent outside passes]

/-! ## The files of the archives -/

section Target

variable {w : Workspace} {temporary : Path} {top fresh : Place} {job : Job} {count : Nat}

theorem Planned.canonical (planned : Planned temporary [] job count)
    (found : Fresh w temporary top fresh) : job.target.Canonical := by
  obtain ⟨named, notUp⟩ := isName_archiveName planned.normal count
  exact planned.target ▸ found.canonical.child named notUp

theorem Planned.whole (planned : Planned temporary [] job count) (whole : temporary.Whole)
    (directory : job.directory.Whole) : job.target.Whole := by
  rw [planned.target]
  intro name member c inside
  rcases List.mem_append.mp member with above | last
  · exact whole name above c inside
  · rw [List.mem_singleton.mp last] at inside
    exact whole_fileName (whole_nameFor directory) inside

/-- Before the directory was made, the path of an archive led to where it is now. -/
theorem Planned.missingAt?_target (planned : Planned temporary [] job count)
    (found : Fresh w temporary top fresh) (sound : w.files.Sound) :
    w.files.missingAt? w.workingDirectory job.target.text = some fresh := by
  rw [FileTree.missingAt?_text _ (planned.canonical found), planned.target]
  exact FileTree.missing?_of_follow sound (by simp) found.followed found.absent _

/-- An archive is found under its path. -/
theorem Planned.status_target (planned : Planned temporary [] job count)
    (found : Fresh w temporary top fresh) {t : FileTree} (made : Made w.files fresh t)
    (short : Short job.target) {stored : List Entry} {modified : Int}
    (stands : t.node? (fresh ++ [job.target.name]) = some (.file (.archive stored) modified))
    (workingDirectory : Path) :
    t.status workingDirectory job.target.text =
      .ok (fresh ++ [job.target.name], .file (.archive stored) modified) := by
  have inside := planned.isTarget found
  rw [planned.target] at stands short inside ⊢
  rw [name_child] at stands ⊢
  have aims : slot fresh temporary (temporary.child _) = .ok _ :=
    slot_child_eq_ok_iff.mpr ⟨short, rfl⟩
  rw [FileTree.status_eq_ok_iff, made.locate_eq inside vacant_child .target
    (by rw [found.origin_eq, found.origin_eq]), aims]
  exact ⟨rfl, stands⟩

end Target

theorem filePath_archive {p : Path} (canonical : p.Canonical) (whole : p.Whole) :
    (Location.mk (Location.fileUri p)).filePath = p := by
  rw [Location.filePath_fileUri canonical, Path.decoded_of_whole whole]

/-- A directory that is packed keeps its files unless a link in it leads to the fresh directory. -/
theorem files_of_clear {w : Workspace} {l : Location} {top fresh : Place} {moment : FileTree}
    (proper : w.Proper) (clear : w.Clear l) (temporary : w.TemporaryAt top)
    (inside : ∃ serial, fresh = top ++ [freshName serial]) (absent : w.files.node? fresh = none)
    (made : Made w.files fresh moment) {place : Place}
    (stands : w.files.status w.workingDirectory l.filePath.text = .ok (place, .directory))
    (unlinked : ¬ w.files.Leads place fresh) :
    moment.files w.workingDirectory l.filePath = w.files.files w.workingDirectory l.filePath := by
  have here := FileTree.stands_of_status stands
  have apart : ¬ place <+: fresh := by
    obtain ⟨serial, rfl⟩ := inside
    intro above
    rcases List.prefix_concat_iff.mp above with rfl | above
    · cases absent.symm.trans here
    · exact clear.above place top stands temporary above
  have aside := proper.sound.aside absent (by simp [here]) apart
  refine FileTree.files_agree made.agree absent (proper.outside absent) stands ?_ aside unlinked
  rw [FileTree.missingAt?_eq_none stands]
  simp

/-! ## Packing -/

/-- The location of the archive that a job makes. -/
def archive (job : Job) : Location :=
  ⟨Location.fileUri job.target⟩

/-- The job that packs a location, if there is one. -/
def jobOf (jobs : List Job) (l : Location) : Option Job :=
  (jobs.map fun job => (job.source, job)).lookup l

/-- The archive of a location that is packed, or the location itself. -/
def archiveOf (jobs : List Job) (l : Location) : Location :=
  ((jobOf jobs l).map archive).getD l

/-- The file of the archive of a location. -/
def nameOf (jobs : List Job) (l : Location) : String :=
  ((jobOf jobs l).map fun job => job.target.name).getD ""

section Jobs

variable {w : Workspace} {kept : List Location} {jobs : List Job}

theorem jobOf_eq_some_iff (apart : (jobs.map Job.source).Nodup) {l : Location} {job : Job} :
    jobOf jobs l = some job ↔ job ∈ jobs ∧ job.source = l := by
  have keys : ((jobs.map fun job => (job.source, job)).map Prod.fst).Nodup := by
    simpa [Function.comp_def] using apart
  rw [jobOf, lookup_eq_some_iff_mem keys, List.mem_map]
  constructor
  · rintro ⟨job', member, same⟩
    cases same
    exact ⟨member, rfl⟩
  · rintro ⟨member, rfl⟩
    exact ⟨job, member, rfl⟩

theorem archiveOf_source (apart : (jobs.map Job.source).Nodup) {job : Job} (member : job ∈ jobs) :
    archiveOf jobs job.source = archive job := by
  rw [archiveOf, (jobOf_eq_some_iff apart).mpr ⟨member, rfl⟩]
  rfl

theorem nameOf_source (apart : (jobs.map Job.source).Nodup) {job : Job} (member : job ∈ jobs) :
    nameOf jobs job.source = job.target.name := by
  rw [nameOf, (jobOf_eq_some_iff apart).mpr ⟨member, rfl⟩]
  rfl

theorem archiveOf_of_not_mem (apart : (jobs.map Job.source).Nodup) {l : Location}
    (other : l ∉ jobs.map Job.source) : archiveOf jobs l = l := by
  cases found : jobOf jobs l with
  | none => rw [archiveOf, found]; rfl
  | some job =>
    obtain ⟨member, rfl⟩ := (jobOf_eq_some_iff apart).mp found
    exact absurd (List.mem_map_of_mem member) other

/-- The locations that stay and the archives are the images of all locations. -/
theorem perm_archiveOf (apart : kept.Nodup)
    (sources : (jobs.map Job.source).Perm (kept.filter (isPacked w))) :
    (kept.filter (fun l => !isPacked w l) ++ jobs.map archive).Perm
      (kept.map (archiveOf jobs)) := by
  have distinct := sources.nodup_iff.mpr (apart.filter _)
  have stay : (kept.filter fun l => !isPacked w l).map (archiveOf jobs) =
      kept.filter fun l => !isPacked w l := by
    refine (List.map_congr_left fun l member => ?_).trans (List.map_id _)
    apply archiveOf_of_not_mem distinct
    intro packed
    have first := (List.mem_filter.mp member).2
    have second := (List.mem_filter.mp (sources.mem_iff.mp packed)).2
    simp [second] at first
  have packed : (jobs.map Job.source).map (archiveOf jobs) = jobs.map archive := by
    rw [List.map_map]
    exact List.map_congr_left fun job member => archiveOf_source distinct member
  have parts := (List.filter_append_perm (isPacked w) kept).map (archiveOf jobs)
  rw [List.map_append, stay] at parts
  refine List.Perm.trans ?_ parts
  rw [← packed]
  exact (List.perm_append_comm).trans ((sources.map _).append_right _)

/-- The state of a workspace in which all jobs of a plan have been run. -/
structure Done (w after : Workspace) (kept : List Location) (temporary : Path) (top fresh : Place)
    (jobs : List Job) : Prop where
  found : Fresh w temporary top fresh
  sources : (jobs.map Job.source).Perm (kept.filter (isPacked w))
  planned : ∀ job ∈ jobs, ∃ count, Planned temporary [] job count
  apart : (jobs.map Job.target).Nodup
  made : Made w.files fresh after.files
  each : ∀ job ∈ jobs, Short job.target ∧
    ∃ node, Holds w.files fresh w.workingDirectory job.directory node ∧
      after.files.node? (fresh ++ [job.target.name]) = some node
  only : ∀ place, fresh <+: place → place ≠ fresh → after.files.node? place ≠ none →
    ∃ job ∈ jobs, place = fresh ++ [job.target.name]
  directory : after.workingDirectory = w.workingDirectory

section Done

variable {after : Workspace} {temporary : Path} {top fresh : Place}

theorem Done.distinct (done : Done w after kept temporary top fresh jobs) (apart : kept.Nodup) :
    (jobs.map Job.source).Nodup :=
  done.sources.nodup_iff.mpr (apart.filter _)

theorem Done.mem_source (done : Done w after kept temporary top fresh jobs) {job : Job}
    (member : job ∈ jobs) : job.source ∈ kept ∧ isPacked w job.source = true :=
  List.mem_filter.mp (done.sources.mem_iff.mp (List.mem_map_of_mem member))

theorem Done.exists_job (done : Done w after kept temporary top fresh jobs) {l : Location}
    (member : l ∈ kept) (packed : isPacked w l = true) : ∃ job ∈ jobs, job.source = l :=
  List.mem_map.mp (done.sources.mem_iff.mpr (List.mem_filter.mpr ⟨member, packed⟩))

/-- The path of an archive's location is the path of its file. -/
theorem Done.filePath_archive (done : Done w after kept temporary top fresh jobs)
    (proper : w.Proper) (clear : ∀ l ∈ kept, w.Clear l) {job : Job} (member : job ∈ jobs) :
    (archive job).filePath = job.target := by
  obtain ⟨count, planned⟩ := done.planned job member
  have whole := (clear job.source (done.mem_source member).1).whole
  rw [← planned.directory] at whole
  exact Packer.filePath_archive (planned.canonical done.found)
    (planned.whole (done.found.whole proper.whole) whole)

theorem Done.status_archive (done : Done w after kept temporary top fresh jobs)
    (proper : w.Proper) (clear : ∀ l ∈ kept, w.Clear l) {job : Job} (member : job ∈ jobs) :
    ∃ moment listed modified, Made w.files fresh moment ∧
      moment.files w.workingDirectory job.directory = (listed, none) ∧
      after.files.status after.workingDirectory (archive job).filePath.text =
        .ok (fresh ++ [job.target.name], .file (.archive (listed.map entryOf)) modified) := by
  obtain ⟨count, planned⟩ := done.planned job member
  obtain ⟨short, _, ⟨moment, listed, modified, held, files, rfl⟩, stands⟩ := done.each job member
  refine ⟨moment, listed, modified, held, files, ?_⟩
  rw [done.filePath_archive proper clear member]
  exact planned.status_target done.found done.made short stands _

/-- No archive is one of the locations that stay, and no two archives are the same. -/
theorem Done.nodup (done : Done w after kept temporary top fresh jobs) (proper : w.Proper)
    (clear : ∀ l ∈ kept, w.Clear l) (apart : kept.Nodup) :
    (kept.filter (fun l => !isPacked w l) ++ jobs.map archive).Nodup := by
  refine List.nodup_append.mpr ⟨apart.filter _, ?_, ?_⟩
  · apply List.Nodup.of_map Location.filePath
    rw [List.map_map]
    have paths : jobs.map (Location.filePath ∘ archive) = jobs.map Job.target :=
      List.map_congr_left fun job member => by
        rw [Function.comp_apply, done.filePath_archive proper clear member]
    rw [paths]
    exact done.apart
  · rintro l stays _ made rfl
    obtain ⟨job, member, rfl⟩ := List.mem_map.mp made
    obtain ⟨count, planned⟩ := done.planned job member
    obtain ⟨serial, below⟩ := done.found.above
    apply (clear _ (List.mem_filter.mp stays).1).inside top serial done.found.located
    rw [done.filePath_archive proper clear member, ← below]
    exact planned.missingAt?_target done.found proper.sound

theorem Done.archived (done : Done w after kept temporary top fresh jobs) (proper : w.Proper)
    (clear : ∀ l ∈ kept, w.Clear l) {job : Job} (member : job ∈ jobs) :
    Archived w after fresh job.source (archive job) job.target.name := by
  obtain ⟨count, planned⟩ := done.planned job member
  obtain ⟨moment, listed, modified, held, files, status⟩ :=
    done.status_archive proper clear member
  rw [planned.directory] at files
  refine ⟨moment, listed, modified, held, files, status, fun place stands unlinked => ?_⟩
  rw [← files]
  exact (files_of_clear proper (clear _ (done.mem_source member).1) done.found.located
    done.found.above done.found.absent held stands unlinked).symm

theorem Done.archiveOf_eq (done : Done w after kept temporary top fresh jobs) (apart : kept.Nodup)
    {l : Location} (other : isPacked w l = false) : archiveOf jobs l = l := by
  apply archiveOf_of_not_mem (done.distinct apart)
  intro inside
  obtain ⟨job, among, rfl⟩ := List.mem_map.mp inside
  cases (done.mem_source among).2.symm.trans other

/-- What is no directory before is none afterwards, and neither is an archive. -/
theorem Done.plain (done : Done w after kept temporary top fresh jobs) (proper : w.Proper)
    (clear : ∀ l ∈ kept, w.Clear l) (apart : kept.Nodup)
    (decided : ∀ l ∈ kept, leadsToDirectory w l = .ok (isPacked w l)) {l : Location}
    (member : l ∈ kept) : leadsToDirectory after (archiveOf jobs l) = .ok false := by
  cases packed : isPacked w l with
  | false =>
    obtain ⟨serial, below⟩ := done.found.above
    have passes := (clear l member).inside top serial done.found.located
    rw [done.archiveOf_eq apart packed, leadsToDirectory_agree done.made.agree
      done.found.absent (proper.outside done.found.absent) done.directory (below ▸ passes),
      decided l member, packed]
  | true =>
    obtain ⟨job, among, rfl⟩ := done.exists_job member packed
    obtain ⟨count, planned⟩ := done.planned job among
    obtain ⟨_, _, modified, -, -, status⟩ := done.status_archive proper clear among
    have isLocal : (archive job).isLocal = true :=
      Location.isLocal_fileUri (planned.canonical done.found).rooted
    rw [archiveOf_source (done.distinct apart) among, leadsToDirectory, if_pos isLocal,
      FileTree.isDirectory, FileTree.ask, status]
    rfl

theorem Done.filled (done : Done w after kept temporary top fresh jobs) (proper : w.Proper)
    (clear : ∀ l ∈ kept, w.Clear l) (apart : kept.Nodup) :
    Filled w after kept (archiveOf jobs) top fresh (nameOf jobs) where
  temporary := done.found.located
  inside := done.found.above
  absent := done.found.absent
  made := done.made
  archived l member packed := by
    obtain ⟨job, among, rfl⟩ := done.exists_job member packed
    rw [archiveOf_source (done.distinct apart) among, nameOf_source (done.distinct apart) among]
    exact done.archived proper clear among
  names l member m member' packed packed' same := by
    obtain ⟨job, among, rfl⟩ := done.exists_job member packed
    obtain ⟨job', among', rfl⟩ := done.exists_job member' packed'
    rw [nameOf_source (done.distinct apart) among, nameOf_source (done.distinct apart) among']
      at same
    obtain ⟨count, planned⟩ := done.planned job among
    obtain ⟨count', planned'⟩ := done.planned job' among'
    have targets : job.target = job'.target := by
      rw [planned.target, planned'.target, name_child, name_child] at same
      rw [planned.target, planned'.target, same]
    rw [List.inj_on_of_nodup_map done.apart among among' targets]
  only place below other stands := by
    obtain ⟨job, among, rfl⟩ := done.only place below other stands
    obtain ⟨member, packed⟩ := done.mem_source among
    exact ⟨job.source, member, packed, by rw [nameOf_source (done.distinct apart) among]⟩

/-- When all jobs have been run, the directories are replaced by their archives. -/
theorem Done.replaced (done : Done w after kept temporary top fresh jobs) (proper : w.Proper)
    (clear : ∀ l ∈ kept, w.Clear l) (apart : kept.Nodup)
    (decided : ∀ l ∈ kept, leadsToDirectory w l = .ok (isPacked w l))
    (some_directory : ∃ l ∈ kept, isPacked w l = true) :
    Replaced w after kept (archiveOf jobs) where
  decided := decided
  apart := (perm_archiveOf apart done.sources).nodup_iff.mp (done.nodup proper clear apart)
  stays l _ other := done.archiveOf_eq apart other
  plain l member := done.plain proper clear apart decided member
  untouched none := by
    obtain ⟨l, member, packed⟩ := some_directory
    cases (none l member).symm.trans packed
  packed _ := ⟨top, fresh, nameOf jobs, done.filled proper clear apart⟩

end Done

end Jobs

section Runs

variable {w : Workspace} {temporary : Path} {top fresh : Place}

theorem node?_put_below (sound : w.files.Sound) (absent : w.files.node? fresh = none)
    {place : Place} (below : fresh <+: place) (other : place ≠ fresh) :
    (w.files.put fresh .directory).node? place = none := by
  rw [FileTree.node?_put_of_ne _ _ other]
  exact sound.absent_below absent below

/-- A tree in which the fresh directory has just been made. -/
theorem made_put (sound : w.files.Sound) (absent : w.files.node? fresh = none) :
    Made w.files fresh (w.files.put fresh .directory) where
  agree place outside := by
    rw [FileTree.node?_put_of_ne]
    rintro rfl
    exact outside List.prefix_rfl
  directory := by
    apply FileTree.node?_put_self
    rintro rfl
    cases absent
  archives place node below other stands := by
    rw [node?_put_below sound absent below other] at stands
    cases stands

end Runs

/-- The directories among some locations in the order in which they are packed. -/
def directoriesOf (w : Workspace) (locations : List Location) : List Location :=
  Location.sort ((distinct locations).filter (isPacked w))

theorem mem_directoriesOf {w : Workspace} {locations : List Location} {l : Location} :
    l ∈ directoriesOf w locations ↔ l ∈ locations ∧ isPacked w l = true := by
  rw [directoriesOf, Location.sort, (Text.perm_sortOn _ _).mem_iff, List.mem_filter, mem_distinct]

section Call

variable {p : Packer} {w : Workspace} {locations : List Location}

/-- A call that can tell its directories runs its jobs and adds their archives to the locations that
stay, unless there are no directories. -/
theorem packWith_eq (decided : ∀ l ∈ distinct locations, leadsToDirectory w l = .ok (isPacked w l))
    (runner : List Job → Action (List Location)) :
    (p.packWith runner locations).start w =
      if (directoriesOf w locations).isEmpty then (.ok (distinct locations), w)
      else Action.start (do
        let temporary ← p.makeTemporary
        let jobs ← Action.ofFault (p.plan temporary (directoriesOf w locations))
        let archives ← runner jobs
        return distinct ((distinct locations).filter
          (fun l => !(directoriesOf w locations).contains l) ++ archives)) w := by
  have marks : (distinct locations).mapM (fun l => (leadsToDirectory w l).map ((l, ·))) =
      .ok ((distinct locations).map fun l => (l, isPacked w l)) :=
    mapM_eq_ok fun l member => by rw [decided l member]; rfl
  have packed : (((distinct locations).map fun l => (l, isPacked w l)).filter (·.2)).map (·.1) =
      (distinct locations).filter (isPacked w) := by
    simp [List.filter_map, Function.comp_def]
  rw [packWith, Action.start_bind_ok (Action.start_get w)]
  dsimp only
  rw [marks, Action.start_bind_ok (Action.start_ofFault _ _), packed, ← directoriesOf]
  by_cases empty : (directoriesOf w locations).isEmpty = true
  · rw [if_pos empty, if_pos empty]
    rfl
  · rw [if_neg empty, if_neg empty]

/-- A call that cannot tell its directories does nothing. -/
theorem exists_packWith_eq
    (undecided : ¬ ∀ l ∈ distinct locations, leadsToDirectory w l = .ok (isPacked w l)) :
    ∃ refusal, ∀ runner : List Job → Action (List Location),
      (p.packWith runner locations).start w = (.error refusal, w) := by
  cases marks : (distinct locations).mapM fun l => (leadsToDirectory w l).map ((l, ·)) with
  | error fault =>
    refine ⟨.fault fault, fun runner => ?_⟩
    rw [packWith, Action.start_bind_ok (Action.start_get w)]
    dsimp only
    rw [marks, Action.start_bind]
    rfl
  | ok marked => exact absurd (marked_eq marks).1 undecided

end Call

end Packer

end Classpath
