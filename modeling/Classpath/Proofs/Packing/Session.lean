import Classpath.Proofs.FileTree.Clearing
import Classpath.Proofs.FileTree.Replacing
import Classpath.Proofs.Packing.Kept
import Classpath.Proofs.Packing.Numbered
import Classpath.Proofs.Packing.Pack

/-! # The temporary directories of a session

A session is a sequence of calls of packers and of removals of the temporary directories that are
registered. Whatever becomes of the jobs of a call, and wherever their archives are written, they
change no directory and register none (`Classpath.Packer.keptAt_sameDirectories`). So a call comes
to its one temporary directory or to none (`Classpath.Packer.packWith_cases`), and at each moment of
a session just the directories that are to be removed are registered, and no two calls share one
(`Classpath.Session.Exact.run`).
-/

namespace Classpath

open FileTree

/-- A temporary directory that a call has made. -/
structure Temporary where
  path : Path
  /-- Where it stands. -/
  place : Place
  /-- Whether it is to be removed at the end. -/
  isRemoved : Bool
deriving DecidableEq, Repr

/-- The workspace in which a temporary directory with a number has just been made. -/
def Temporary.begun (T : Temporary) (w : Workspace) (serial : Nat) : Workspace :=
  { w with
    files := w.files.put T.place .directory
    serial
    registered := if T.isRemoved then distinct (w.registered ++ [T.path]) else w.registered }

namespace Packer

open Packing

/-! ## What jobs leave alone -/

/-- A workspace that differs at most in what is no directory, and in its journal. -/
structure SameDirectories (w u : Workspace) : Prop where
  sound : u.files.Sound
  directories : ∀ place, u.files.node? place = some .directory ↔
    w.files.node? place = some .directory
  rest : { u with files := w.files, journal := w.journal } = w

section

variable {w u : Workspace}

theorem SameDirectories.serial_eq (same : SameDirectories w u) : u.serial = w.serial := by
  have counted := congrArg Workspace.serial same.rest
  exact counted

theorem SameDirectories.registered_eq (same : SameDirectories w u) :
    u.registered = w.registered := by
  have registered := congrArg Workspace.registered same.rest
  exact registered

theorem SameDirectories.workingDirectory_eq (same : SameDirectories w u) :
    u.workingDirectory = w.workingDirectory := by
  have working := congrArg Workspace.workingDirectory same.rest
  exact working

end

/-- Wherever a job writes its archive and takes it away, no directory is made or removed. -/
theorem keptAt_sameDirectories (w : Workspace) (target : Path) :
    KeptAt (SameDirectories w) target where
  write same wrote := by
    obtain ⟨place, writable, rfl⟩ := exists_of_write wrote
    have written := SameBut.of_put (ends_of_writable same.sound writable)
    refine ⟨same.sound.written writable _ _, fun other => ?_, same.rest⟩
    rw [← same.directories]
    exact ⟨(written _ _).symm.directory, (written _ _).directory⟩
  unlink same taken := by
    obtain ⟨gone, node, -, stands, other, rfl⟩ := unlink_eq_ok_iff.mp taken
    have notDirectory : _ ≠ some Node.directory := fun directory =>
      other (Option.some.inj (stands.symm.trans directory))
    exact ⟨same.sound.erase notDirectory,
      fun place => (node?_erase_eq_directory_iff notDirectory).trans (same.directories place),
      same.rest⟩
  report _ same := ⟨same.sound, same.directories, same.rest⟩

/-! ## What becomes of a call -/

section Call

variable {p : Packer} {w : Workspace} {runner : List Job → Action (List Location)}
  {locations : List Location}

/-- Whether a call comes to making its temporary directory: of each location it can be told whether
it leads to a directory, and one does. -/
def comesToPacking (w : Workspace) (locations : List Location) : Bool :=
  locations.all (fun l => (leadsToDirectory w l).isOk) && locations.any (isPacked w)

/-- The temporary directory that a call makes, if it makes one. -/
def makes? (p : Packer) (w : Workspace) (locations : List Location) : Option Temporary :=
  if comesToPacking w locations then
    match p.makeTemporary.start w with
    | (.ok path, between) =>
      (between.files.locate .name w.workingDirectory path.text).toOption.map
        (⟨path, ·, !p.removesAtEnd.isEmptyLike⟩)
    | (.error _, _) => none
  else none

/-- A call has made a temporary directory and given it a number, and its jobs have changed no
directory. -/
structure Began (w : Workspace) (T : Temporary) (serial : Nat) (after : Workspace) : Prop where
  found : FreshAt w T.path T.place
  located : w.files.locate .name w.workingDirectory T.path.text = .ok T.place
  more : w.serial < serial
  numbered : ∃ top middle, T.place = top ++ [numberedName middle serial]
  same : SameDirectories (T.begun w serial) after

theorem Began.place_ne_nil {T : Temporary} {serial : Nat} {after : Workspace}
    (began : Began w T serial after) : T.place ≠ [] := fun none => by
  have absent := began.found.absent
  rw [none] at absent
  cases absent

/-- The place of a temporary directory ends in its number. -/
theorem FreshAt.numbered {root start : String} {n : Nat} {fresh : Place}
    (found : FreshAt w (Packer.numbered root start n) fresh) :
    ∃ top middle, fresh = top ++ [numberedName middle n] := by
  obtain ⟨front, text⟩ := exists_below root start
  obtain ⟨before, middle, split⟩ := Path.exists_segments_append front
  have whole : '/' ∉ (Text.padded 8 n).toList := fun slash =>
    absurd (Text.mem_decimals_of_mem_padded slash) (by decide)
  have split := split _ whole
  obtain ⟨named, notUp⟩ := isName_numbered split
  have counts : Path.counts (numberedName middle n) = true := by
    simp [Path.counts, named.1, named.2.1]
  have names : (Packer.numbered root start n).names =
      (before.map String.ofList).filter Path.counts ++ [numberedName middle n] := by
    rw [Packer.numbered, Path.names_ofText, Path.segments, text, split, List.map_append,
      List.map_singleton, ← numberedName, List.filter_append, List.filter_cons_of_pos counts,
      List.filter_nil]
  have followed := found.followed
  rw [names] at followed
  obtain ⟨top, -, -, same⟩ := follow_above named notUp followed
  exact ⟨top, middle, same⟩

/-- A place for a new directory is found again once the directory has been made there. -/
theorem locate_put_directory {t : FileTree} {workingDirectory : Path} {s : String} {fresh : Place}
    (located : t.locate .name workingDirectory s = .ok fresh) (absent : t.node? fresh = none) :
    (t.put fresh .directory).locate .name workingDirectory s = .ok fresh :=
  locate_put (by simp) located (by simp [absent]) (by simp [absent])

theorem FreshAt.sound_put {temporary : Path} {fresh : Place} (found : FreshAt w temporary fresh)
    (sound : w.files.Sound) : (w.files.put fresh .directory).Sound := by
  have above : w.files.node? fresh.dropLast = some .directory :=
    directory_of_follow sound found.followed (stands_of_follow found.some_name found.followed)
      found.absent
  intro place name node stands
  have directory : w.files.node? place = some .directory := by
    by_cases here : place ++ [name] = fresh
    · rwa [← here, List.dropLast_concat] at above
    · rw [node?_put_of_ne _ _ here] at stands
      exact sound _ _ _ stands
  rw [node?_put_of_ne, directory]
  rintro rfl
  cases found.absent.symm.trans directory

theorem comesToPacking_iff : comesToPacking w locations = true ↔
    (∀ l ∈ distinct locations, leadsToDirectory w l = .ok (isPacked w l)) ∧
      ¬ (directoriesOf w locations).isEmpty = true := by
  have told : ∀ l, (leadsToDirectory w l).isOk = true ↔
      leadsToDirectory w l = .ok (isPacked w l) := by
    intro l
    unfold isPacked
    cases leadsToDirectory w l <;> simp [Except.isOk, Except.toBool, Except.toOption]
  simp only [comesToPacking, Bool.and_eq_true, List.all_eq_true, List.any_eq_true, told,
    mem_distinct, List.isEmpty_iff, List.eq_nil_iff_forall_not_mem, mem_directoriesOf, not_forall,
    not_not]

/-- A call that comes to packing makes the temporary directory that its packer makes. -/
theorem exists_makes? (sound : w.files.Sound) (comes : comesToPacking w locations = true)
    {temporary : Path} {between : Workspace}
    (made : p.makeTemporary.start w = (.ok temporary, between)) :
    ∃ T serial, p.makes? w locations = some T ∧ T.isRemoved = !p.removesAtEnd.isEmptyLike ∧
      between = T.begun w serial ∧ T.path = temporary ∧
      ∀ after, SameDirectories between after → Began w T serial after := by
  obtain ⟨fresh, serial, found, more, located, ⟨root, start, numbered⟩, same⟩ :=
    makeTemporary_made sound made
  let T : Temporary := ⟨temporary, fresh, !p.removesAtEnd.isEmptyLike⟩
  have begun : between = T.begun w serial := by
    rw [same]
    cases removes : p.removesAtEnd.isEmptyLike <;> simp [T, Temporary.begun, removes]
  refine ⟨T, serial, ?_, rfl, begun, rfl, fun after same => ⟨found, located, more, ?_, ?_⟩⟩
  · rw [makes?, if_pos comes, made, begun]
    dsimp only
    rw [Temporary.begun, locate_put_directory located found.absent]
    rfl
  · subst numbered
    exact found.numbered
  · rwa [← begun]

/-- **What a call can come to.** Either it makes no temporary directory, and at most names have been
used, or it makes one, and whatever becomes of its jobs they change no directory. -/
theorem packWith_cases (sound : w.files.Sound) (way : p.IsRunner runner)
    (locations : List Location) :
    (p.makes? w locations = none ∧ ∃ serial, w.serial ≤ serial ∧
      ((p.packWith runner locations).start w).2 = { w with serial }) ∨
    ∃ T serial, p.makes? w locations = some T ∧ T.isRemoved = !p.removesAtEnd.isEmptyLike ∧
      Began w T serial ((p.packWith runner locations).start w).2 := by
  by_cases comes : comesToPacking w locations = true
  case neg =>
    refine .inl ⟨if_neg comes, w.serial, Nat.le_refl _, ?_⟩
    by_cases decided : ∀ l ∈ distinct locations, leadsToDirectory w l = .ok (isPacked w l)
    · rw [packWith_eq decided, if_pos]
      by_contra some_directory
      exact comes (comesToPacking_iff.mpr ⟨decided, some_directory⟩)
    · obtain ⟨refusal, ended⟩ := exists_packWith_eq (p := p) decided
      rw [ended]
  obtain ⟨decided, some_directory⟩ := comesToPacking_iff.mp comes
  rw [packWith_eq decided, if_neg some_directory]
  rcases made : p.makeTemporary.start w with ⟨refusal | temporary, between⟩
  · obtain ⟨serial, more, rfl⟩ := makeTemporary_refused made
    refine .inl ⟨?_, serial, more, ?_⟩
    · rw [makes?, if_pos comes, made]
    · rw [Action.start_bind, made]
  obtain ⟨T, serial, makes, removed, begun, -, began⟩ := exists_makes? sound comes made
  refine .inr ⟨T, serial, makes, removed, began _ ?_⟩
  have same : SameDirectories between between := by
    obtain ⟨fresh, serial, registered, found, rfl⟩ := exists_freshAt sound made
    exact ⟨found.sound_put sound, fun _ => Iff.rfl, rfl⟩
  rw [Action.start_bind_ok made]
  cases planned : p.plan temporary (directoriesOf w locations) with
  | error fault => exact same
  | ok jobs =>
    have planning : (Action.ofFault (.ok jobs)).start between = (.ok jobs, between) := rfl
    have keeps : ∀ job ∈ jobs, KeptAt (SameDirectories between) job.target := fun job _ =>
      keptAt_sameDirectories between job.target
    have after := kept_runner way keeps same
    rw [Action.start_bind_ok planning, Action.start_bind]
    rcases ran : (runner jobs).start between with ⟨refusal | archives, last⟩ <;>
      · rw [ran] at after
        exact after

end Call

end Packer

/-! ## Sessions -/

/-- What a sequence of calls and removals has come to. -/
structure Session where
  workspace : Workspace
  /-- The temporary directories made so far, in order. -/
  made : List Temporary
  /-- Those of them that have been made since the last removal. -/
  recent : List Temporary

namespace Session

/-- A step of a session: some packer packs some locations and runs its jobs in some way, or the
temporary directories that are registered are removed in some order. -/
inductive Step where
  | pack (p : Packer) (runner : List Packer.Job → Action (List Location))
    (locations : List Location)
  | clean (arrange : List Path → List Path)

/-- The jobs of a call are run in a way in which its packer may run them, and a removal leaves no
registered directory out. -/
def Step.Runs : Step → Prop
  | .pack p runner _ => p.IsRunner runner
  | .clean arrange => ∀ paths, (arrange paths).Perm paths

/-- A session in which nothing has been done. -/
def start (w : Workspace) : Session :=
  ⟨w, [], []⟩

/-- The temporary directories made since the last removal that are to be removed. -/
def pending (s : Session) : List Temporary :=
  s.recent.filter (·.isRemoved)

/-- A session goes on, whether a call succeeds or fails. -/
def next (s : Session) : Step → Session
  | .pack p runner locations =>
    let new := (p.makes? s.workspace locations).toList
    ⟨((p.packWith runner locations).start s.workspace).2, s.made ++ new, s.recent ++ new⟩
  | .clean arrange =>
    let w := { s.workspace with registered := arrange s.workspace.registered }
    ⟨w.removeRegistered, s.made, []⟩

def run (s : Session) (steps : List Step) : Session :=
  steps.foldl next s

/-- A session at each moment of which just those temporary directories are registered that have been
made since the last removal and are to be removed. Each of them stands at a place of its own, and
with numbers of at most eight digits this is so of all temporary directories ever made. -/
structure Exact (s : Session) : Prop where
  sound : s.workspace.files.Sound
  registered : s.workspace.registered = distinct (s.pending.map Temporary.path)
  among : s.recent ⊆ s.made
  standing : ∀ T ∈ s.recent, s.workspace.files.node? T.place = some .directory
  apart : (s.recent.map Temporary.place).Nodup
  numbered : ∀ T ∈ s.made, ∃ n ≤ s.workspace.serial, ∃ top middle,
    T.place = top ++ [numberedName middle n]
  unshared : s.workspace.serial < 10 ^ 8 → (s.made.map Temporary.place).Nodup

theorem exact_start {w : Workspace} (sound : w.files.Sound) (none : w.registered = []) :
    (start w).Exact where
  sound := sound
  registered := none
  among := List.nil_subset _
  standing _ member := nomatch member
  apart := List.nodup_nil
  numbered _ member := nomatch member
  unshared _ := List.nodup_nil

section Next

variable {s : Session}

theorem sound_removeRegistered {w : Workspace} (sound : w.files.Sound) :
    w.removeRegistered.files.Sound := by
  have each : ∀ (paths : List Path) (t : FileTree), t.Sound →
      (paths.foldl (fun files path => files.removeTree w.workingDirectory path) t).Sound := by
    intro paths
    induction paths with
    | nil => exact fun _ sound => sound
    | cons path rest ih => exact fun t sound => ih _ (sound.removeTree _ path)
  exact each _ _ sound

/-- Nothing is registered any more when the temporary directories have been removed. -/
theorem Exact.clean (exact : s.Exact) (arrange : List Path → List Path) :
    (s.next (.clean arrange)).Exact where
  sound := sound_removeRegistered exact.sound
  registered := rfl
  among := List.nil_subset _
  standing _ member := nomatch member
  apart := List.nodup_nil
  numbered := exact.numbered
  unshared := exact.unshared

/-- Names that end in numbers of eight digits are told apart by them. -/
theorem numberedName_inj_of_few {middle middle' : List Char} {n m : Nat} (few : n < 10 ^ 8)
    (few' : m < 10 ^ 8) (same : numberedName middle n = numberedName middle' m) : n = m := by
  have chars := String.ofList_inj.mp same
  have digits := (List.append_inj' chars (by rw [Text.length_padded few,
    Text.length_padded few'])).2
  exact Text.padded_inj (String.toList_inj.mp digits)

variable {T : Temporary} {serial : Nat} {after : Workspace}

/-- A call that makes a temporary directory makes just this one directory. -/
theorem directory_of_began {w : Workspace} (began : Packer.Began w T serial after) {place : Place} :
    after.files.node? place = some .directory ↔
      w.files.node? place = some .directory ∨ place = T.place := by
  rw [began.same.directories]
  by_cases here : place = T.place
  · rw [here, Temporary.begun, node?_put_self _ _ began.place_ne_nil]
    simp
  · rw [Temporary.begun, node?_put_of_ne _ _ here]
    simp [here]

/-- A new temporary directory has a place of its own when the others stand elsewhere. -/
theorem nodup_places_concat {made : List Temporary} (apart : (made.map Temporary.place).Nodup)
    (other : ∀ S ∈ made, S.place ≠ T.place) : ((made ++ [T]).map Temporary.place).Nodup := by
  rw [List.map_append, List.map_singleton, List.nodup_append_comm, List.singleton_append,
    List.nodup_cons]
  refine ⟨fun member => ?_, apart⟩
  obtain ⟨S, inside, same⟩ := List.mem_map.mp member
  exact other S inside same

/-- A session stays exact when a call makes a temporary directory. -/
theorem Exact.began (exact : s.Exact) (began : Packer.Began s.workspace T serial after) :
    (⟨after, s.made ++ [T], s.recent ++ [T]⟩ : Session).Exact where
  sound := began.same.sound
  registered := by
    rw [began.same.registered_eq, Temporary.begun, exact.registered]
    cases removed : T.isRemoved <;>
      simp [pending, List.filter_append, removed, distinct_distinct_concat]
  among := List.append_subset.mpr
    ⟨List.subset_append_of_subset_left _ exact.among, List.subset_append_right _ _⟩
  standing S member := by
    refine (directory_of_began began).mpr ?_
    rcases List.mem_append.mp member with before | new
    · exact .inl (exact.standing S before)
    · exact .inr (congrArg Temporary.place (List.mem_singleton.mp new))
  apart := nodup_places_concat exact.apart fun S member same => by
    cases (same ▸ exact.standing S member).symm.trans began.found.absent
  numbered S member := by
    rw [began.same.serial_eq]
    rcases List.mem_append.mp member with before | new
    · obtain ⟨n, few, numbered⟩ := exact.numbered S before
      exact ⟨n, few.trans began.more.le, numbered⟩
    · rw [List.mem_singleton.mp new]
      exact ⟨serial, Nat.le_refl _, began.numbered⟩
  unshared few := by
    have counted : after.serial = serial := began.same.serial_eq
    replace few : serial < 10 ^ 8 := counted ▸ few
    have more := began.more
    refine nodup_places_concat (exact.unshared (more.trans few)) fun S member same => ?_
    -- A directory made before has a smaller number.
    obtain ⟨n, small, top, middle, place⟩ := exact.numbered S member
    obtain ⟨top', middle', place'⟩ := began.numbered
    rw [place, place'] at same
    have names := List.singleton_inj.mp (List.append_inj' same rfl).2
    have number := numberedName_inj_of_few (by omega) few names
    omega

/-- A session stays exact when a call makes no temporary directory. -/
theorem Exact.used (exact : s.Exact) (more : s.workspace.serial ≤ serial) :
    (⟨{ s.workspace with serial }, s.made, s.recent⟩ : Session).Exact where
  sound := exact.sound
  registered := exact.registered
  among := exact.among
  standing := exact.standing
  apart := exact.apart
  numbered S member := by
    obtain ⟨n, few, numbered⟩ := exact.numbered S member
    exact ⟨n, few.trans more, numbered⟩
  unshared few := exact.unshared (Nat.lt_of_le_of_lt more few)

/-- Each step keeps a session exact. -/
theorem Exact.next (exact : s.Exact) {step : Step} (runs : step.Runs) : (s.next step).Exact := by
  cases step with
  | clean arrange => exact exact.clean arrange
  | pack p runner locations =>
    rcases Packer.packWith_cases exact.sound runs locations with
      ⟨none, serial, more, same⟩ | ⟨T, serial, makes, -, began⟩
    · simp only [Session.next, none, same, Option.toList_none, List.append_nil]
      exact exact.used more
    · simp only [Session.next, makes, Option.toList_some]
      exact exact.began began

/-- So a session stays exact. -/
theorem Exact.run (exact : s.Exact) {steps : List Step} (runs : ∀ step ∈ steps, step.Runs) :
    (s.run steps).Exact := by
  induction steps generalizing s with
  | nil => exact exact
  | cons step rest ih =>
    exact ih (exact.next (runs step List.mem_cons_self))
      fun other member => runs other (List.mem_cons_of_mem _ member)

end Next

end Session

end Classpath
