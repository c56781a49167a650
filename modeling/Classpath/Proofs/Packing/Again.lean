import Classpath.Proofs.Agreement
import Classpath.Proofs.Packing.Call
import Classpath.Proofs.Packing.Elsewhere

/-! # Packing the same locations again

What packing comes to depends on the set of the locations and on the file tree, and not on the order
of the locations or on the number in the name of the temporary directory: two calls both fail, or
they give back the same locations and the same archives, seen from their temporary directories
(`Classpath.Packer.pack_again`).
-/

namespace Classpath

namespace Packer

open Packing

/-! ## Plans -/

theorem join_here (p : Path) : (⟨.here, []⟩ : Path).join p = p := by
  unfold Path.join
  split
  · rfl
  next relative =>
    have start : p.start = .here := by simpa [Path.isAbsolute] using relative
    rw [List.nil_append, ← start]

/-- A plan does not depend on the temporary directory but for where the archives are. -/
theorem planAfter_within (p : Packer) (temporary : Path) (used : List String)
    (directories : List Location) :
    p.planAfter temporary used directories =
      (p.planAfter ⟨.here, []⟩ used directories).map (List.map (Job.within temporary)) := by
  induction directories generalizing used with
  | nil => rfl
  | cons source rest ih =>
    rw [planAfter, planAfter]
    cases source.path with
    | error fault => rfl
    | ok directory =>
      simp only [bind, Except.bind]
      rw [ih]
      cases p.planAfter ⟨.here, []⟩ (p.stem directory :: used) rest with
      | error fault => rfl
      | ok jobs =>
        simp only [Except.map, pure, Except.pure, List.map_cons, Job.within, join_here]

theorem isAbsolute_fileName (p : Packer) {directory : Path} (normal : directory.Normal)
    (count : Nat) :
    (Path.ofText (p.fileName (p.stem directory) count)).isAbsolute = false := by
  obtain ⟨rest, begins⟩ := p.exists_fileName directory count
  have start := Path.startOf_name (isName_nameFor normal) rest.toList
  rw [begins, Path.isAbsolute, Path.ofText, String.toList_append, start]
  rfl

/-! ## The temporary directory -/

/-- A temporary directory that stands aside from the directories among some locations. -/
structure Aside (p : Packer) (w : Workspace) (packed : Location → Prop) (temporary : Path)
    (fresh : Place) : Prop where
  /-- Only for a directory that is named `..` can an archive be planned elsewhere. -/
  below : ∀ l, packed l → ∀ count,
    temporary.Below (temporary.join (.ofText (p.fileName (p.stem l.filePath) count)))
  outside : ∀ l, packed l → ∀ place,
    w.files.status w.workingDirectory l.filePath.text = .ok (place, .directory) →
      ¬ place <+: fresh ∧ ¬ w.files.Leads place fresh
  /-- Only where the temporary directory is spelled as a `file` URI can escapes be read. -/
  literal : ∀ l, packed l → ∀ count, Location.Literal
    (Text.trim (temporary.join (.ofText (p.fileName (p.stem l.filePath) count))).text)

/-- An absolute temporary directory stands aside when it is outside and no directory is named
`..`. -/
theorem Aside.of_absolute {p : Packer} {w : Workspace} {packed : Location → Prop}
    {temporary : Path} {fresh : Place} (rooted : temporary.isAbsolute = true)
    (notUp : ∀ l, packed l → l.filePath.name ≠ "..")
    (outside : ∀ l, packed l → ∀ place,
      w.files.status w.workingDirectory l.filePath.text = .ok (place, .directory) →
        ¬ place <+: fresh ∧ ¬ w.files.Leads place fresh) :
    Aside p w packed temporary fresh where
  below l member := p.below_fileName temporary (Location.normal_filePath l) (notUp l member)
  outside := outside
  literal l member count := by
    apply Location.literal_of_absolute
    have relative := p.isAbsolute_fileName (Location.normal_filePath l) count
    rw [Path.join, relative, if_neg (by simp)]
    exact rooted

/-- The temporary directory that a call makes stands aside from the directories among some
locations. -/
def StandsAside (p : Packer) (w : Workspace) (packed : Location → Prop) : Prop :=
  ∀ temporary fresh after, p.makeTemporary.start w = (.ok temporary, after) →
    FreshAt w temporary fresh → Aside p w packed temporary fresh

/-- Two calls of a packer that runs its jobs one after another, in the same file tree. -/
structure SameSetting (p : Packer) (w w' : Workspace) (packed : Location → Prop) : Prop where
  single : p.isConcurrent = false
  same : w.SameTree w'
  sound : w.files.Sound
  working : w.files.node? w.workingDirectory.names = some .directory
  few : w.Countable
  few' : w'.Countable
  aside : p.StandsAside w packed
  aside' : p.StandsAside w' packed

/-- The location of one of some archives, each with its name in the temporary directory and its
entries. -/
def IsArchive (w : Workspace) (temporary : Path) (archives : List (String × List Entry))
    (l : Location) : Prop :=
  ∃ archive ∈ archives, Location.of w.workingDirectory (.path (temporary.child archive.1)) = .ok l

/-- What packing gives back, seen from the temporary directory: the locations that stay, and those
of some archives, which stand there. -/
structure Packed (w : Workspace) (stays : Location → Prop) (temporary : Path)
    (archives : List (String × List Entry)) (locations : List Location) (after : Workspace) :
    Prop where
  apart : locations.Nodup
  locations : ∀ l, l ∈ locations ↔ stays l ∨ IsArchive w temporary archives l
  stored : ∀ archive ∈ archives,
    (∃ l, Location.of w.workingDirectory (.path (temporary.child archive.1)) = .ok l) ∧
    ∃ place modified, after.files.status w.workingDirectory (temporary.child archive.1).text =
      .ok (place, .file (.archive archive.2) modified)

section Again

variable {p : Packer} {w w' : Workspace} {temporary temporary' : Path} {fresh fresh' : Place}

/-- The locations are those of the archives. -/
theorem Yields.mem_iff {names : List String} {locations : List Location} {after : Workspace}
    (yields : Yields w temporary fresh names locations after) (l : Location) : l ∈ locations ↔
      ∃ name ∈ names, Location.of w.workingDirectory (.path (temporary.child name)) = .ok l := by
  obtain ⟨accepted, -⟩ := yields
  induction accepted with
  | nil => simp
  | cons first _ ih =>
    simp only [List.mem_cons, exists_eq_or_imp, first, ih, Except.ok.injEq]
    rw [eq_comm]

theorem Yields.exists_location {names : List String} {locations : List Location}
    {after : Workspace} (yields : Yields w temporary fresh names locations after) {name : String}
    (member : name ∈ names) :
    ∃ l, Location.of w.workingDirectory (.path (temporary.child name)) = .ok l := by
  obtain ⟨accepted, -⟩ := yields
  induction accepted with
  | nil => cases member
  | cons first _ ih =>
    rcases List.mem_cons.mp member with rfl | member
    · exact ⟨_, first⟩
    · exact ih member

/-- An archive is found under its path. -/
theorem Yields.status {names : List String} {locations : List Location} {after : Workspace}
    (yields : Yields w temporary fresh names locations after)
    (made : Made w.files fresh after.files) {name : String} (member : name ∈ names) :
    ∃ place modified, after.files.status w.workingDirectory (temporary.child name).text =
      .ok (place,
        .file (.archive ((archiveAt after.files (fresh ++ [name])).getD [])) modified) := by
  obtain ⟨inside, short, stands⟩ := yields.inside name member
  have aims : slot fresh temporary (temporary.child name) = .ok (fresh ++ [name]) :=
    slot_child_eq_ok_iff.mpr ⟨short, rfl⟩
  unfold archiveAt at stands ⊢
  split at stands
  next stored modified found =>
    refine ⟨fresh ++ [name], modified, ?_⟩
    rw [FileTree.status_eq_ok_iff, made.locate_eq inside vacant_child .target rfl, aims]
    exact ⟨rfl, found⟩
  · exact absurd rfl stands

/-! ## Two calls -/

theorem leadsToDirectory_same (same : w.SameTree w') (l : Location) :
    leadsToDirectory w' l = leadsToDirectory w l := by
  rw [leadsToDirectory, leadsToDirectory, same.files, same.workingDirectory]

theorem isPacked_same (same : w.SameTree w') (l : Location) : isPacked w' l = isPacked w l := by
  rw [isPacked, isPacked, leadsToDirectory_same same]

theorem FreshAt.same (same : w.SameTree w') (found : FreshAt w' temporary fresh) :
    FreshAt w temporary fresh := by
  obtain ⟨normal, some_name, apart, followed, absent⟩ := found
  rw [same.workingDirectory] at apart followed
  rw [same.files] at followed absent
  exact ⟨normal, some_name, apart, followed, absent⟩

theorem Aside.same {packed : Location → Prop} (same : w.SameTree w')
    (aside : Aside p w' packed temporary fresh) : Aside p w packed temporary fresh := by
  obtain ⟨below, outside, literal⟩ := aside
  rw [same.files, same.workingDirectory] at outside
  exact ⟨below, outside, literal⟩

/-- The directories of the same locations are the same, in the same order. -/
theorem directoriesOf_same (same : w.SameTree w') {kept kept' : List Location}
    (members : ∀ l, l ∈ kept ↔ l ∈ kept') : directoriesOf w kept = directoriesOf w' kept' := by
  apply Location.sort_eq_of_perm
  rw [List.perm_ext_iff_of_nodup ((nodup_distinct _).filter _) ((nodup_distinct _).filter _)]
  intro l
  rw [List.mem_filter, List.mem_filter, mem_distinct, mem_distinct, members, isPacked_same same]

/-- The jobs of a plan pack directories that are aside. -/
theorem Aside.beside {kept : List Location} {jobs : List Job}
    (aside : Aside p w (fun l => l ∈ kept ∧ isPacked w l = true) temporary fresh)
    (found : FreshAt w temporary fresh)
    (decided : ∀ l ∈ distinct kept, leadsToDirectory w l = .ok (isPacked w l))
    (planned : p.plan ⟨.here, []⟩ (directoriesOf w kept) = .ok jobs) :
    ∀ job ∈ jobs, Beside w temporary fresh (job.within temporary) := by
  intro job member
  obtain ⟨source, path, count, target⟩ := mem_planAfter planned job member
  obtain ⟨inside, packed⟩ := mem_directoriesOf.mp source
  have directory := eq_filePath_of_path path
  rw [join_here] at target
  rw [directory] at target
  have stands := decided _ (mem_distinct.mpr inside)
  rw [packed] at stands
  obtain ⟨place, status⟩ := exists_directory stands path
  refine ⟨⟨found, ?_, ?_⟩, place, status, ?_⟩
  · exact Path.normal_join found.normal (target ▸ Path.normal_ofText _)
  · rw [Job.within, target]
    exact aside.below _ ⟨inside, packed⟩ count
  · rw [directory] at status
    exact aside.outside _ ⟨inside, packed⟩ place status

theorem movable_of_plan {kept : List Location} {jobs : List Job}
    (found : FreshAt w temporary fresh) (found' : FreshAt w temporary' fresh')
    (aside : Aside p w (fun l => l ∈ kept ∧ isPacked w l = true) temporary fresh)
    (aside' : Aside p w (fun l => l ∈ kept ∧ isPacked w l = true) temporary' fresh')
    (decided : ∀ l ∈ distinct kept, leadsToDirectory w l = .ok (isPacked w l))
    (planned : p.plan ⟨.here, []⟩ (directoriesOf w kept) = .ok jobs) :
    ∀ job ∈ jobs, Movable w temporary temporary' fresh fresh' job := by
  intro job member
  obtain ⟨source, path, count, target⟩ := mem_planAfter planned job member
  obtain ⟨inside, packed⟩ := mem_directoriesOf.mp source
  have directory := eq_filePath_of_path path
  rw [join_here, directory] at target
  refine ⟨?_, aside.beside found decided planned job member,
    aside'.beside found' decided planned job member, ?_⟩
  · rw [target]
    exact p.isAbsolute_fileName (Location.normal_filePath _) count
  · rw [target]
    exact aside.literal _ ⟨inside, packed⟩ count

/-- Two workspaces in which the temporary directories have just been made. -/
theorem halfway_put {serial serial' : Nat} {registered registered' : List Path}
    (same : w.SameTree w') (sound : w.files.Sound) (found : FreshAt w temporary fresh)
    (found' : FreshAt w temporary' fresh') :
    Halfway w fresh fresh'
      { w with files := w.files.put fresh .directory, serial, registered }
      { w' with files := w'.files.put fresh' .directory, serial := serial',
                registered := registered' } := by
  have empty : ∀ {place : Place} (name : String), w.files.node? place = none →
      archiveAt (w.files.put place .directory) (place ++ [name]) = none := by
    intro place name absent
    rw [archiveAt, node?_put_below sound absent (List.prefix_append _ _) (by simp)]
  rw [same.files]
  refine ⟨⟨made_put sound found.absent, made_put sound found'.absent, fun name => ?_⟩, rfl,
    same.workingDirectory⟩
  rw [empty name found.absent, empty name found'.absent]

/-- The names and entries of some archives. -/
def archivesIn (t : FileTree) (fresh : Place) (names : List String) : List (String × List Entry) :=
  names.map fun name => (name, (archiveAt t (fresh ++ [name])).getD [])

theorem archivesIn_eq {t t' : FileTree} (mirrors : Mirrors w fresh fresh' t t')
    (names : List String) : archivesIn t fresh names = archivesIn t' fresh' names :=
  List.map_congr_left fun name _ => by rw [mirrors.same]

theorem packed_of_yields {names : List String} {kept kept' archives : List Location}
    {after : Workspace} (members : ∀ l, l ∈ kept ↔ l ∈ kept')
    (yields : Yields w temporary fresh names archives after)
    (made : Made w.files fresh after.files) :
    Packed w (fun l => l ∈ kept ∧ isPacked w l = false) temporary
      (archivesIn after.files fresh names)
      (distinct ((distinct kept').filter (fun l => !(directoriesOf w kept).contains l) ++ archives))
      after where
  apart := nodup_distinct _
  locations l := by
    have stays : l ∈ (distinct kept').filter (fun l => !(directoriesOf w kept).contains l) ↔
        l ∈ kept ∧ isPacked w l = false := by
      have other : (!(directoriesOf w kept).contains l) = true ↔
          ¬ (l ∈ kept ∧ isPacked w l = true) := by
        rw [Bool.not_eq_true', ← Bool.not_eq_true, List.contains_iff_mem, mem_directoriesOf]
      rw [List.mem_filter, mem_distinct, ← members, other]
      refine and_congr_right fun member => ?_
      rw [and_iff_right member, Bool.not_eq_true]
    rw [mem_distinct, List.mem_append, stays, yields.mem_iff]
    simp only [IsArchive, archivesIn, List.mem_map, exists_exists_and_eq_and]
  stored archive member := by
    obtain ⟨name, among, rfl⟩ := List.mem_map.mp member
    exact ⟨yields.exists_location among, yields.status made among⟩

/-! ## A whole call -/

/-- What a call does once it knows the directories. -/
def packing (p : Packer) (kept directories : List Location) : Action (List Location) := do
  let temporary ← p.makeTemporary
  let jobs ← Action.ofFault (p.plan temporary directories)
  let archives ← runInOrder jobs
  return distinct ((distinct kept).filter (fun l => !directories.contains l) ++ archives)

theorem pack_fails {kept : List Location}
    (undecided : ¬ ∀ l ∈ distinct kept, leadsToDirectory w l = .ok (isPacked w l)) :
    (p.pack kept).Fails w := by
  obtain ⟨refusal, ended⟩ := exists_packWith_eq (p := p) undecided
  exact ⟨refusal, w, by rw [pack_eq, ended]⟩

theorem start_pack {kept : List Location} (single : p.isConcurrent = false)
    (decided : ∀ l ∈ distinct kept, leadsToDirectory w l = .ok (isPacked w l)) :
    (p.pack kept).start w =
      if (directoriesOf w kept).isEmpty then (.ok (distinct kept), w)
      else (p.packing kept (directoriesOf w kept)).start w := by
  have jobs : p.runJobs = runInOrder := by
    funext jobs
    rw [runJobs, single, Bool.false_and, if_neg (by simp)]
  rw [pack_eq, jobs, packWith_eq decided]
  rfl

theorem decided_same {kept kept' : List Location} (same : w.SameTree w')
    (members : ∀ l, l ∈ kept ↔ l ∈ kept')
    (decided : ∀ l ∈ distinct kept, leadsToDirectory w l = .ok (isPacked w l)) :
    ∀ l ∈ distinct kept', leadsToDirectory w' l = .ok (isPacked w' l) := by
  intro l member
  rw [mem_distinct, ← members, ← mem_distinct] at member
  rw [leadsToDirectory_same same, isPacked_same same]
  exact decided l member

/-- Without directories the locations are given back. -/
theorem packed_distinct {kept kept' : List Location} {temporary : Path} {after : Workspace}
    (members : ∀ l, l ∈ kept ↔ l ∈ kept') (empty : (directoriesOf w kept).isEmpty = true) :
    Packed w (fun l => l ∈ kept ∧ isPacked w l = false) temporary [] (distinct kept') after where
  apart := nodup_distinct _
  locations l := by
    have none : l ∈ kept → isPacked w l = false := by
      intro member
      rw [← Bool.not_eq_true]
      intro packed
      have inside := mem_directoriesOf.mpr ⟨member, packed⟩
      rw [List.isEmpty_iff.mp empty] at inside
      cases inside
    rw [mem_distinct, ← members]
    simpa [IsArchive] using none
  stored archive member := by cases member

/-- What two calls come to: both fail, or they give back the same, each seen from its own temporary
directory. -/
def SameAgain (w : Workspace) (stays : Location → Prop)
    (ended ended' : Except Failure (List Location) × Workspace) : Prop :=
  (∃ refusal refusal' after after', ended = (.error refusal, after) ∧
    ended' = (.error refusal', after')) ∨
  ∃ archives root start n n' locations locations' after after', ended = (.ok locations, after) ∧
    ended' = (.ok locations', after') ∧
    Packed w stays (numbered root start n) archives locations after ∧
    Packed w stays (numbered root start n') archives locations' after'

theorem SameAgain.of_fails {stays : Location → Prop} {first second : Action (List Location)}
    (fails : first.Fails w) (fails' : second.Fails w') :
    SameAgain w stays (first.start w) (second.start w') := by
  obtain ⟨refusal, after, ended⟩ := fails
  obtain ⟨refusal', after', ended'⟩ := fails'
  exact .inl ⟨refusal, refusal', after, after', ended, ended'⟩

/-- The jobs of two calls come to the same. -/
theorem packing_again {kept kept' : List Location}
    (setting : p.SameSetting w w' fun l => l ∈ kept ∧ isPacked w l = true)
    (members : ∀ l, l ∈ kept ↔ l ∈ kept')
    (decided : ∀ l ∈ distinct kept, leadsToDirectory w l = .ok (isPacked w l)) :
    SameAgain w (fun l => l ∈ kept ∧ isPacked w l = false)
      ((p.packing kept (directoriesOf w kept)).start w)
      ((p.packing kept' (directoriesOf w kept)).start w') := by
  obtain ⟨-, same, sound, working, few, few', aside, aside'⟩ := setting
  -- Each stage fails in both calls or in none: the temporary directory, the plan and the jobs.
  rcases p.makeTemporary_cases w with fails | ⟨root, start, makes⟩
  · exact .of_fails ((fails w (.refl w) few).bind _) ((fails w' same few').bind _)
  obtain ⟨n, small, between, made⟩ := makes w (.refl w) few
  obtain ⟨n', small', between', made'⟩ := makes w' same few'
  obtain ⟨fresh, serial, registered, found, rfl⟩ := exists_freshAt sound made
  obtain ⟨fresh', serial', registered', found', rfl⟩ := exists_freshAt (same.files ▸ sound) made'
  replace aside := aside _ _ _ made found
  replace aside' := (aside' _ _ _ made' found').same same
  replace found' := found'.same same
  cases plan : p.plan ⟨.here, []⟩ (directoriesOf w kept) with
  | error fault =>
    have fails : ∀ temporary (current : Workspace),
        (Action.ofFault (p.plan temporary (directoriesOf w kept))).Fails current := by
      intro temporary current
      rw [Packer.plan, planAfter_within, ← Packer.plan, plan]
      exact ⟨.fault fault, current, rfl⟩
    exact .of_fails (Action.fails_bind_of_ok made ((fails _ _).bind _))
      (Action.fails_bind_of_ok made' ((fails _ _).bind _))
  | ok jobs =>
    have planned : ∀ temporary (current : Workspace),
        (Action.ofFault (p.plan temporary (directoriesOf w kept))).start current =
          (.ok (jobs.map (·.within temporary)), current) := by
      intro temporary current
      rw [Packer.plan, planAfter_within, ← Packer.plan, plan]
      rfl
    rcases runInOrder_elsewhere sound working (renumbered_numbered root start small small')
        (movable_of_plan found found' aside aside' decided plan)
        (halfway_put same sound found found') with ⟨fails, fails'⟩ |
      ⟨names, archives, archives', after, after', ran, ran', yields, yields', -, ended⟩
    · exact .of_fails
        (Action.fails_bind_of_ok made (Action.fails_bind_of_ok (planned _ _) (fails.bind _)))
        (Action.fails_bind_of_ok made' (Action.fails_bind_of_ok (planned _ _) (fails'.bind _)))
    have packed := packed_of_yields (fun l => (Iff.rfl : l ∈ kept ↔ l ∈ kept)) yields
      ended.mirrors.left
    have packed' := packed_of_yields members yields' ended.mirrors.right
    rw [← archivesIn_eq ended.mirrors] at packed'
    refine .inr ⟨_, root, start, n, n', _, _, after, after', ?_, ?_, packed, packed'⟩
    · rw [packing, Action.start_bind_ok made, Action.start_bind_ok (planned _ _),
        Action.start_bind_ok ran]
      rfl
    · rw [packing, Action.start_bind_ok made', Action.start_bind_ok (planned _ _),
        Action.start_bind_ok ran']
      rfl

/-- **Packing comes to the same again.** -/
theorem pack_again {kept kept' : List Location}
    (setting : p.SameSetting w w' fun l => l ∈ kept ∧ isPacked w l = true)
    (members : ∀ l, l ∈ kept ↔ l ∈ kept') :
    SameAgain w (fun l => l ∈ kept ∧ isPacked w l = false) ((p.pack kept).start w)
      ((p.pack kept').start w') := by
  have same := setting.same
  by_cases decided : ∀ l ∈ distinct kept, leadsToDirectory w l = .ok (isPacked w l)
  case neg =>
    have back := decided_same same.symm fun l => (members l).symm
    exact .of_fails (pack_fails decided) (pack_fails fun decided' => decided (back decided'))
  rw [start_pack setting.single decided,
    start_pack setting.single (decided_same same members decided),
    ← directoriesOf_same same members]
  split
  next empty =>
    exact .inr ⟨[], "", "", 0, 0, _, _, _, _, rfl, rfl, packed_distinct (fun _ => Iff.rfl) empty,
      packed_distinct members empty⟩
  next some_directory => exact packing_again setting members decided

end Again

end Packer

end Classpath
