import Classpath.Proofs.Packing.Pack
import Classpath.Proofs.Packing.Pool
import Mathlib

/-! # A whole call

A call makes its temporary directory and plans its archives before it runs any job
(`Classpath.Packer.Prepared`). So it comes to the same whether its jobs are run side by side or one
after another (`Classpath.Packer.packWith_sameEnd`).
-/

namespace Classpath.Packer

open Packing

/-- What a call has done before its jobs are run: it has told the directories among the locations,
made the temporary directory and planned the archives. -/
structure Prepared (p : Packer) (w : Workspace) (locations : List Location) (temporary : Path)
    (jobs : List Job) (between : Workspace) : Prop where
  decided : ∀ l ∈ distinct locations, leadsToDirectory w l = .ok (isPacked w l)
  made : p.makeTemporary.start w = (.ok temporary, between)
  planned : p.plan temporary (directoriesOf w locations) = .ok jobs

theorem mem_planAfter {p : Packer} {temporary : Path} {used : List String}
    {locations : List Location} {jobs : List Job}
    (planned : p.planAfter temporary used locations = .ok jobs) :
    ∀ job ∈ jobs, job.source ∈ locations ∧ job.source.path = .ok job.directory ∧
      ∃ count, job.target =
        temporary.join (.ofText (p.fileName (p.stem job.directory) count)) := by
  induction locations generalizing used jobs with
  | nil =>
    cases planned
    simp
  | cons source rest ih =>
    obtain ⟨directory, others, path, later, rfl⟩ := planAfter_cons_eq_ok_iff.mp planned
    intro job member
    rcases List.mem_cons.mp member with rfl | member
    · exact ⟨List.mem_cons_self, path, _, rfl⟩
    · obtain ⟨inside, rest⟩ := ih later job member
      exact ⟨List.mem_cons_of_mem _ inside, rest⟩

/-- A location that is packed leads to a directory. -/
theorem exists_directory {w : Workspace} {l : Location} {directory : Path}
    (packed : leadsToDirectory w l = .ok true) (path : l.path = .ok directory) :
    ∃ place, w.files.status w.workingDirectory directory.text = .ok (place, .directory) := by
  rw [leadsToDirectory] at packed
  split at packed
  · rw [FileTree.isDirectory, FileTree.ask] at packed
    rw [eq_filePath_of_path path]
    cases found : w.files.status w.workingDirectory l.filePath.text with
    | error fault =>
      rw [found] at packed
      dsimp only at packed
      split at packed <;> cases packed
    | ok entry =>
      obtain ⟨place, node⟩ := entry
      rw [found] at packed
      cases node with
      | directory => exact ⟨place, rfl⟩
      | _ => cases packed
  · cases packed

section Call

variable {p : Packer} {w between : Workspace} {locations : List Location} {temporary : Path}
  {fresh : Place} {jobs : List Job}

theorem Prepared.mem (prepared : p.Prepared w locations temporary jobs between) {job : Job}
    (member : job ∈ jobs) :
    (∃ place, w.files.status w.workingDirectory job.directory.text = .ok (place, .directory)) ∧
      job.directory.Normal ∧
      ∃ count, job.target =
        temporary.join (.ofText (p.fileName (p.stem job.directory) count)) := by
  obtain ⟨source, path, target⟩ := mem_planAfter prepared.planned job member
  obtain ⟨inside, packed⟩ := mem_directoriesOf.mp source
  have decided := prepared.decided _ (mem_distinct.mpr inside)
  rw [packed] at decided
  exact ⟨exists_directory decided path,
    eq_filePath_of_path path ▸ Location.normal_filePath job.source, target⟩

/-- An archive is planned in the temporary directory unless its directory is named `..`. -/
theorem below_fileName (p : Packer) (temporary : Path) {directory : Path}
    (normal : directory.Normal) (notUp : directory.name ≠ "..") (count : Nat) :
    temporary.Below (temporary.join (.ofText (p.fileName (p.stem directory) count))) := by
  have notUp' : nameFor directory ≠ ".." := by
    unfold nameFor
    split
    · decide
    · exact notUp
  obtain ⟨rest, begins⟩ := p.exists_fileName directory count
  rw [begins]
  exact temporary.below_join (isName_nameFor normal) notUp' rest

theorem Prepared.below (prepared : p.Prepared w locations temporary jobs between) {job : Job}
    (member : job ∈ jobs) (notUp : job.directory.name ≠ "..") : temporary.Below job.target := by
  obtain ⟨-, normal, count, target⟩ := prepared.mem member
  rw [target]
  exact p.below_fileName temporary normal notUp count

/-- The places of the archives of some jobs. -/
def Slots (temporary : Path) (fresh : Place) (jobs : List Job) (place : Place) : Prop :=
  ∃ job ∈ jobs, slot fresh temporary job.target = .ok place

theorem Apart.distinct (apart : Apart w temporary fresh jobs) : Distinct temporary fresh jobs := by
  intro i j job other found found' different place aims aims'
  obtain ⟨name, -, target, rfl⟩ :=
    exists_child_of_slot (apart.below job (List.mem_of_getElem? found)) aims
  obtain ⟨name', -, target', same⟩ :=
    exists_child_of_slot (apart.below other (List.mem_of_getElem? found')) aims'
  rw [List.append_cancel_left_eq, List.singleton_inj] at same
  obtain ⟨bound, -⟩ := List.getElem?_eq_some_iff.mp found
  apply different
  apply (List.getElem?_inj (by rwa [List.length_map]) apart.different).mp
  rw [List.getElem?_map, List.getElem?_map, found, found', Option.map_some, Option.map_some, target,
    target', same]

theorem Apart.isTarget (apart : Apart w temporary fresh jobs)
    (prepared : p.Prepared w locations temporary jobs between) (found : FreshAt w temporary fresh)
    {job : Job} (member : job ∈ jobs) : IsTarget w temporary fresh job.target := by
  obtain ⟨-, -, count, target⟩ := prepared.mem member
  exact ⟨found, target ▸ Path.normal_join found.normal (Path.normal_ofText _),
    apart.below job member⟩

/-- Where no archive is planned below another one, nothing stands in the way of a job. -/
theorem Apart.sits (apart : Apart w temporary fresh jobs) (level : Level jobs)
    (sound : w.files.Sound) (working : w.files.node? w.workingDirectory.names = some .directory)
    (prepared : p.Prepared w locations temporary jobs between) (found : FreshAt w temporary fresh) :
    ∀ job ∈ jobs, Sits w temporary fresh (Slots temporary fresh jobs) job := by
  intro job member
  obtain ⟨⟨place, stands⟩, -⟩ := prepared.mem member
  obtain ⟨outside, unlinked⟩ := apart.outside job member place stands
  have stands' := FileTree.stands_of_status stands
  refine ⟨apart.isTarget prepared found member, fun place aims => ⟨job, member, aims⟩, ?_, ?_,
    place, stands, sound.aside found.absent (by simp [stands']) outside, unlinked⟩
  · intro t only first rest names several
    by_contra stands
    obtain ⟨other, member', aims⟩ := only _ (List.prefix_append fresh [first]) (by simp) stands
    obtain ⟨name, -, target, same⟩ := exists_child_of_slot (apart.below other member') aims
    rw [List.append_cancel_left_eq, List.singleton_inj] at same
    subst same
    obtain ⟨first', rest', -, whole⟩ := apart.below job member
    rw [whole, List.drop_left, List.cons.injEq] at names
    obtain ⟨rfl, rfl⟩ := names
    have above : other.target.names <+: job.target.names :=
      ⟨rest', by simp [target, whole, Path.child]⟩
    have targets := level other member' job member above
    rw [target, whole, Path.child, Path.mk.injEq, List.append_cancel_left_eq] at targets
    exact several (List.cons.inj targets.2).2.symm
  · intro above
    cases (sound.absent_below found.absent above).symm.trans working

/-- The workspace in which the jobs of a call begin is shared. -/
theorem Prepared.shared (sound : w.files.Sound)
    (prepared : p.Prepared w locations temporary jobs between) :
    ∃ fresh, FreshAt w temporary fresh ∧
      Shared w fresh (Slots temporary fresh jobs) between := by
  obtain ⟨fresh, serial, registered, found, rfl⟩ := exists_freshAt sound prepared.made
  refine ⟨fresh, found, ⟨made_put sound found.absent, rfl⟩, fun place below other stands => ?_,
    rfl⟩
  exact absurd (node?_put_below sound found.absent below other) stands

end Call

end Classpath.Packer
