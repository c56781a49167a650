import Classpath.Proofs.FileTree.Fresh

/-! # Listings that stay

The files below a directory are told by what stands below it and by where the links there lead
(`Classpath.FileTree.mem_namesIn`). A change somewhere else shows in the listing only through a link
that leads there (`Classpath.FileTree.files_agree`).
-/

namespace Classpath.FileTree

variable {t t' : FileTree} {fresh directory : Place}

theorem node?_eq_none_iff {place : Place} (below : place ≠ []) :
    t.node? place = none ↔ ∀ entry ∈ t.nodes, entry.1 ≠ place := by
  simp [node?, List.isEmpty_iff, below]

/-- The names in a directory are the names by which something stands there. -/
theorem mem_namesIn {place : Place} {name : String} :
    name ∈ t.namesIn place ↔ t.node? (place ++ [name]) ≠ none := by
  rw [namesIn, Text.mem_sort, mem_distinct, List.mem_filterMap, ne_eq,
    node?_eq_none_iff (by simp)]
  push Not
  refine exists_congr fun entry => and_congr_right fun _ => ?_
  constructor
  · intro found
    split at found
    next above => rw [← above, List.dropLast_append_getLast? name found]
    · cases found
  · intro same
    rw [same, List.dropLast_concat, if_pos rfl, List.getLast?_concat]

theorem namesIn_agree {place : Place}
    (same : ∀ name, t'.node? (place ++ [name]) = t.node? (place ++ [name])) :
    t'.namesIn place = t.namesIn place := by
  have members : ∀ name, name ∈ t'.namesIn place ↔ name ∈ t.namesIn place := fun name => by
    rw [mem_namesIn, mem_namesIn, same]
  simp only [namesIn, Text.mem_sort] at members ⊢
  exact Text.sort_eq_of_mem_iff (nodup_distinct _) (nodup_distinct _) members

theorem leavesBelow_eq (t : FileTree) (place : Place) :
    t.leavesBelow place = (t.leavesIn place).map (fun name => place ++ [name]) ++
      (t.directoriesIn place).flatMap fun name => t.leavesBelow (place ++ [name]) := by
  conv => lhs; rw [leavesBelow]
  congr 1
  simp

/-- What is listed below a directory stands there. -/
theorem stands_of_mem_leavesBelow {place leaf : Place} (member : leaf ∈ t.leavesBelow place) :
    place <+: leaf ∧ t.node? leaf ≠ none := by
  induction place using leavesBelow.induct t with
  | case1 place ih =>
    rw [leavesBelow_eq] at member
    rcases List.mem_append.mp member with here | deeper
    · obtain ⟨name, inside, rfl⟩ := List.mem_map.mp here
      exact ⟨List.prefix_append _ _, mem_namesIn.mp (List.mem_filter.mp inside).1⟩
    · obtain ⟨name, inside, below⟩ := List.mem_flatMap.mp deeper
      obtain ⟨above, stands⟩ := ih ⟨name, inside⟩ below
      exact ⟨(List.prefix_append _ _).trans above, stands⟩

/-- Whether a link below a directory leads to a place where nothing stands. -/
def Leads (t : FileTree) (directory missing : Place) : Prop :=
  ∃ place, directory <+: place ∧ t.node? place ≠ none ∧
    t.missingAt? ⟨.root, []⟩ ("/" ++ String.intercalate "/" place) = some missing

/-- Where each entry leads to something, no link leads to a missing place. -/
theorem not_leads_of_all {t : FileTree} {directory missing : Place} (below : directory ≠ [])
    (each : (t.nodes.all fun entry =>
      (t.missingAt? ⟨.root, []⟩ ("/" ++ String.intercalate "/" entry.1)).isNone) = true) :
    ¬ t.Leads directory missing := by
  rintro ⟨place, above, stands, found⟩
  have some_name : place ≠ [] := by
    rintro rfl
    exact below (List.prefix_nil.mp above)
  rw [ne_eq, node?_eq_none_iff some_name] at stands
  push Not at stands
  obtain ⟨entry, member, rfl⟩ := stands
  have nothing := List.all_eq_true.mp each entry member
  rw [found] at nothing
  cases nothing

theorem statusAt_agree (agree : t.Agree fresh t') (absent : t.node? fresh = none)
    (unlinked : ¬ t.Leads directory fresh) {place : Place} (below : directory <+: place)
    (stands : t.node? place ≠ none) : t'.statusAt place = t.statusAt place := by
  have outside : ¬ fresh <+: (⟨.root, []⟩ : Path).names := by
    intro above
    rw [List.prefix_nil.mp above] at absent
    cases absent
  rw [statusAt, statusAt, status_agree agree absent outside fun found =>
    unlinked ⟨place, below, stands, found⟩]

/-- What is below a directory is not below a place where nothing stands, unless the directory is
above that place. -/
theorem Sound.aside (sound : t.Sound) (absent : t.node? fresh = none)
    (stands : t.node? directory ≠ none) (apart : ¬ directory <+: fresh) :
    ∀ place, directory <+: place → ¬ fresh <+: place := by
  intro place below beyond
  rcases List.prefix_or_prefix_of_prefix below beyond with above | under
  · exact apart above
  · exact stands (sound.absent_below absent under)

section Aside

variable (agree : t.Agree fresh t') (absent : t.node? fresh = none)
  (aside : ∀ place, directory <+: place → ¬ fresh <+: place)
  (unlinked : ¬ t.Leads directory fresh) {place : Place} (below : directory <+: place)

include agree aside below

theorem node?_child_agree (name : String) :
    t'.node? (place ++ [name]) = t.node? (place ++ [name]) :=
  agree _ (aside _ (below.trans (List.prefix_append _ _)))

theorem directoriesIn_agree : t'.directoriesIn place = t.directoriesIn place := by
  have same := node?_child_agree agree aside below
  simp only [directoriesIn, namesIn_agree same, same]

include absent unlinked

theorem leavesIn_agree : t'.leavesIn place = t.leavesIn place := by
  rw [leavesIn, leavesIn, namesIn_agree (node?_child_agree agree aside below)]
  apply List.filter_congr
  intro name member
  rw [leadsToDirectory, leadsToDirectory, statusAt_agree agree absent unlinked
    (below.trans (List.prefix_append _ _)) (mem_namesIn.mp member)]

theorem leavesBelow_agree : t'.leavesBelow place = t.leavesBelow place := by
  induction place using leavesBelow.induct t with
  | case1 place ih =>
    rw [leavesBelow_eq, leavesBelow_eq, leavesIn_agree agree absent aside unlinked below,
      directoriesIn_agree agree aside below]
    congr 1
    apply List.flatMap_congr
    intro name member
    exact ih ⟨name, member⟩ (below.trans (List.prefix_append _ _))

end Aside

theorem regular_agree {path : Path} {depth : Nat} {places : List Place}
    (same : ∀ place ∈ places, t'.statusAt place = t.statusAt place) :
    t'.regular path depth places = t.regular path depth places := by
  induction places with
  | nil => rfl
  | cons place rest ih =>
    have later := ih fun other member => same other (List.mem_cons_of_mem _ member)
    rw [regular, regular, same place List.mem_cons_self, later]

/-- The files of a directory are the same after a change that is apart from it and that no link
below it leads to. -/
theorem files_agree (agree : t.Agree fresh t') (absent : t.node? fresh = none)
    {workingDirectory path : Path} (outside : ¬ fresh <+: workingDirectory.names)
    (stands : t.status workingDirectory path.text = .ok (directory, .directory))
    (passes : t.missingAt? workingDirectory path.text ≠ some fresh)
    (aside : ∀ place, directory <+: place → ¬ fresh <+: place)
    (unlinked : ¬ t.Leads directory fresh) :
    t'.files workingDirectory path = t.files workingDirectory path := by
  have leaves := leavesBelow_agree agree absent aside unlinked List.prefix_rfl
  rw [files, files, status_agree agree absent outside passes, stands]
  simp only [leaves]
  refine congrArg (ite _ · _) (regular_agree fun place member => ?_)
  obtain ⟨below, there⟩ := stands_of_mem_leavesBelow member
  exact statusAt_agree agree absent unlinked below there

end Classpath.FileTree
