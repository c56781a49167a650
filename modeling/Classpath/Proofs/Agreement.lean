import Classpath.Proofs.Resolution
import Classpath.Proofs.Snapshot.Document

/-! # Answers that are alike

Answers are alike when they differ in order and repeats only. They know the same classes, and roots
that are the same as a set make the same classes count (`Classpath.Answers.Alike.visited_iff`). So
resolutions in the graphs of such answers agree (`Classpath.Graph.Shows.agrees`): they keep and
exclude the same locations, visit as many classes and skip the same roots, each of them in its own
order.
-/

namespace Classpath

open Relation

namespace Answers.Alike

variable {a b : Answers} {roots roots' : List String}

protected theorem symm (alike : a.Alike b) : b.Alike a where
  classes name := (alike.classes name).symm
  dependencies source member target :=
    (alike.dependencies source ((alike.classes source).mpr member) target).symm
  location name member := (alike.location name ((alike.classes name).mpr member)).symm

theorem refers_iff (alike : a.Alike b) {source target : String} :
    a.Refers source target ↔ b.Refers source target :=
  ⟨fun ⟨member, refers⟩ =>
      ⟨(alike.classes source).mp member, (alike.dependencies source member target).mp refers⟩,
    fun ⟨member, refers⟩ =>
      ⟨(alike.classes source).mpr member, (alike.symm.dependencies source member target).mp refers⟩⟩

theorem known_iff (alike : a.Alike b) {name : String} : a.Known name ↔ b.Known name :=
  or_congr (alike.classes name) (exists_congr fun _ => alike.refers_iff)

theorem refers_eq (alike : a.Alike b) : a.Refers = b.Refers := by
  funext source target
  exact propext alike.refers_iff

/-- The same roots make the same classes count. -/
theorem visited_iff (alike : a.Alike b) (same : ∀ root, root ∈ roots ↔ root ∈ roots')
    {name : String} : a.Visited roots name ↔ b.Visited roots' name := by
  have none : roots = [] ↔ roots' = [] := by
    simp only [List.eq_nil_iff_forall_not_mem, same]
  simp only [Visited, none, alike.known_iff, same, alike.refers_eq]

theorem found_iff (alike : a.Alike b) (same : ∀ root, root ∈ roots ↔ root ∈ roots')
    {l : Location} : a.Found roots l ↔ b.Found roots' l := by
  refine exists_congr fun name => ?_
  rw [alike.visited_iff same]
  refine ⟨fun ⟨member, visited, located⟩ => ?_, fun ⟨member, visited, located⟩ => ?_⟩
  · exact ⟨(alike.classes name).mp member, visited, (alike.location name member).symm.trans located⟩
  · exact ⟨(alike.classes name).mpr member, visited,
      (alike.symm.location name member).symm.trans located⟩

end Answers.Alike

/-! ## Selections -/

theorem Location.excluded_iff {exclusions exclusions' : List String}
    (same : ∀ pattern, pattern ∈ exclusions ↔ pattern ∈ exclusions') (l : Location) :
    l.Excluded exclusions ↔ l.Excluded exclusions' := by
  simp only [Excluded, same]

namespace Selection

variable {locations locations' : List Location} {exclusions exclusions' : List String}

theorem perm_kept (same : ∀ l, l ∈ locations ↔ l ∈ locations')
    (patterns : ∀ pattern, pattern ∈ exclusions ↔ pattern ∈ exclusions') :
    (Selection.of locations exclusions).kept.Perm (Selection.of locations' exclusions').kept := by
  refine (List.perm_ext_iff_of_nodup nodup_kept nodup_kept).mpr fun l => ?_
  rw [mem_kept_iff, mem_kept_iff, same, Location.excluded_iff patterns]

theorem perm_excluded (same : ∀ l, l ∈ locations ↔ l ∈ locations')
    (patterns : ∀ pattern, pattern ∈ exclusions ↔ pattern ∈ exclusions') :
    (Selection.of locations exclusions).excluded.Perm
      (Selection.of locations' exclusions').excluded := by
  refine (List.perm_ext_iff_of_nodup nodup_excluded nodup_excluded).mpr fun l => ?_
  rw [mem_excluded_iff, mem_excluded_iff, same, Location.excluded_iff patterns]

end Selection

/-- Two resolutions differ in order and repeats only. -/
structure Resolution.Agrees (r r' : Resolution) : Prop where
  kept : r.selection.kept.Perm r'.selection.kept
  excluded : r.selection.excluded.Perm r'.selection.excluded
  visited : r.closure.visited.length = r'.closure.visited.length
  skipped : ∀ name, name ∈ r.closure.skippedRoots ↔ name ∈ r'.closure.skippedRoots

namespace Graph.Shows

variable {g h : Graph} {a b : Answers} {roots roots' exclusions exclusions' : List String}

/-- Resolutions of the same roots and exclusions agree in the graphs of answers that are alike. -/
theorem agrees (shows : g.Shows a) (shows' : h.Shows b) (alike : a.Alike b)
    (sameRoots : ∀ root, root ∈ roots ↔ root ∈ roots')
    (samePatterns : ∀ pattern, pattern ∈ exclusions ↔ pattern ∈ exclusions') :
    (Resolution.of g (roots.map .text) exclusions).Agrees
      (Resolution.of h (roots'.map .text) exclusions') := by
  have located : ∀ l, l ∈ (Resolution.reached g (roots.map .text)).locations ↔
      l ∈ (Resolution.reached h (roots'.map .text)).locations := fun l => by
    rw [shows.mem_locations_iff, shows'.mem_locations_iff, alike.found_iff sameRoots]
  refine ⟨Selection.perm_kept located samePatterns, Selection.perm_excluded located samePatterns,
    ?_, fun name => ?_⟩
  · change (Resolution.reached g (roots.map .text)).visited.length =
      (Resolution.reached h (roots'.map .text)).visited.length
    rw [shows.length_visited, shows'.length_visited]
    simp only [alike.visited_iff sameRoots]
  · change name ∈ (Resolution.reached g (roots.map .text)).skippedRoots ↔
      name ∈ (Resolution.reached h (roots'.map .text)).skippedRoots
    rw [shows.skippedRoots_eq, shows'.skippedRoots_eq]
    simp only [List.mem_map, List.mem_filter, sameRoots, alike.known_iff]

end Graph.Shows

/-! ## Order of locations -/

/-- Sorting depends on nothing but which locations are sorted. -/
theorem Location.sort_eq_of_perm {first second : List Location} (perm : first.Perm second) :
    Location.sort first = Location.sort second := by
  refine (((Text.perm_sortOn uri first).trans perm).trans (Text.perm_sortOn uri second).symm)
    |>.eq_of_pairwise (fun l l' _ _ before after => ?_)
    (Text.pairwise_sortOn uri first) (Text.pairwise_sortOn uri second)
  exact congrArg Location.mk (Text.le_antisymm before after)

end Classpath
