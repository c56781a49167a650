import Classpath.Proofs.Action
import Classpath.Proofs.Graph.Sources
import Classpath.Proofs.Traversal
import Classpath.Resolver
import Mathlib.Data.Set.Card

/-! # What a resolution reports

A resolution is told from the answers of its source alone. With roots, the classes that count are
those that a path of at least one step leads to from a known root, so that a root counts only when
something leads to it; without roots every known class counts (`Classpath.Answers.Visited`). The
main statement says that a run ends, and that its outcome parts the locations of these classes by
the exclusions and the scheme (`Classpath.Resolver.run_reports`).
-/

namespace Classpath

open Relation

namespace Answers

variable (a : Answers)

/-- The classes that count for some roots. -/
def Visited (roots : List String) (name : String) : Prop :=
  if roots = [] then a.Known name
  else ∃ root ∈ roots, a.Known root ∧ TransGen a.Refers root name

/-- The locations of the enumerated classes that count. -/
def Found (roots : List String) (l : Location) : Prop :=
  ∃ name ∈ a.classes, a.Visited roots name ∧ a.location name = some l

instance (name : String) : Decidable (a.Known name) :=
  decidable_of_iff (name ∈ a.classes ∨ ∃ source ∈ a.classes, name ∈ a.dependencies source) Iff.rfl

end Answers

/-- An exclusion that is not empty occurs in one of the forms of the location. -/
def Location.Excluded (l : Location) (exclusions : List String) : Prop :=
  ∃ pattern ∈ exclusions, pattern ≠ "" ∧ ∃ form ∈ l.forms, pattern.toList <:+: form.toList

/-- What a run that packs nothing reports of these answers: the locations that count, parted by the
exclusions and the scheme and none of them twice, how many classes count, and the roots that are not
known, as they were given. -/
structure Outcome.Reports (o : Outcome) (a : Answers) (request : Request) : Prop where
  locations : ∀ l, l ∈ o.locations ↔
    a.Found request.roots l ∧ ¬ l.Excluded request.exclusions ∧ l.scheme = Location.fileScheme
  locationsApart : o.locations.Nodup
  excluded : ∀ l, l ∈ o.excluded ↔ a.Found request.roots l ∧ l.Excluded request.exclusions
  excludedApart : o.excluded.Nodup
  visitedClasses : o.visitedClasses = Set.ncard {name | a.Visited request.roots name}
  skippedRoots : o.skippedRoots = (request.roots.filter fun root => ¬ a.Known root).map .text
  archivesCreated : o.archivesCreated = []

/-! ## Classes that count -/

namespace Graph.Shows

variable {g : Graph} {a : Answers}

theorem contains_iff (shows : g.Shows a) (name : String) :
    g.contains (.text name) = true ↔ a.Known name := by
  rw [Graph.contains_iff shows.formed.numbered, shows.names]

/-- Paths in the graph are paths of the answers. -/
theorem transGen_iff (shows : g.Shows a) {source : String} {target : Name} :
    TransGen (fun source target => target ∈ g.dependencies source) (.text source) target ↔
      ∃ name, target = .text name ∧ TransGen a.Refers source name := by
  constructor
  · intro path
    induction path with
    | single refers =>
      obtain ⟨name, rfl, step⟩ := (shows.dependencies _ _).mp refers
      exact ⟨name, rfl, .single step⟩
    | tail _ refers ih =>
      obtain ⟨middle, rfl, before⟩ := ih
      obtain ⟨name, rfl, step⟩ := (shows.dependencies _ _).mp refers
      exact ⟨name, rfl, before.tail step⟩
  · rintro ⟨name, rfl, path⟩
    exact path.lift Name.text fun source target step =>
      (shows.dependencies _ _).mpr ⟨target, rfl, step⟩

/-- The classes that a resolution visits are those that count. -/
theorem mem_visited_iff (shows : g.Shows a) (roots : List String) {name : Name} :
    name ∈ (Resolution.reached g (roots.map .text)).visited ↔
      ∃ c, name = .text c ∧ a.Visited roots c := by
  unfold Resolution.reached Answers.Visited
  by_cases none : roots = []
  · subst none
    simp only [List.map_nil, List.isEmpty_nil, ↓reduceIte]
    constructor
    · intro member
      obtain ⟨c, rfl⟩ := shows.formed.texts name member
      exact ⟨c, rfl, (shows.names c).mp member⟩
    · rintro ⟨c, rfl, known⟩
      exact (shows.names c).mpr known
  · simp only [List.isEmpty_map, List.isEmpty_iff, none, ↓reduceIte]
    rw [mem_visited_closure shows.formed.numbered]
    constructor
    · rintro ⟨root, given, contained, path⟩
      obtain ⟨c, member, rfl⟩ := List.mem_map.mp given
      obtain ⟨d, rfl, steps⟩ := shows.transGen_iff.mp path
      exact ⟨d, rfl, c, member, (shows.contains_iff c).mp contained, steps⟩
    · rintro ⟨d, rfl, c, member, known, steps⟩
      exact ⟨.text c, List.mem_map_of_mem member, (shows.contains_iff c).mpr known,
        shows.transGen_iff.mpr ⟨d, rfl, steps⟩⟩

theorem nodup_visited (shows : g.Shows a) (roots : List Name) :
    (Resolution.reached g roots).visited.Nodup := by
  unfold Resolution.reached
  split
  · exact shows.formed.numbered.named
  · exact nodup_visited_closure

/-- As many classes are visited as count. -/
theorem length_visited (shows : g.Shows a) (roots : List String) :
    (Resolution.reached g (roots.map .text)).visited.length =
      Set.ncard {name | a.Visited roots name} := by
  have same : Name.text '' {name | a.Visited roots name} =
      ↑(Resolution.reached g (roots.map .text)).visited.toFinset := by
    ext name
    rw [List.coe_toFinset, Set.mem_ofPred_eq, shows.mem_visited_iff]
    simp [eq_comm, and_comm]
  rw [← Set.ncard_image_of_injective _ fun _ _ => Name.text.inj, same, Set.ncard_coe_finset,
    List.toFinset_card_of_nodup (shows.nodup_visited _)]

theorem location?_eq_some_iff (shows : g.Shows a) {name : String} {l : Location} :
    g.location? (.text name) = some l ↔ name ∈ a.classes ∧ a.location name = some l := by
  rw [shows.location]
  split <;> simp_all

/-- The locations of a closure are those of the classes that count. -/
theorem mem_locations_iff (shows : g.Shows a) (roots : List String) {l : Location} :
    l ∈ (Resolution.reached g (roots.map .text)).locations ↔ a.Found roots l := by
  have found : (∃ name, name ∈ (Resolution.reached g (roots.map .text)).visited ∧
      g.location? name = some l) ↔ a.Found roots l := by
    constructor
    · rintro ⟨name, visited, resides⟩
      obtain ⟨c, rfl, counts⟩ := (shows.mem_visited_iff roots).mp visited
      obtain ⟨enumerated, located⟩ := shows.location?_eq_some_iff.mp resides
      exact ⟨c, enumerated, counts, located⟩
    · rintro ⟨c, enumerated, counts, located⟩
      exact ⟨.text c, (shows.mem_visited_iff roots).mpr ⟨c, rfl, counts⟩,
        shows.location?_eq_some_iff.mpr ⟨enumerated, located⟩⟩
  rw [← found]
  unfold Resolution.reached
  split
  · change l ∈ distinct (g.located.map Prod.snd) ↔ ∃ name, name ∈ g.names ∧ _
    rw [mem_distinct, List.mem_map]
    constructor
    · rintro ⟨⟨name, _⟩, entry, rfl⟩
      obtain ⟨c, rfl⟩ := shows.formed.texts name (shows.formed.places _ entry)
      refine ⟨.text c, shows.formed.places _ entry, ?_⟩
      rw [location?, nameFor_text, lookup_eq_some_iff_mem shows.formed.placesApart]
      exact entry
    · rintro ⟨name, known, resides⟩
      obtain ⟨c, rfl⟩ := shows.formed.texts name known
      rw [location?, nameFor_text, lookup_eq_some_iff_mem shows.formed.placesApart] at resides
      exact ⟨_, resides, rfl⟩
  · rw [mem_locations_closure shows.formed.numbered]
    simp only [mem_visited_closure shows.formed.numbered]

end Graph.Shows

/-! ## Exclusions -/

theorem Text.occursIn_iff {pattern text : String} :
    Text.occursIn pattern text = true ↔ pattern.toList <:+: text.toList :=
  Text.occurs_iff

theorem Location.matches_iff (l : Location) (exclusions : List String) :
    l.matches exclusions = true ↔ l.Excluded exclusions := by
  simp only [Location.matches, Location.Excluded, List.any_eq_true, List.mem_filter,
    Text.occursIn_iff, Bool.not_eq_true', String.isEmpty_eq_false_iff, and_assoc]

@[simp] theorem Location.sort_nil : Location.sort [] = [] := by
  simp [Location.sort, Text.sortOn]

theorem Location.isLocal_iff (l : Location) : l.isLocal = true ↔ l.scheme = fileScheme := by
  simp [Location.isLocal]

namespace Selection

variable {locations : List Location} {exclusions : List String} {l : Location}

theorem mem_kept_iff : l ∈ (Selection.of locations exclusions).kept ↔
    l ∈ locations ∧ ¬ l.Excluded exclusions ∧ l.scheme = Location.fileScheme := by
  simp only [Selection.of, mem_distinct, List.mem_filter, Bool.and_eq_true, Bool.not_eq_true',
    ← Location.matches_iff, ← Location.isLocal_iff, Bool.not_eq_true]

theorem mem_excluded_iff : l ∈ (Selection.of locations exclusions).excluded ↔
    l ∈ locations ∧ l.Excluded exclusions := by
  simp only [Selection.of, mem_distinct, List.mem_filter, ← Location.matches_iff]

theorem nodup_kept : (Selection.of locations exclusions).kept.Nodup :=
  nodup_distinct _

theorem nodup_excluded : (Selection.of locations exclusions).excluded.Nodup :=
  nodup_distinct _

end Selection

/-! ## The outcome of a run -/

theorem Graph.Shows.skippedRoots_eq {g : Graph} {a : Answers} (shows : g.Shows a)
    (roots : List String) :
    (Resolution.reached g (roots.map .text)).skippedRoots =
      (roots.filter fun root => ¬ a.Known root).map .text := by
  unfold Resolution.reached
  split
  · rename_i none
    obtain rfl : roots = [] := by simpa using none
    rfl
  · rw [Graph.closure_eq, List.filter_map]
    refine congrArg (List.map Name.text) (List.filter_congr fun root _ => ?_)
    rw [Function.comp_apply, Bool.eq_iff_iff, Bool.not_eq_true', ← Bool.not_eq_true,
      shows.contains_iff, decide_eq_true_iff]

/-- What a run that packs nothing tells of a resolution. -/
def Resolution.outcome (resolution : Resolution) : Outcome where
  locations := resolution.selection.kept
  archivesCreated := []
  excluded := resolution.selection.excluded
  skippedRoots := resolution.closure.skippedRoots
  visitedClasses := resolution.closure.visited.length

namespace Resolver

/-- What a run does with a resolution. -/
def conclude (r : Resolver) (request : Request) (resolution : Resolution) : Action Outcome := do
  let kept := resolution.selection.kept
  let locations ← if request.packDirectories then r.packer.pack kept else pure kept
  let created :=
    if request.packDirectories then locations.filter fun l => !kept.contains l else []
  Action.report
    [.resolved locations.length request.roots.length resolution.closure.visited.length]
  return {
    locations
    archivesCreated := Location.sort created
    excluded := resolution.selection.excluded
    skippedRoots := resolution.closure.skippedRoots
    visitedClasses := resolution.closure.visited.length }

/-- A run whose graph is built goes on from the resolution in it. -/
theorem exists_start_run (r : Resolver) {s : Source} {w : Workspace} {g : Graph}
    (built : Graph.ofSource w.workingDirectory s r.sourceName = .ok g) (request : Request) :
    ∃ notices, (r.run s request).start w =
      (r.conclude request (Resolution.of g (request.roots.map .text) request.exclusions)).start
        { w with journal := w.journal ++ notices } := by
  refine ⟨graphNotices (Graph.label s r.sourceName) s g ++
    resolutionNotices (Resolution.of g (request.roots.map .text) request.exclusions)
      (request.exclusions.map .text), ?_⟩
  simp only [run, Action.start_bind, Action.start_get, Action.start_ofFailure, Action.start_report,
    built, List.append_assoc]
  rfl

/-- A run that packs nothing tells of its resolution and changes nothing but the notices. -/
theorem exists_start_unpacked (r : Resolver) {s : Source} {w : Workspace} {g : Graph}
    (built : Graph.ofSource w.workingDirectory s r.sourceName = .ok g) (request : Request)
    (unpacked : request.packDirectories = false) :
    ∃ notices, (r.run s request).start w =
      (.ok (Resolution.of g (request.roots.map .text) request.exclusions).outcome,
        { w with journal := w.journal ++ notices }) := by
  obtain ⟨before, ran⟩ := exists_start_run r built request
  let resolution := Resolution.of g (request.roots.map .text) request.exclusions
  refine ⟨before ++ [.resolved resolution.selection.kept.length request.roots.length
    resolution.closure.visited.length], ran.trans ?_⟩
  simp only [conclude, unpacked, Bool.false_eq_true, ↓reduceIte, Action.start_bind,
    Action.start_pure, Action.start_report, Location.sort_nil, List.append_assoc]
  rfl

/-- **A run reports what its request selects.** When no query of the source fails, a run that packs
nothing ends: its traversal leaves no class to look at, it changes nothing but the notices, and it
reports of the answers what the request asks for. -/
theorem run_reports (r : Resolver) {s : Source} {a : Answers} {w : Workspace}
    (gives : s.Gives w.workingDirectory a) (request : Request)
    (unpacked : request.packDirectories = false) :
    ∃ g o notices,
      Graph.ofSource w.workingDirectory s r.sourceName = .ok g ∧
      (g.finish (request.roots.map .text)).frontier = [] ∧
      (∀ l, l ∈ (Resolution.reached g (request.roots.map .text)).locations ↔
        a.Found request.roots l) ∧
      (r.run s request).start w = (.ok o, { w with journal := w.journal ++ notices }) ∧
      o.Reports a request := by
  obtain ⟨g, built, shows⟩ := Graph.exists_ofSource gives r.sourceName
  let resolution := Resolution.of g (request.roots.map .text) request.exclusions
  have located := fun l => shows.mem_locations_iff request.roots (l := l)
  let notices := graphNotices (Graph.label s r.sourceName) s g ++
    (resolutionNotices resolution (request.exclusions.map .text) ++
      [.resolved resolution.selection.kept.length request.roots.length
        resolution.closure.visited.length])
  let o : Outcome := {
    locations := resolution.selection.kept
    archivesCreated := []
    excluded := resolution.selection.excluded
    skippedRoots := resolution.closure.skippedRoots
    visitedClasses := resolution.closure.visited.length }
  refine ⟨g, o, notices, built, Graph.frontier_finish shows.formed.numbered, located, ?_, ?_⟩
  · unfold run
    simp only [Action.start_bind, Action.start_get, Action.start_ofFailure, Action.start_report,
      Action.start_pure, built, unpacked, Bool.false_eq_true, ↓reduceIte, List.append_assoc,
      Location.sort_nil]
    rfl
  · refine ⟨fun l => ?_, Selection.nodup_kept, fun l => ?_, Selection.nodup_excluded, ?_, ?_, rfl⟩
    · rw [← located]
      exact Selection.mem_kept_iff
    · rw [← located]
      exact Selection.mem_excluded_iff
    · exact shows.length_visited request.roots
    · exact shows.skippedRoots_eq request.roots

/-- Two classes that refer to each other, one of them to itself too, and a root that is not known:
both classes count, and only one of them is located. -/
theorem run_reports_ring :
    let m : Maps :=
      { dependencies := [(.text "a", [.text "b"]), (.text "b", [.text "a", .text "b"])]
        locations := [(.text "b", ⟨"file:///lib/b.jar"⟩)] }
    let request : Request := ⟨["a", "ghost"], ["", "/b."], false⟩
    let w : Workspace := ⟨.empty, ⟨.root, ["w"]⟩, ⟨.root, ["tmp"]⟩, 0, 0, [], []⟩
    m.toSource.Gives w.workingDirectory m.answers ∧ request.packDirectories = false ∧
      ∃ o after, (Resolver.run {} m.toSource request).start w = (.ok o, after) ∧
        o.Reports m.answers request := by
  intro m request w
  have textual : m.Textual := ⟨by simp [m], by simp [m, Name.Textual], by simp [m]⟩
  have gives := Maps.gives_toSource textual w.workingDirectory
  obtain ⟨_, o, _, _, _, _, ran, reports⟩ := run_reports {} gives request rfl
  exact ⟨gives, rfl, o, _, ran, reports⟩

end Resolver

end Classpath
