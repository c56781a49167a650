import Classpath.Proofs.Graph.Summary
import Mathlib.Data.Finmap

/-! # A class graph is a pair of maps

What has been said about some classes is a catalog: a map from each class to the classes that it
refers to, and a map from each located class to the place last given for it. A graph that is updated
from nothing answers every question as the catalog of its updates does
(`Classpath.Graph.answersAs_of_updates`), and its counts are those of its listing
(`Classpath.Graph.WellFormed.countsOf_rows`). The numbers of the classes show in no answer.
-/

namespace Classpath

/-- What has been said about some classes. -/
structure Catalog where
  /-- What each class refers to. -/
  dependencies : Finmap fun _ : String => Finset String
  /-- The place last given for each located class. -/
  places : Finmap fun _ : String => Location

namespace Catalog

/-- Nothing has been said. -/
def empty : Catalog := ⟨∅, ∅⟩

/-- What a class refers to. -/
def dependenciesOf (c : Catalog) (name : String) : Finset String :=
  (c.dependencies.lookup name).getD ∅

/-- Mention a class. -/
def mention (c : Catalog) (name : String) : Catalog :=
  { c with dependencies := c.dependencies.insert name (c.dependenciesOf name) }

/-- Place a class, wherever it was placed before. -/
def place (c : Catalog) (name : String) (l : Location) : Catalog :=
  { c with places := c.places.insert name l }

/-- Let a class refer to another. -/
def refer (c : Catalog) (source target : String) : Catalog :=
  let c := (c.mention source).mention target
  { c with
    dependencies := c.dependencies.insert source (insert target (c.dependenciesOf source)) }

/-- The places of all located classes. -/
def locations (c : Catalog) : Finset Location :=
  c.places.keys.biUnion fun name => (c.places.lookup name).toFinset

/-- The listing of a catalog: its classes in order, each with its place and, in order, what it
refers to. -/
noncomputable def listing (c : Catalog) : List Graph.Listing :=
  (Text.sort c.dependencies.keys.toList).map fun name =>
    ⟨.text name, c.places.lookup name, (Text.sort (c.dependenciesOf name).toList).map .text⟩

/-! ## What an update says -/

variable {c : Catalog}

theorem mem_mention {name other : String} :
    other ∈ (c.mention name).dependencies ↔ other ∈ c.dependencies ∨ other = name := by
  rw [mention, Finmap.mem_insert, or_comm]

theorem dependenciesOf_insert (name : String) (targets : Finset String)
    (places : Finmap fun _ : String => Location) (other : String) :
    dependenciesOf ⟨c.dependencies.insert name targets, places⟩ other =
      if other = name then targets else c.dependenciesOf other := by
  unfold dependenciesOf
  split
  next same => rw [same, Finmap.lookup_insert, Option.getD_some]
  next different => rw [Finmap.lookup_insert_of_ne _ different]

@[simp] theorem dependenciesOf_mention (name other : String) :
    (c.mention name).dependenciesOf other = c.dependenciesOf other := by
  rw [mention, dependenciesOf_insert]
  split
  next same => rw [same]
  next => rfl

theorem mem_refer {source target name : String} :
    name ∈ (c.refer source target).dependencies ↔
      name ∈ c.dependencies ∨ name = source ∨ name = target := by
  rw [refer, Finmap.mem_insert, mem_mention, mem_mention]
  tauto

theorem mem_dependenciesOf_refer {source target name other : String} :
    other ∈ (c.refer source target).dependenciesOf name ↔
      other ∈ c.dependenciesOf name ∨ (name = source ∧ other = target) := by
  unfold refer
  dsimp only
  rw [dependenciesOf_insert]
  split
  next same => simp [same, or_comm]
  next different => simp [different]

theorem mem_locations {l : Location} :
    l ∈ c.locations ↔ ∃ name, c.places.lookup name = some l := by
  simp only [locations, Finset.mem_biUnion, Option.mem_toFinset, Option.mem_def]
  refine ⟨fun ⟨name, _, found⟩ => ⟨name, found⟩, fun ⟨name, found⟩ => ⟨name, ?_, found⟩⟩
  exact Finmap.mem_keys.mpr (Finmap.mem_of_lookup_eq_some found)

end Catalog

namespace Graph

/-! ## Updates -/

/-- An update of a class graph. -/
inductive Update where
  /-- A class, with a location if one is given. -/
  | addClass (name : String) (spelling : Option Location.Spelling)
  | addDependency (source target : String)

/-- Update a graph, unless the update is refused. -/
def update (workingDirectory : Path) (g : Graph) : Update → Except Fault Graph
  | .addClass name spelling =>
    match g.addClass workingDirectory (.text name) spelling with
    | (g, none) => .ok g
    | (_, some fault) => .error fault
  | .addDependency source target => .ok (g.addDependency (.text source) (.text target))

end Graph

/-- What an update says. A spelling that stands for no location says nothing about the place. -/
def Catalog.update (workingDirectory : Path) (c : Catalog) : Graph.Update → Catalog
  | .addClass name spelling =>
    match spelling.bind fun spelling => (Location.of workingDirectory spelling).toOption with
    | some l => (c.mention name).place name l
    | none => c.mention name
  | .addDependency source target => c.refer source target

namespace Graph

/-- The graph has what the catalog says. -/
structure Has (g : Graph) (c : Catalog) : Prop where
  formed : g.WellFormed
  classes : ∀ name, .text name ∈ g.names ↔ name ∈ c.dependencies
  dependencies : ∀ source target,
    .text target ∈ g.dependencies (.text source) ↔ target ∈ c.dependenciesOf source
  location : ∀ name, g.location? (.text name) = c.places.lookup name

variable {g next : Graph} {c : Catalog} {workingDirectory : Path}

theorem has_empty : empty.Has .empty where
  formed := wellFormed_empty
  classes name := by simp [empty, names, Catalog.empty, Finmap.notMem_empty]
  dependencies source target := by
    simp [empty, dependencies, number?, Catalog.empty, Catalog.dependenciesOf]
  location name := by simp [empty, location?, Catalog.empty]

theorem Has.mention (has : g.Has c) (name : String) :
    (g.insert (.text name)).Has (c.mention name) where
  formed := has.formed.insert name
  classes other := by
    rw [mem_names_insert has.formed, has.classes, Catalog.mem_mention, Name.text.injEq]
  dependencies source target := by
    rw [mem_dependencies_insert has.formed, has.dependencies, Catalog.dependenciesOf_mention]
  location other := by rw [location?_insert, has.location]; rfl

theorem Has.place (has : g.Has c) {name : String} (known : .text name ∈ g.names) (l : Location) :
    (g.locate (.text name) l).Has (c.place name l) where
  formed := has.formed.locate known l
  classes other := by rw [names_locate, has.classes]; rfl
  dependencies source target := by rw [dependencies_locate, has.dependencies]; rfl
  location other := by
    rw [location?_locate has.formed known, has.location, Catalog.place]
    split
    next same => rw [same, Finmap.lookup_insert]
    next other => rw [Finmap.lookup_insert_of_ne _ other]

theorem Has.refer (has : g.Has c) (source target : String) :
    (g.addDependency (.text source) (.text target)).Has (c.refer source target) where
  formed := has.formed.addDependency source target
  classes name := by
    rw [mem_names_addDependency has.formed, has.classes, Catalog.mem_refer, Name.text.injEq,
      Name.text.injEq]
  dependencies name other := by
    rw [mem_dependencies_addDependency has.formed, has.dependencies,
      Catalog.mem_dependenciesOf_refer, Name.text.injEq]
  location name := by rw [location?_addDependency, has.location]; rfl

/-- An update that is not refused does to the graph what it says. -/
theorem Has.update (has : g.Has c) {u : Update}
    (accepted : g.update workingDirectory u = .ok next) :
    next.Has (c.update workingDirectory u) := by
  cases u with
  | addClass name spelling =>
    have named := has.mention name
    cases spelling with
    | none =>
      cases accepted
      exact named
    | some spelling =>
      unfold Graph.update addClass at accepted
      cases found : Location.of workingDirectory spelling with
      | error fault =>
        simp only [found] at accepted
        cases accepted
      | ok l =>
        simp only [found] at accepted
        cases accepted
        have known := (mem_names_insert has.formed (s := name)).mpr (Or.inr rfl)
        simpa only [Catalog.update, Option.bind_some, found, Except.toOption] using
          named.place known l
  | addDependency source target =>
    cases accepted
    exact has.refer source target

/-- Updates none of which is refused do to the graph what they say. -/
theorem Has.updates {us : List Update} (has : g.Has c)
    (accepted : us.foldlM (Graph.update workingDirectory) g = .ok next) :
    next.Has (us.foldl (Catalog.update workingDirectory) c) := by
  induction us generalizing g c with
  | nil =>
    cases accepted
    exact has
  | cons u rest ih =>
    rw [List.foldlM_cons] at accepted
    cases first : g.update workingDirectory u with
    | error fault =>
      rw [first] at accepted
      cases accepted
    | ok between =>
      rw [first] at accepted
      exact ih (has.update first) accepted

/-! ## Answers -/

/-- A graph answers every question as a catalog does, and its numbers are in order. -/
structure AnswersAs (g : Graph) (c : Catalog) : Prop where
  /-- The two maps of the numbers are inverse to each other. -/
  inverse : ∀ name i, g.number? (.text name) = some i ↔ g.class? i = some (.text name)
  /-- The numbers of the classes are the nodes. -/
  nodes : ∀ i, (g.class? i).isSome = true ↔ i < g.counts.classes
  ends : ∀ edge ∈ g.edges, edge.1 < g.counts.classes ∧ edge.2 < g.counts.classes
  located : ∀ entry ∈ g.located, g.contains entry.1 = true
  contains : ∀ name, g.contains (.text name) = true ↔ name ∈ c.dependencies
  dependencies : ∀ name,
    (g.dependencies (.text name)).Perm ((c.dependenciesOf name).toList.map .text)
  location : ∀ name, g.location? (.text name) = c.places.lookup name
  classes : g.names.Perm (c.dependencies.keys.toList.map .text)
  locations : g.locations.Perm c.locations.toList
  listing : g.listing = .ok c.listing
  counts : CountsOf g.counts c.listing

section Has

variable (has : g.Has c)
include has

theorem Has.mem_texts {name : String} : name ∈ Name.texts g.names ↔ name ∈ c.dependencies.keys := by
  rw [Name.mem_texts, has.classes, Finmap.mem_keys]

theorem Has.nodup_texts : (Name.texts g.names).Nodup :=
  Name.nodup_texts has.formed.texts has.formed.numbered.named

/-- The classes are those of the catalog. -/
theorem Has.perm_texts : (Name.texts g.names).Perm c.dependencies.keys.toList :=
  (List.perm_ext_iff_of_nodup has.nodup_texts (Finset.nodup_toList _)).mpr fun _ => by
    rw [has.mem_texts, Finset.mem_toList]

/-- What a class refers to is what the catalog says. -/
theorem Has.perm_dependencies (name : String) :
    (Name.texts (g.dependencies (.text name))).Perm (c.dependenciesOf name).toList := by
  refine (List.perm_ext_iff_of_nodup ?_ (Finset.nodup_toList _)).mpr fun other => ?_
  · exact Name.nodup_texts (textual_dependencies has.formed name) (nodup_dependencies has.formed _)
  · rw [Name.mem_texts, has.dependencies, Finset.mem_toList]

theorem Has.perm_locations : g.locations.Perm c.locations.toList := by
  have apart : g.locations.Nodup := nodup_distinct _
  refine (List.perm_ext_iff_of_nodup apart (Finset.nodup_toList _)).mpr fun l => ?_
  rw [has.formed.mem_locations, Finset.mem_toList, Catalog.mem_locations]
  constructor
  · rintro ⟨s, -, found⟩
    exact ⟨s, has.location s ▸ found⟩
  · rintro ⟨s, found⟩
    rw [← has.location] at found
    have key : Name.text s ∈ g.located.map Prod.fst := by
      rw [location?, nameFor_text] at found
      exact List.mem_map.mpr ⟨_, (lookup_eq_some_iff_mem has.formed.placesApart).mp found, rfl⟩
    obtain ⟨entry, member, same⟩ := List.mem_map.mp key
    exact ⟨s, Name.mem_texts.mpr (same ▸ has.formed.places entry member), found⟩

theorem Has.listing_eq : (Text.sort (Name.texts g.names)).map g.row = c.listing := by
  rw [Catalog.listing, Text.sort_eq_of_perm has.perm_texts]
  refine List.map_congr_left fun name _ => ?_
  rw [row, has.location, Text.sort_eq_of_perm (has.perm_dependencies name)]

/-- A graph that has what a catalog says answers as the catalog does. -/
theorem Has.answersAs : g.AnswersAs c := by
  have formed := has.formed
  have numbered := formed.numbered
  have nodes : g.counts.classes = g.names.length := by
    rw [counts, length_classes numbered, names, List.length_map]
  refine ⟨fun name i => ?_, fun i => ?_, fun edge member => ?_, fun entry member => ?_,
    fun name => ?_, fun name => ?_, has.location, ?_, has.perm_locations, ?_, ?_⟩
  · rw [number?_eq_some_iff numbered, class?_eq numbered]
  · rw [class?_eq numbered, nodes, isSome_getElem?]
  · rw [nodes]
    exact formed.ends edge member
  · obtain ⟨s, same⟩ := formed.texts _ (formed.places entry member)
    rw [same, contains_iff numbered, ← same]
    exact formed.places entry member
  · rw [contains_iff numbered, has.classes]
  · rw [← Name.map_text_texts (textual_dependencies formed name)]
    exact (has.perm_dependencies name).map _
  · rw [← Name.map_text_texts formed.texts]
    exact has.perm_texts.map _
  · rw [formed.listing_eq, has.listing_eq]
  · rw [← has.listing_eq]
    exact formed.countsOf_rows

end Has

/-- **A class graph is a pair of maps.** After any updates none of which is refused, a graph answers
every question as the catalog of the updates does. -/
theorem answersAs_of_updates {us : List Update}
    (accepted : us.foldlM (update workingDirectory) empty = .ok g) :
    g.AnswersAs (us.foldl (Catalog.update workingDirectory) .empty) :=
  (has_empty.updates accepted).answersAs

/-- A dependency that is added twice, a class that refers to itself, one that is placed twice and one
that nothing touches. -/
theorem answersAs_of_updates_twice :
    let us : List Update :=
      [.addDependency "A" "B", .addClass "B" (some (.value (.text "/x.jar"))),
        .addDependency "B" "B", .addDependency "A" "B", .addClass "C" none,
        .addClass "B" (some (.path ⟨.root, ["y.jar"]⟩)), .addClass "B" none]
    ∃ g, us.foldlM (update ⟨.root, ["work"]⟩) empty = .ok g ∧
      g.AnswersAs (us.foldl (Catalog.update ⟨.root, ["work"]⟩) .empty) ∧
      g.counts = ⟨3, 2, 1, 2, [("file", 1)], 1⟩ := by
  intro us
  have counted : (us.foldlM (update ⟨.root, ["work"]⟩) empty).toOption.map Graph.counts =
      some ⟨3, 2, 1, 2, [("file", 1)], 1⟩ := by
    decide +kernel
  cases accepted : us.foldlM (update ⟨.root, ["work"]⟩) empty with
  | error fault =>
    rw [accepted] at counted
    cases counted
  | ok g =>
    rw [accepted] at counted
    exact ⟨g, rfl, answersAs_of_updates accepted, Option.some.inj counted⟩

end Graph

end Classpath
