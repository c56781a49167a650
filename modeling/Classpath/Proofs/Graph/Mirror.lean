import Classpath.Proofs.Agreement
import Classpath.Proofs.Graph.Catalog
import Classpath.Proofs.Location

/-! # A graph mirrors its source

The listing of a graph that is built from a source can be written down from the answers of the
source alone (`Classpath.Answers.listing`), and answers that differ in order and repeats have the
same listing (`Classpath.Answers.Alike.listing_eq`). The numbers of two graphs with one listing may
differ, but no count tells them apart (`Classpath.Graph.WellFormed.looksLike`). So a graph that is
taken as a source gives a graph that looks like it, however it was built
(`Classpath.Graph.ofSource_mirrors`).
-/

namespace Classpath

/-! ## The listing of answers -/

namespace Answers

/-- The classes that are enumerated or referred to by an enumerated one, each once and in order. -/
def knownNames (a : Answers) : List String :=
  Text.sort (distinct (a.classes ++ a.classes.flatMap a.dependencies))

/-- One class in the listing of answers. A class that is not enumerated has neither a location nor
dependencies. -/
def row (a : Answers) (name : String) : Graph.Listing :=
  if name ∈ a.classes then
    ⟨.text name, a.location name, (Text.sort (distinct (a.dependencies name))).map .text⟩
  else ⟨.text name, none, []⟩

/-- The listing of answers. -/
def listing (a : Answers) : List Graph.Listing :=
  a.knownNames.map a.row

variable {a b : Answers}

theorem mem_knownNames {name : String} : name ∈ a.knownNames ↔ a.Known name := by
  rw [knownNames, (Text.perm_sort _).mem_iff, mem_distinct, List.mem_append, List.mem_flatMap]
  rfl

theorem Alike.knownNames_eq (alike : a.Alike b) : a.knownNames = b.knownNames := by
  refine Text.sort_eq_of_mem_iff (nodup_distinct _) (nodup_distinct _) fun name => ?_
  have known : name ∈ a.knownNames ↔ name ∈ b.knownNames := by
    rw [mem_knownNames, mem_knownNames, alike.known_iff]
  rwa [knownNames, knownNames, (Text.perm_sort _).mem_iff, (Text.perm_sort _).mem_iff] at known

theorem Alike.row_eq (alike : a.Alike b) (name : String) : a.row name = b.row name := by
  unfold row
  by_cases enumerated : name ∈ a.classes
  · have dependencies : Text.sort (distinct (a.dependencies name)) =
        Text.sort (distinct (b.dependencies name)) := by
      apply Text.sort_eq_of_mem_iff (nodup_distinct _) (nodup_distinct _)
      intro target
      rw [mem_distinct, mem_distinct, alike.dependencies name enumerated]
    rw [if_pos enumerated, if_pos ((alike.classes name).mp enumerated),
      alike.location name enumerated, dependencies]
  · rw [if_neg enumerated, if_neg fun other => enumerated ((alike.classes name).mpr other)]

/-- The order of the answers and their repeats do not show in their listing. -/
theorem Alike.listing_eq (alike : a.Alike b) : a.listing = b.listing := by
  rw [listing, listing, alike.knownNames_eq]
  exact List.map_congr_left fun name _ => alike.row_eq name

end Answers

/-- The classes that the source names all go by texts. -/
structure Source.Textual (s : Source) : Prop where
  classes : ∀ answer members, s.classes = .ok answer → answer.members? = some members →
    ∃ texts : List String, members = texts.map .text
  dependencies : ∀ name answer members, s.dependencies (.text name) = .ok answer →
    answer.members? = some members → ∃ texts : List String, members = texts.map .text

namespace Graph

variable {g h next : Graph} {a b : Answers} {s : Source} {workingDirectory : Path}
  {label : Option String}

theorem Shows.row_eq (shows : g.Shows a) (name : String) : g.row name = a.row name := by
  have apart : (Name.texts (g.dependencies (.text name))).Nodup :=
    Name.nodup_texts (textual_dependencies shows.formed name) (nodup_dependencies shows.formed _)
  rw [row, shows.location, Answers.row]
  by_cases enumerated : name ∈ a.classes
  · have dependencies : Text.sort (Name.texts (g.dependencies (.text name))) =
        Text.sort (distinct (a.dependencies name)) := by
      apply Text.sort_eq_of_mem_iff apart (nodup_distinct _)
      intro target
      rw [Name.mem_texts, shows.dependencies, mem_distinct]
      simp [Answers.Refers, enumerated]
    rw [if_pos enumerated, if_pos enumerated, dependencies]
  · have dependencies : Name.texts (g.dependencies (.text name)) = [] := by
      apply List.eq_nil_iff_forall_not_mem.mpr
      intro target
      rw [Name.mem_texts, shows.dependencies]
      rintro ⟨_, _, inside, _⟩
      exact enumerated inside
    rw [if_neg enumerated, if_neg enumerated, dependencies, Text.sort, List.mergeSort_nil,
      List.map_nil]

/-- A graph that shows some answers has their listing. -/
theorem Shows.listing_eq_answers (shows : g.Shows a) : g.listing = .ok a.listing := by
  have names : Text.sort (Name.texts g.names) = a.knownNames := by
    apply Text.sort_eq_of_mem_iff
    · exact Name.nodup_texts shows.formed.texts shows.formed.numbered.named
    · exact nodup_distinct _
    · intro name
      rw [Name.mem_texts, shows.names, ← Answers.mem_knownNames, Answers.knownNames,
        (Text.perm_sort _).mem_iff]
  rw [shows.formed.listing_eq, names, Answers.listing]
  exact congrArg Except.ok (List.map_congr_left fun name _ => shows.row_eq name)

/-- A graph shows what it answers as a source. -/
theorem shows_answers (formed : g.WellFormed) : g.Shows g.answers where
  formed := formed
  names name := by rw [(closed_answers formed).known_iff, answers, Name.mem_texts]
  dependencies source target := by
    constructor
    · intro refers
      obtain ⟨name, rfl⟩ := textual_dependencies formed source target refers
      obtain ⟨i, _, _, stands, _⟩ := (mem_dependencies_iff formed.numbered).mp refers
      have enumerated := Name.mem_texts.mpr (List.mem_of_getElem? stands)
      exact ⟨name, rfl, enumerated, Name.mem_texts.mpr refers⟩
    · rintro ⟨name, rfl, -, refers⟩
      exact Name.mem_texts.mp refers
  location name := by
    unfold answers
    split
    next => rfl
    next absent =>
      rw [Option.eq_none_iff_forall_ne_some]
      intro l found
      rw [location?, nameFor_text] at found
      have entry := (lookup_eq_some_iff_mem formed.placesApart).mp found
      exact absent (Name.mem_texts.mpr (formed.places _ entry))

/-! ## Graphs that look alike -/

/-- Two graphs have the same listing and the same counts, wherever the count of a scheme stands. -/
structure LooksLike (g h : Graph) : Prop where
  listing : g.listing = h.listing
  classes : g.counts.classes = h.counts.classes
  dependencies : g.counts.dependencies = h.counts.dependencies
  locations : g.counts.locations = h.counts.locations
  unlocated : g.counts.unlocated = h.counts.unlocated
  schemes : g.counts.schemes.Perm h.counts.schemes
  orphans : g.counts.orphans = h.counts.orphans

/-- No scheme is counted twice. -/
theorem nodup_schemes (g : Graph) : (g.counts.schemes.map (·.1)).Nodup := by
  have keys : g.counts.schemes.map (·.1) = distinct g.schemes := by
    simp only [counts, List.map_map, Function.comp_def, List.map_id', schemes]
  rw [keys]
  exact nodup_distinct _

/-- Counts are told from the listing, so graphs with one listing look alike. -/
theorem WellFormed.looksLike (formed : g.WellFormed) (formed' : h.WellFormed)
    (same : g.listing = h.listing) : g.LooksLike h := by
  have rows : (Text.sort (Name.texts g.names)).map g.row =
      (Text.sort (Name.texts h.names)).map h.row := by
    rw [formed.listing_eq, formed'.listing_eq] at same
    exact Except.ok.inj same
  have mine := formed.countsOf_rows
  have theirs := formed'.countsOf_rows
  rw [← rows] at theirs
  refine ⟨same, ?_, ?_, ?_, ?_, ?_, ?_⟩
  · rw [mine.classes, theirs.classes]
  · rw [mine.dependencies, theirs.dependencies]
  · rw [mine.locations, theirs.locations]
  · rw [mine.unlocated, theirs.unlocated]
  · refine (List.perm_ext_iff_of_nodup g.nodup_schemes.of_map h.nodup_schemes.of_map).mpr ?_
    rintro ⟨scheme, count⟩
    rw [mine.scheme, theirs.scheme]
  · rw [mine.orphans, theirs.orphans]

/-! ## Graphs that have been built -/

/-- A class is added only with an answer that stands for a location or for none. -/
theorem exists_place_of_addClass {name : Name} {spelling : Option Location.Spelling}
    (added : g.addClass workingDirectory name spelling = (next, none)) :
    ∃ place, Location.ofAnswer workingDirectory spelling = .ok place := by
  cases spelling with
  | none => exact ⟨none, rfl⟩
  | some spelling =>
    unfold addClass at added
    cases found : Location.of workingDirectory spelling with
    | error fault =>
      simp only [found] at added
      cases added
    | ok l =>
      refine ⟨some l, ?_⟩
      rw [Location.ofAnswer, found]
      rfl

/-- When the classes of a source have been added, it has said where each of them resides. -/
theorem exists_location_of_addClasses {classes : List String}
    (added : g.addClasses workingDirectory s (classes.map .text) = .ok next) :
    ∀ name ∈ classes, ∃ spelling place, s.location (.text name) = .ok spelling ∧
      Location.ofAnswer workingDirectory spelling = .ok place := by
  induction classes generalizing g with
  | nil => simp
  | cons first rest ih =>
    rw [List.map_cons, addClasses] at added
    obtain ⟨spelling, answered, added⟩ := bind_eq_ok.mp added
    obtain ⟨name, -, added⟩ := bind_eq_ok.mp added
    split at added
    next between accepted =>
      obtain ⟨place, stands⟩ := exists_place_of_addClass accepted
      exact List.forall_mem_cons.mpr ⟨⟨spelling, place, answered, stands⟩, ih added⟩
    next => cases added

/-- When the dependencies of some classes have been added, the source has listed each of them. -/
theorem exists_members_of_addAllDependencies {names : List Name}
    (added : g.addAllDependencies s names = .ok next) :
    ∀ name ∈ names, ∃ answer members, s.dependencies name.toValue = .ok answer ∧
      answer.members? = some members := by
  induction names generalizing g with
  | nil => simp
  | cons first rest ih =>
    rw [addAllDependencies] at added
    obtain ⟨answer, answered, added⟩ := bind_eq_ok.mp added
    split at added
    next => cases added
    next members listed =>
      obtain ⟨between, -, added⟩ := bind_eq_ok.mp added
      exact List.forall_mem_cons.mpr ⟨⟨answer, members, answered, listed⟩, ih added⟩

/-- A source of texts whose graph has been built has answered every query. -/
theorem exists_gives_of_ofSource (textual : s.Textual)
    (built : ofSource workingDirectory s label = .ok g) : ∃ a, s.Gives workingDirectory a := by
  obtain ⟨answer, answered, built⟩ := bind_eq_ok.mp (mapError_eq_ok.mp built)
  split at built
  next => cases built
  next members enumeration =>
    obtain ⟨classes, rfl⟩ := textual.classes answer members answered enumeration
    obtain ⟨first, added, built⟩ := bind_eq_ok.mp built
    have located : ∀ name, ∃ place, name ∈ classes → ∃ spelling,
        s.location (.text name) = .ok spelling ∧
          Location.ofAnswer workingDirectory spelling = .ok place := by
      intro name
      by_cases member : name ∈ classes
      · obtain ⟨spelling, place, both⟩ := exists_location_of_addClasses added name member
        exact ⟨place, fun _ => ⟨spelling, both⟩⟩
      · exact ⟨none, fun inside => absurd inside member⟩
    choose location place using located
    have enumerated : ∀ name ∈ classes, .text name ∈ first.names := by
      obtain ⟨other, same, -, names, -⟩ := exists_addClasses wellFormed_empty place
      cases added.symm.trans same
      exact fun name member => (names _).mpr (Or.inr ⟨name, member, rfl⟩)
    have listed : ∀ name, ∃ targets : List String, name ∈ classes → ∃ answer,
        s.dependencies (.text name) = .ok answer ∧
          answer.members? = some (targets.map .text) := by
      intro name
      by_cases member : name ∈ classes
      · obtain ⟨answer, members, answered, listed⟩ :=
          exists_members_of_addAllDependencies built _ (enumerated name member)
        obtain ⟨targets, rfl⟩ := textual.dependencies name answer members answered listed
        exact ⟨targets, fun _ => ⟨answer, answered, listed⟩⟩
      · exact ⟨[], fun inside => absurd inside member⟩
    choose dependencies targets using listed
    exact ⟨⟨classes, dependencies, location⟩, ⟨answer, answered, enumeration⟩, place, targets⟩

/-- A graph that has been built by operations none of which failed: nothing, the graph of a source
of texts, or an updated graph. The working directory may change between the operations. -/
inductive Built : Graph → Prop
  | empty : Built empty
  | ofSource {workingDirectory : Path} {s : Source} {label : Option String} {g : Graph}
      (textual : s.Textual) (accepted : Graph.ofSource workingDirectory s label = .ok g) : Built g
  | update {workingDirectory : Path} {g next : Graph} {u : Update} (built : Built g)
      (accepted : g.update workingDirectory u = .ok next) : Built next

theorem WellFormed.update (formed : g.WellFormed) {u : Update}
    (accepted : g.update workingDirectory u = .ok next) : next.WellFormed := by
  cases u with
  | addDependency source target =>
    cases accepted
    exact formed.addDependency source target
  | addClass name spelling =>
    have named := formed.insert name
    have known := (mem_names_insert formed (s := name)).mpr (Or.inr rfl)
    unfold Graph.update addClass at accepted
    cases spelling with
    | none =>
      cases accepted
      exact named
    | some spelling =>
      cases found : Location.of workingDirectory spelling with
      | error fault =>
        simp only [found] at accepted
        cases accepted
      | ok l =>
        simp only [found] at accepted
        cases accepted
        exact named.locate known l

theorem Built.formed (built : Built g) : g.WellFormed := by
  induction built with
  | empty => exact wellFormed_empty
  | @ofSource workingDirectory s label g textual accepted =>
    obtain ⟨a, gives⟩ := exists_gives_of_ofSource textual accepted
    obtain ⟨made, same, shows⟩ := exists_ofSource gives label
    rw [accepted] at same
    cases same
    exact shows.formed
  | update _ accepted ih => exact ih.update accepted

/-! ## Building again -/

/-- The source answers as the graph does, in whatever order its classes and what they refer to
come. -/
def IsSource (g : Graph) (workingDirectory : Path) (s : Source) : Prop :=
  ∃ a, s.Gives workingDirectory a ∧ a.Alike g.answers

theorem isSource_toSource (formed : g.WellFormed) (workingDirectory : Path) :
    g.IsSource workingDirectory g.toSource :=
  ⟨g.answers, gives_toSource formed workingDirectory, fun _ => Iff.rfl, fun _ _ _ => Iff.rfl,
    fun _ _ => rfl⟩

/-- Graphs that show answers which are alike look alike. -/
theorem Shows.looksLike (shows : g.Shows a) (shows' : h.Shows b) (alike : a.Alike b) :
    g.LooksLike h := by
  apply shows.formed.looksLike shows'.formed
  rw [shows.listing_eq_answers, shows'.listing_eq_answers, alike.listing_eq]

/-- **A graph mirrors its source.** The graph of a source none of whose queries fails has the
listing of the answers: each enumerated class with its location and its dependencies, each class
that is only referred to with neither. Answers that differ in order and repeats give graphs that
look alike, and a graph that has been built looks like the graph of any source that answers as it
does, itself among them. -/
theorem ofSource_mirrors (gives : s.Gives workingDirectory a) (label : Option String)
    (built : Built g) :
    (∃ made, ofSource workingDirectory s label = .ok made ∧ made.listing = .ok a.listing ∧
      ∀ there other b label', other.Gives there b → b.Alike a →
        ∃ again, ofSource there other label' = .ok again ∧ again.LooksLike made) ∧
      ∀ there, g.IsSource there g.toSource ∧ ∀ other label', g.IsSource there other →
        ∃ again, ofSource there other label' = .ok again ∧ again.LooksLike g := by
  obtain ⟨made, accepted, shows⟩ := exists_ofSource gives label
  refine ⟨⟨made, accepted, shows.listing_eq_answers, ?_⟩, fun there => ⟨?_, ?_⟩⟩
  · intro there other b label' gives' alike
    obtain ⟨again, accepted', shows'⟩ := exists_ofSource gives' label'
    exact ⟨again, accepted', shows'.looksLike shows alike⟩
  · exact isSource_toSource built.formed there
  · rintro other label' ⟨b, gives', alike⟩
    obtain ⟨again, accepted', shows'⟩ := exists_ofSource gives' label'
    exact ⟨again, accepted', shows'.looksLike (shows_answers built.formed) alike⟩

/-- A source that repeats a class and a dependency and refers to a class that it does not enumerate,
beside a graph whose classes came in as the ends of a dependency. -/
theorem ofSource_mirrors_repeats :
    let s : Source :=
      { kind := "Repeats"
        classes := .ok (.list [.text "B", .text "A", .text "B"])
        location := fun name => match name with
          | .text "A" => .ok (some (.value (.text "/x.jar")))
          | _ => .ok none
        dependencies := fun name => match name with
          | .text "A" => .ok (.list [.text "C", .text "B", .text "C"])
          | _ => .ok (.list []) }
    let a : Answers :=
      { classes := ["B", "A", "B"]
        dependencies := fun name => if name = "A" then ["C", "B", "C"] else []
        location := fun name => if name = "A" then some ⟨"file:///x.jar"⟩ else none }
    let g := empty.addDependency (.text "A") (.text "B")
    let root : Path := ⟨.root, []⟩
    s.Gives root a ∧ Built g ∧
      (∃ made, ofSource root s none = .ok made ∧
        made.listing = .ok [⟨.text "A", some ⟨"file:///x.jar"⟩, [.text "B", .text "C"]⟩,
          ⟨.text "B", none, []⟩, ⟨.text "C", none, []⟩]) ∧
      ∃ again, ofSource root g.toSource none = .ok again ∧ again.LooksLike g := by
  intro s a g root
  have gives : s.Gives root a := by
    refine ⟨⟨_, rfl, rfl⟩, ?_, ?_⟩
    · simp only [a, List.forall_mem_cons]
      refine ⟨⟨none, rfl, rfl⟩, ⟨_, rfl, ?_⟩, ⟨none, rfl, rfl⟩, List.forall_mem_nil _⟩
      have found : Location.of root (.value (.text "/x.jar")) = .ok ⟨"file:///x.jar"⟩ :=
        Location.of_text (by decide +kernel)
      rw [Location.ofAnswer, found]
      rfl
    · simp only [a, List.forall_mem_cons]
      exact ⟨⟨_, rfl, rfl⟩, ⟨_, rfl, rfl⟩, ⟨_, rfl, rfl⟩, List.forall_mem_nil _⟩
  have built : Built g :=
    @Built.update root empty g (.addDependency "A" "B") .empty rfl
  obtain ⟨⟨made, accepted, listed, -⟩, again⟩ := ofSource_mirrors gives none built
  obtain ⟨itself, rewrapped⟩ := again root
  have rows : a.listing = [⟨.text "A", some ⟨"file:///x.jar"⟩, [.text "B", .text "C"]⟩,
      ⟨.text "B", none, []⟩, ⟨.text "C", none, []⟩] := by
    cbv
  exact ⟨gives, built, ⟨made, accepted, rows ▸ listed⟩, rewrapped _ none itself⟩

end Graph

end Classpath
