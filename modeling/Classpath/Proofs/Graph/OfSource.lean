import Classpath.Proofs.Action
import Classpath.Proofs.Graph.Update
import Classpath.Source

/-! # The graph of a source

A source none of whose queries fails is described by its answers: the classes it enumerates, what
each of them refers to and where each resides. The graph that is built from such a source shows
exactly these answers (`Classpath.Graph.exists_ofSource`). A class that is only referred to comes in
without location and without dependencies.
-/

namespace Classpath

/-- What a source answers: the classes it enumerates, in any order and with repeats, the classes
that each refers to, and where each resides. -/
structure Answers where
  classes : List String
  dependencies : String → List String
  location : String → Option Location

namespace Answers

/-- An enumerated class refers to another. -/
def Refers (a : Answers) (source target : String) : Prop :=
  source ∈ a.classes ∧ target ∈ a.dependencies source

/-- A class is enumerated or referred to. -/
def Known (a : Answers) (name : String) : Prop :=
  name ∈ a.classes ∨ ∃ source, a.Refers source name

end Answers

/-- The location that an answer of a source stands for, if it gives one. -/
def Location.ofAnswer (workingDirectory : Path) :
    Option Location.Spelling → Except Fault (Option Location)
  | none => .ok none
  | some spelling => (Location.of workingDirectory spelling).map some

/-- No query of the source fails, and these are its answers. A location may be given in any
spelling that stands for it. -/
structure Source.Gives (workingDirectory : Path) (s : Source) (a : Answers) : Prop where
  classes : ∃ answer, s.classes = .ok answer ∧ answer.members? = some (a.classes.map .text)
  location : ∀ name ∈ a.classes, ∃ spelling, s.location (.text name) = .ok spelling ∧
    Location.ofAnswer workingDirectory spelling = .ok (a.location name)
  dependencies : ∀ name ∈ a.classes, ∃ answer, s.dependencies (.text name) = .ok answer ∧
    answer.members? = some ((a.dependencies name).map .text)

namespace Graph

/-- What a graph shows are these answers. -/
structure Shows (g : Graph) (a : Answers) : Prop where
  formed : g.WellFormed
  names : ∀ name, .text name ∈ g.names ↔ a.Known name
  dependencies : ∀ source target,
    target ∈ g.dependencies (.text source) ↔ ∃ name, target = .text name ∧ a.Refers source name
  location : ∀ name,
    g.location? (.text name) = if name ∈ a.classes then a.location name else none

variable {g : Graph} {workingDirectory : Path} {s : Source}

/-! ## Classes and their locations -/

/-- A class is added with the location that its answer stands for. -/
theorem exists_addClass (formed : g.WellFormed) (name : String)
    {spelling : Option Location.Spelling} {place : Option Location}
    (stands : Location.ofAnswer workingDirectory spelling = .ok place) :
    ∃ next, g.addClass workingDirectory (.text name) spelling = (next, none) ∧ next.WellFormed ∧
      (∀ other, other ∈ next.names ↔ other ∈ g.names ∨ other = .text name) ∧
      (∀ source target,
        target ∈ next.dependencies (.text source) ↔ target ∈ g.dependencies (.text source)) ∧
      ∀ other, next.location? (.text other) =
        if other = name then place.or (g.location? (.text other))
        else g.location? (.text other) := by
  have named : ∀ other, other ∈ (g.insert (.text name)).names ↔
      other ∈ g.names ∨ other = .text name :=
    fun other => mem_names_insert formed
  cases spelling with
  | none =>
    obtain rfl : none = place := Except.ok.inj stands
    refine ⟨g.insert (.text name), rfl, formed.insert name, named, ?_, ?_⟩
    · exact fun source target => mem_dependencies_insert formed name source
    · intro other
      simp
  | some spelling =>
    cases found : Location.of workingDirectory spelling with
    | error fault => simp [Location.ofAnswer, found, Except.map] at stands
    | ok l =>
      obtain rfl : some l = place := by simpa [Location.ofAnswer, found, Except.map] using stands
      have known : Name.text name ∈ (g.insert (.text name)).names := (named _).mpr (Or.inr rfl)
      refine ⟨(g.insert (.text name)).locate (.text name) l, ?_, ?_, ?_, ?_, ?_⟩
      · simp [addClass, found]
      · exact (formed.insert name).locate known l
      · intro other
        rw [names_locate]
        exact named other
      · intro source target
        rw [dependencies_locate]
        exact mem_dependencies_insert formed name source
      · intro other
        rw [location?_locate (formed.insert name) known, location?_insert]
        rfl

/-- The classes of a source are added one after another, each with its location. -/
theorem exists_addClasses (formed : g.WellFormed) {classes : List String}
    {location : String → Option Location}
    (gives : ∀ name ∈ classes, ∃ spelling, s.location (.text name) = .ok spelling ∧
      Location.ofAnswer workingDirectory spelling = .ok (location name)) :
    ∃ last, g.addClasses workingDirectory s (classes.map .text) = .ok last ∧ last.WellFormed ∧
      (∀ other, other ∈ last.names ↔ other ∈ g.names ∨ ∃ name ∈ classes, other = .text name) ∧
      (∀ source target,
        target ∈ last.dependencies (.text source) ↔ target ∈ g.dependencies (.text source)) ∧
      ∀ other, last.location? (.text other) =
        if other ∈ classes then (location other).or (g.location? (.text other))
        else g.location? (.text other) := by
  induction classes generalizing g with
  | nil => exact ⟨g, rfl, formed, by simp, by simp, by simp⟩
  | cons name rest ih =>
    obtain ⟨spelling, answered, stands⟩ := gives name List.mem_cons_self
    obtain ⟨next, added, nextFormed, nextNames, nextDependencies, nextLocation⟩ :=
      exists_addClass formed name stands
    obtain ⟨last, built, lastFormed, lastNames, lastDependencies, lastLocation⟩ :=
      ih nextFormed fun other member => gives other (List.mem_cons_of_mem _ member)
    refine ⟨last, ?_, lastFormed, ?_, ?_, ?_⟩
    · rw [List.map_cons, addClasses, answered]
      simp only [Value.asName, asked, Action.mapError_ok, bind, Except.bind, added]
      exact built
    · intro other
      rw [lastNames, nextNames]
      simp [or_assoc]
    · intro source target
      rw [lastDependencies, nextDependencies]
    · intro other
      rw [lastLocation, nextLocation]
      by_cases here : other = name
      · subst here
        cases location other <;> simp
      · simp [here]

/-! ## Dependencies -/

/-- What a class refers to is added one after another. -/
theorem exists_addDependencies (formed : g.WellFormed) {source : String}
    (present : .text source ∈ g.names) (targets : List String) :
    ∃ last, g.addDependencies (.text source) (targets.map .text) = .ok last ∧ last.WellFormed ∧
      (∀ other, other ∈ last.names ↔ other ∈ g.names ∨ ∃ name ∈ targets, other = .text name) ∧
      (∀ other target, target ∈ last.dependencies (.text other) ↔
        target ∈ g.dependencies (.text other) ∨
          other = source ∧ ∃ name ∈ targets, target = .text name) ∧
      ∀ other, last.location? (.text other) = g.location? (.text other) := by
  induction targets generalizing g with
  | nil => exact ⟨g, rfl, formed, by simp, by simp, by simp⟩
  | cons name rest ih =>
    have named : ∀ other, other ∈ (g.addDependency (.text source) (.text name)).names ↔
        other ∈ g.names ∨ other = .text name := by
      intro other
      rw [mem_names_addDependency formed]
      refine ⟨?_, fun either => either.imp_right Or.inr⟩
      rintro (before | rfl | rfl)
      · exact Or.inl before
      · exact Or.inl present
      · exact Or.inr rfl
    obtain ⟨last, built, lastFormed, lastNames, lastDependencies, lastLocation⟩ :=
      ih (formed.addDependency source name) ((named _).mpr (Or.inl present))
    refine ⟨last, built, lastFormed, ?_, ?_, ?_⟩
    · intro other
      rw [lastNames, named, or_assoc]
      simp only [List.mem_cons, exists_eq_or_imp]
    · intro other target
      rw [lastDependencies, mem_dependencies_addDependency formed, or_assoc, ← and_or_left]
      simp only [List.mem_cons, exists_eq_or_imp]
    · intro other
      rw [lastLocation, location?_addDependency]

/-- Each of some classes is asked for what it refers to. -/
theorem exists_addAllDependencies (formed : g.WellFormed) (classes : List String)
    {dependencies : String → List String}
    (gives : ∀ name ∈ classes, ∃ answer, s.dependencies (.text name) = .ok answer ∧
      answer.members? = some ((dependencies name).map .text))
    (present : ∀ name ∈ classes, .text name ∈ g.names) :
    ∃ last, g.addAllDependencies s (classes.map .text) = .ok last ∧ last.WellFormed ∧
      (∀ other, other ∈ last.names ↔ other ∈ g.names ∨
        ∃ source ∈ classes, ∃ name ∈ dependencies source, other = .text name) ∧
      (∀ source target, target ∈ last.dependencies (.text source) ↔
        target ∈ g.dependencies (.text source) ∨
          source ∈ classes ∧ ∃ name ∈ dependencies source, target = .text name) ∧
      ∀ other, last.location? (.text other) = g.location? (.text other) := by
  induction classes generalizing g with
  | nil => exact ⟨g, rfl, formed, by simp, by simp, by simp⟩
  | cons first rest ih =>
    obtain ⟨answer, answered, members⟩ := gives first List.mem_cons_self
    obtain ⟨next, added, nextFormed, nextNames, nextDependencies, nextLocation⟩ :=
      exists_addDependencies formed (present first List.mem_cons_self) (dependencies first)
    obtain ⟨last, built, lastFormed, lastNames, lastDependencies, lastLocation⟩ :=
      ih nextFormed (fun name member => gives name (List.mem_cons_of_mem _ member))
        fun name member =>
          (nextNames _).mpr (Or.inl (present name (List.mem_cons_of_mem _ member)))
    refine ⟨last, ?_, lastFormed, ?_, ?_, ?_⟩
    · rw [List.map_cons, addAllDependencies]
      simp only [Name.toValue, answered, members, bind, Except.bind, added]
      exact built
    · intro other
      rw [lastNames, nextNames, or_assoc]
      simp only [List.mem_cons, exists_eq_or_imp]
    · intro source target
      rw [lastDependencies, nextDependencies, or_assoc]
      apply or_congr_right
      by_cases same : source = first
      · subst same
        simp
      · simp [same]
    · intro other
      rw [lastLocation, nextLocation]

/-! ## The whole graph -/

/-- Building the graph of a source none of whose queries fails succeeds, and the graph shows the
answers of the source. -/
theorem exists_ofSource {a : Answers} (gives : s.Gives workingDirectory a) (label : Option String) :
    ∃ g, ofSource workingDirectory s label = .ok g ∧ g.Shows a := by
  obtain ⟨answer, answered, members⟩ := gives.classes
  obtain ⟨first, added, firstFormed, firstNames, firstDependencies, firstLocation⟩ :=
    exists_addClasses wellFormed_empty gives.location
  obtain ⟨texts, listed⟩ := firstFormed.exists_texts
  have enumerated : ∀ name, name ∈ texts ↔ name ∈ a.classes := by
    intro name
    have member := firstNames (.text name)
    rw [listed] at member
    simpa [empty, names] using member
  obtain ⟨last, built, lastFormed, lastNames, lastDependencies, lastLocation⟩ :=
    exists_addAllDependencies firstFormed texts
      (fun name member => gives.dependencies name ((enumerated name).mp member))
      (fun name member => listed ▸ List.mem_map_of_mem member)
  refine ⟨last, ?_, lastFormed, ?_, ?_, ?_⟩
  · simp only [ofSource, answered, members, bind, Except.bind, added, listed, built,
      Action.mapError_ok]
  · intro name
    rw [lastNames, firstNames]
    simp [Answers.Known, Answers.Refers, enumerated, empty, names]
  · intro source target
    rw [lastDependencies, firstDependencies, enumerated]
    simp only [Answers.Refers]
    constructor
    · rintro (before | ⟨inside, name, refers, same⟩)
      · simp [dependencies, number?, empty] at before
      · exact ⟨name, same, inside, refers⟩
    · rintro ⟨name, same, inside, refers⟩
      exact Or.inr ⟨inside, name, refers, same⟩
  · intro name
    rw [lastLocation, firstLocation]
    simp [location?, empty]

end Graph

end Classpath
