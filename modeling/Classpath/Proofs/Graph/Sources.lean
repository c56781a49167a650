import Classpath.Proofs.Graph.OfSource

/-! # Maps and graphs as sources

Two maps whose classes go by texts answer every query (`Classpath.Maps.gives_toSource`), and so
does a well-formed graph (`Classpath.Graph.gives_toSource`). What a class of the maps refers to is a
class of the maps, and the same holds of a graph, so that such a source enumerates every class it
knows (`Classpath.Answers.Closed`).
-/

namespace Classpath

/-- Every class that an enumerated class refers to is enumerated. -/
def Answers.Closed (a : Answers) : Prop :=
  ∀ source target, a.Refers source target → target ∈ a.classes

theorem Answers.Closed.known_iff {a : Answers} (closed : a.Closed) {name : String} :
    a.Known name ↔ name ∈ a.classes :=
  ⟨fun known => known.elim id fun ⟨source, refers⟩ => closed source name refers, Or.inl⟩

namespace Name

/-- Names that all are texts. -/
def Textual (names : List Name) : Prop :=
  ∀ name ∈ names, ∃ s : String, name = .text s

/-- The texts among some names. -/
def texts (names : List Name) : List String :=
  names.filterMap asText?

theorem map_text_texts {names : List Name} (textual : Textual names) :
    (texts names).map .text = names := by
  induction names with
  | nil => rfl
  | cons name rest ih =>
    obtain ⟨s, rfl⟩ := textual name List.mem_cons_self
    have later := ih fun other member => textual other (List.mem_cons_of_mem _ member)
    exact congrArg (Name.text s :: ·) later

theorem mem_texts {names : List Name} {s : String} : s ∈ texts names ↔ .text s ∈ names := by
  rw [texts, List.mem_filterMap]
  constructor
  · rintro ⟨name, member, found⟩
    cases name <;> simp_all [asText?]
  · exact fun member => ⟨.text s, member, rfl⟩

theorem nodup_texts {names : List Name} (textual : Textual names) (apart : names.Nodup) :
    (texts names).Nodup := by
  rw [← map_text_texts textual] at apart
  exact apart.of_map

theorem map_toValue {names : List Name} (textual : Textual names) :
    names.map toValue = (texts names).map .text := by
  conv_lhs => rw [← map_text_texts textual, List.map_map]
  rfl

/-- Of names that are texts only equal ones are the same. -/
theorem distinct_eq {names : List Name} (textual : Textual names) :
    Name.distinct names = Classpath.distinct names := by
  have step : ∀ seen : List Name, names.foldl
      (fun seen n => if seen.any (same n) then seen else seen ++ [n]) seen =
        names.foldl adjoin seen := by
    induction names with
    | nil => exact fun _ => rfl
    | cons name rest ih =>
      intro seen
      obtain ⟨s, rfl⟩ := textual name List.mem_cons_self
      have agree : seen.any (same (.text s)) = seen.contains (.text s) := by
        rw [Bool.eq_iff_iff, List.any_eq_true, List.contains_iff_mem]
        simp
      rw [List.foldl_cons, List.foldl_cons, agree]
      exact ih (fun other member => textual other (List.mem_cons_of_mem _ member)) _
  exact step []

end Name

@[simp] theorem Location.ofAnswer_location (workingDirectory : Path) (place : Option Location) :
    Location.ofAnswer workingDirectory (place.map .location) = .ok place := by
  cases place <;> rfl

/-! ## Maps -/

namespace Maps

/-- Maps whose classes all go by texts. -/
structure Textual (m : Maps) : Prop where
  keys : ∀ entry ∈ m.dependencies, ∃ s : String, entry.1 = .text s
  targets : ∀ entry ∈ m.dependencies, Name.Textual entry.2
  located : ∀ entry ∈ m.locations, ∃ s : String, entry.1 = .text s

/-- What the maps answer. -/
def answers (m : Maps) : Answers where
  classes := Name.texts m.known
  dependencies name := Name.texts (m.dependenciesOf (.text name))
  location name := m.location? (.text name)

theorem textual_mentioned {m : Maps} (textual : m.Textual) :
    Name.Textual
      (m.dependencies.map (·.1) ++ m.locations.map (·.1) ++ m.dependencies.flatMap (·.2)) := by
  intro name member
  simp only [List.mem_append, List.mem_map, List.mem_flatMap] at member
  rcases member with (⟨entry, inside, rfl⟩ | ⟨entry, inside, rfl⟩) | ⟨entry, inside, among⟩
  · exact textual.keys entry inside
  · exact textual.located entry inside
  · exact textual.targets entry inside name among

theorem mem_known {m : Maps} (textual : m.Textual) {name : Name} :
    name ∈ m.known ↔ (∃ entry ∈ m.dependencies, entry.1 = name ∨ name ∈ entry.2) ∨
      ∃ entry ∈ m.locations, entry.1 = name := by
  rw [known, Name.distinct_eq (textual_mentioned textual), mem_distinct]
  simp only [List.mem_append, List.mem_map, List.mem_flatMap, and_or_left, exists_or]
  exact or_right_comm

theorem textual_known {m : Maps} (textual : m.Textual) : Name.Textual m.known := by
  intro name member
  rw [known, Name.distinct_eq (textual_mentioned textual), mem_distinct] at member
  exact textual_mentioned textual name member

theorem dependenciesOf_eq (m : Maps) (s : String) :
    m.dependenciesOf (.text s) = (m.dependencies.lookup (.text s)).getD [] := by
  rw [dependenciesOf, Name.among_text]

theorem location?_eq (m : Maps) (s : String) :
    m.location? (.text s) = m.locations.lookup (.text s) := by
  rw [location?, Name.among_text]

/-- What a class of the maps refers to comes from one of their entries. -/
theorem exists_entry_of_mem_dependenciesOf {m : Maps} {s : String} {name : Name}
    (refers : name ∈ m.dependenciesOf (.text s)) :
    ∃ entry ∈ m.dependencies, entry.1 = .text s ∧ name ∈ entry.2 := by
  rw [dependenciesOf_eq] at refers
  cases found : m.dependencies.lookup (.text s) with
  | none => simp [found] at refers
  | some targets =>
    obtain ⟨before, after, split, -⟩ := List.lookup_eq_some_iff.mp found
    refine ⟨(.text s, targets), ?_, rfl, by simpa [found] using refers⟩
    rw [split]
    simp

theorem textual_dependenciesOf {m : Maps} (textual : m.Textual) (s : String) :
    Name.Textual (m.dependenciesOf (.text s)) := by
  intro name refers
  obtain ⟨entry, member, -, among⟩ := exists_entry_of_mem_dependenciesOf refers
  exact textual.targets entry member name among

theorem closed_answers {m : Maps} (textual : m.Textual) : m.answers.Closed := by
  rintro source target ⟨-, refers⟩
  obtain ⟨entry, member, -, among⟩ := exists_entry_of_mem_dependenciesOf (Name.mem_texts.mp refers)
  exact Name.mem_texts.mpr ((mem_known textual).mpr (Or.inl ⟨entry, member, Or.inr among⟩))

/-- No query of the maps fails. -/
theorem gives_toSource {m : Maps} (textual : m.Textual) (workingDirectory : Path) :
    m.toSource.Gives workingDirectory m.answers where
  classes := ⟨_, rfl, congrArg some (Name.map_toValue (textual_known textual))⟩
  location _ _ := ⟨_, rfl, Location.ofAnswer_location _ _⟩
  dependencies name _ :=
    ⟨_, rfl, congrArg some (Name.map_toValue (textual_dependenciesOf textual name))⟩

end Maps

/-! ## Graphs -/

namespace Graph

/-- What a graph answers. -/
def answers (g : Graph) : Answers where
  classes := Name.texts g.names
  dependencies name := Name.texts (g.dependencies (.text name))
  location name := g.location? (.text name)

theorem textual_dependencies {g : Graph} (formed : g.WellFormed) (s : String) :
    Name.Textual (g.dependencies (.text s)) :=
  fun name refers => formed.texts name (mem_names_of_mem_dependencies formed.numbered refers)

theorem closed_answers {g : Graph} (formed : g.WellFormed) : g.answers.Closed := by
  rintro source target ⟨-, refers⟩
  exact Name.mem_texts.mpr
    (mem_names_of_mem_dependencies formed.numbered (Name.mem_texts.mp refers))

/-- No query of a graph fails. -/
theorem gives_toSource {g : Graph} (formed : g.WellFormed) (workingDirectory : Path) :
    g.toSource.Gives workingDirectory g.answers where
  classes := ⟨_, rfl, congrArg some (Name.map_toValue formed.texts)⟩
  location _ _ := ⟨_, rfl, Location.ofAnswer_location _ _⟩
  dependencies name _ :=
    ⟨_, rfl, congrArg some (Name.map_toValue (textual_dependencies formed name))⟩

end Graph

end Classpath
