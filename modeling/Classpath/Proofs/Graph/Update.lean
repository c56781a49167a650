import Classpath.Proofs.Graph.View

/-! # Updates of a class graph

Naming a class adds it to the classes and changes nothing else that the graph answers
(`Classpath.Graph.names_insert`). Recording a location changes the location of that class alone
(`Classpath.Graph.location?_locate`), and connecting two classes adds the second to what the first
refers to (`Classpath.Graph.mem_dependencies_connect`). All three keep a graph well-formed.
-/

namespace Classpath.Graph

variable {g : Graph}

/-! ## Naming a class -/

theorem names_insert (formed : g.WellFormed) (s : String) :
    (g.insert (.text s)).names = adjoin g.names (.text s) := by
  unfold insert adjoin
  cases number : g.number? (.text s) with
  | some i =>
    have present := List.mem_of_getElem? ((number?_eq_some_iff formed.numbered).mp number)
    rw [if_pos (List.contains_iff_mem.mpr present)]
  | none =>
    have absent := number?_eq_none number
    rw [if_neg fun present => absent (List.contains_iff_mem.mp present)]
    simp [names]

@[simp] theorem edges_insert (name : Name) : (g.insert name).edges = g.edges := by
  unfold insert
  split <;> rfl

@[simp] theorem located_insert (name : Name) : (g.insert name).located = g.located := by
  unfold insert
  split <;> rfl

@[simp] theorem location?_insert (name : Name) (s : String) :
    (g.insert name).location? (.text s) = g.location? (.text s) := by
  simp [location?]

theorem mem_names_insert (formed : g.WellFormed) {s : String} {name : Name} :
    name ∈ (g.insert (.text s)).names ↔ name ∈ g.names ∨ name = .text s := by
  rw [names_insert formed, mem_adjoin]

/-- The classes of a graph keep their numbers when another one is named. -/
theorem prefix_names_insert (g : Graph) (name : Name) : g.names <+: (g.insert name).names := by
  unfold insert
  split
  · exact List.prefix_rfl
  · simp [names]

theorem getElem?_names_insert (g : Graph) (name : Name) {i : Nat} (inside : i < g.names.length) :
    (g.insert name).names[i]? = g.names[i]? := by
  obtain ⟨more, same⟩ := prefix_names_insert g name
  rw [← same, List.getElem?_append_left inside]

theorem WellFormed.insert (formed : g.WellFormed) (s : String) :
    (g.insert (.text s)).WellFormed where
  numbered := formed.numbered.insert _
  texts name member :=
    ((mem_names_insert formed).mp member).elim (formed.texts name) fun same => ⟨s, same⟩
  ends edge member := by
    rw [edges_insert] at member
    have longer := (prefix_names_insert g (.text s)).length_le
    have bounds := formed.ends edge member
    exact ⟨Nat.lt_of_lt_of_le bounds.1 longer, Nat.lt_of_lt_of_le bounds.2 longer⟩
  edgesApart := by
    rw [edges_insert]
    exact formed.edgesApart
  places entry member := by
    rw [located_insert] at member
    exact (mem_names_insert formed).mpr (Or.inl (formed.places entry member))
  placesApart := by
    rw [located_insert]
    exact formed.placesApart

/-- Naming a class changes no dependency. -/
theorem mem_dependencies_insert (formed : g.WellFormed) (s c : String) {name : Name} :
    name ∈ (g.insert (.text s)).dependencies (.text c) ↔ name ∈ g.dependencies (.text c) := by
  rw [mem_dependencies_iff (formed.insert s).numbered, mem_dependencies_iff formed.numbered,
    edges_insert]
  refine exists_congr fun i => exists_congr fun j => and_congr_right fun member => ?_
  have bounds := formed.ends (i, j) member
  rw [getElem?_names_insert g _ bounds.1, getElem?_names_insert g _ bounds.2]

/-! ## Recording a location -/

@[simp] theorem names_locate (name : Name) (l : Location) : (g.locate name l).names = g.names := by
  unfold locate
  dsimp only
  split <;> rfl

@[simp] theorem edges_locate (name : Name) (l : Location) : (g.locate name l).edges = g.edges := by
  unfold locate
  dsimp only
  split <;> rfl

theorem Numbered.locate (numbered : g.Numbered) (name : Name) (l : Location) :
    (g.locate name l).Numbered := by
  unfold Graph.locate
  dsimp only
  split <;> exact ⟨numbered.swapped, numbered.counted, numbered.named⟩

@[simp] theorem dependencies_locate (name other : Name) (l : Location) :
    (g.locate name l).dependencies other = g.dependencies other := by
  unfold locate
  dsimp only
  split <;> rfl

theorem located_locate (s : String) (l : Location) :
    (g.locate (.text s) l).located =
      if (g.located.lookup (.text s)).isSome then
        g.located.map fun entry => if entry.1 = .text s then (.text s, l) else entry
      else g.located ++ [(.text s, l)] := by
  unfold locate
  simp only [nameFor_text]
  split <;> rfl

/-- The located classes are those of before and the one whose location is recorded. -/
theorem map_fst_located_locate (g : Graph) (name : Name) (l : Location) :
    (g.locate name l).located.map Prod.fst = adjoin (g.located.map Prod.fst) (g.nameFor name) := by
  have present : (g.located.map Prod.fst).contains (g.nameFor name) =
      (g.located.lookup (g.nameFor name)).isSome := by
    rw [Bool.eq_iff_iff, List.lookup_isSome_iff, List.contains_iff_mem, List.mem_map]
    exact exists_congr fun entry => and_congr_right fun _ => by rw [beq_iff_eq, eq_comm]
  unfold adjoin
  rw [present, locate]
  by_cases known : (g.located.lookup (g.nameFor name)).isSome = true
  · rw [if_pos known]
    dsimp only
    rw [if_pos known, List.map_map]
    apply List.map_congr_left
    intro entry _
    by_cases same : entry.1 = g.nameFor name <;> simp [same]
  · rw [if_neg known]
    dsimp only
    rw [if_neg known, List.map_append]
    rfl

theorem WellFormed.locate (formed : g.WellFormed) {s : String} (known : .text s ∈ g.names)
    (l : Location) : (g.locate (.text s) l).WellFormed where
  numbered := formed.numbered.locate _ l
  texts name member := formed.texts name (by simpa using member)
  ends edge member := by
    rw [names_locate]
    exact formed.ends edge (by simpa using member)
  edgesApart := by
    rw [edges_locate]
    exact formed.edgesApart
  places entry member := by
    have key : entry.1 ∈ (g.locate (.text s) l).located.map Prod.fst := List.mem_map_of_mem member
    rw [map_fst_located_locate, nameFor_text, mem_adjoin] at key
    rw [names_locate]
    rcases key with before | same
    · obtain ⟨old, inside, same⟩ := List.mem_map.mp before
      exact same ▸ formed.places old inside
    · exact same ▸ known
  placesApart := by
    rw [map_fst_located_locate]
    exact nodup_adjoin formed.placesApart _

theorem mem_located_locate (s : String) (l : Location) {name : Name} {place : Location} :
    (name, place) ∈ (g.locate (.text s) l).located ↔
      if name = .text s then place = l else (name, place) ∈ g.located := by
  rw [located_locate]
  by_cases known : (g.located.lookup (.text s)).isSome = true
  · rw [if_pos known, List.mem_map]
    constructor
    · rintro ⟨entry, member, image⟩
      by_cases same : entry.1 = .text s
      · rw [if_pos same, Prod.mk.injEq] at image
        rw [if_pos image.1.symm]
        exact image.2.symm
      · rw [if_neg same] at image
        subst image
        rw [if_neg same]
        exact member
    · intro entry
      by_cases same : name = .text s
      · rw [if_pos same] at entry
        obtain ⟨old, member, key⟩ := List.lookup_isSome_iff.mp known
        exact ⟨old, member, by rw [if_pos (eq_of_beq key).symm, same, entry]⟩
      · rw [if_neg same] at entry
        exact ⟨(name, place), entry, if_neg same⟩
  · rw [if_neg known, List.mem_append, List.mem_singleton, Prod.mk.injEq]
    by_cases same : name = .text s
    · subst same
      have absent : (Name.text s, place) ∉ g.located := fun member =>
        known (List.lookup_isSome_iff.mpr ⟨_, member, beq_iff_eq.mpr rfl⟩)
      simp [absent]
    · simp [same]

/-- The location that is recorded for a class is its location from then on, and no other class
moves. -/
theorem location?_locate (formed : g.WellFormed) {s : String} (known : .text s ∈ g.names)
    (l : Location) (c : String) :
    (g.locate (.text s) l).location? (.text c) =
      if c = s then some l else g.location? (.text c) := by
  apply Option.ext
  intro place
  unfold location?
  rw [nameFor_text, nameFor_text, lookup_eq_some_iff_mem (formed.locate known l).placesApart,
    mem_located_locate]
  by_cases same : c = s
  · simp [same, eq_comm]
  · simp only [Name.text.injEq, same, ↓reduceIte]
    exact (lookup_eq_some_iff_mem formed.placesApart).symm

/-! ## Connecting two classes -/

@[simp] theorem names_connect (source target : Name) :
    (g.connect source target).names = g.names := by
  unfold connect
  split
  · split <;> rfl
  · rfl

@[simp] theorem location?_connect (source target name : Name) :
    (g.connect source target).location? name = g.location? name := by
  unfold connect
  split
  · split <;> rfl
  · rfl

theorem Numbered.connect (numbered : g.Numbered) (source target : Name) :
    (g.connect source target).Numbered := by
  unfold Graph.connect
  split
  · split <;> exact ⟨numbered.swapped, numbered.counted, numbered.named⟩
  · exact numbered

@[simp] theorem located_connect (source target : Name) :
    (g.connect source target).located = g.located := by
  unfold connect
  split
  · split <;> rfl
  · rfl

theorem edges_connect (numbered : g.Numbered) {a b : String} {i j : Nat}
    (source : g.names[i]? = some (.text a)) (target : g.names[j]? = some (.text b)) :
    (g.connect (.text a) (.text b)).edges = adjoin g.edges (i, j) := by
  unfold connect adjoin
  rw [(number?_eq_some_iff numbered).mpr source, (number?_eq_some_iff numbered).mpr target]
  dsimp only
  split <;> rfl

theorem WellFormed.connect (formed : g.WellFormed) {a b : String} (source : .text a ∈ g.names)
    (target : .text b ∈ g.names) : (g.connect (.text a) (.text b)).WellFormed := by
  obtain ⟨i, standsA⟩ := List.mem_iff_getElem?.mp source
  obtain ⟨j, standsB⟩ := List.mem_iff_getElem?.mp target
  have edges := edges_connect formed.numbered standsA standsB
  refine ⟨formed.numbered.connect _ _, ?_, ?_, ?_, ?_, ?_⟩
  · rw [names_connect]
    exact formed.texts
  · rw [edges, names_connect]
    intro edge member
    rcases mem_adjoin.mp member with before | rfl
    · exact formed.ends edge before
    · exact ⟨(List.getElem?_eq_some_iff.mp standsA).1, (List.getElem?_eq_some_iff.mp standsB).1⟩
  · rw [edges]
    exact nodup_adjoin formed.edgesApart _
  · rw [names_connect, located_connect]
    exact formed.places
  · rw [located_connect]
    exact formed.placesApart

/-- After two classes have been connected, the first refers to the second, and nothing else is
new. -/
theorem mem_dependencies_connect (formed : g.WellFormed) {a b : String}
    (source : .text a ∈ g.names) (target : .text b ∈ g.names) {c : String} {name : Name} :
    name ∈ (g.connect (.text a) (.text b)).dependencies (.text c) ↔
      name ∈ g.dependencies (.text c) ∨ (c = a ∧ name = .text b) := by
  obtain ⟨i, standsA⟩ := List.mem_iff_getElem?.mp source
  obtain ⟨j, standsB⟩ := List.mem_iff_getElem?.mp target
  rw [mem_dependencies_iff (formed.connect source target).numbered,
    mem_dependencies_iff formed.numbered, edges_connect formed.numbered standsA standsB,
    names_connect]
  constructor
  · rintro ⟨p, q, member, first, second⟩
    rcases mem_adjoin.mp member with before | same
    · exact Or.inl ⟨p, q, before, first, second⟩
    · rw [Prod.mk.injEq] at same
      obtain ⟨rfl, rfl⟩ := same
      rw [standsA] at first
      rw [standsB] at second
      exact Or.inr ⟨(Name.text.inj (Option.some.inj first)).symm, (Option.some.inj second).symm⟩
  · rintro (⟨p, q, before, first, second⟩ | ⟨rfl, rfl⟩)
    · exact ⟨p, q, mem_adjoin.mpr (Or.inl before), first, second⟩
    · exact ⟨i, j, mem_adjoin.mpr (Or.inr rfl), standsA, standsB⟩

/-! ## Adding a dependency -/

theorem mem_names_addDependency (formed : g.WellFormed) {a b : String} {name : Name} :
    name ∈ (g.addDependency (.text a) (.text b)).names ↔
      name ∈ g.names ∨ name = .text a ∨ name = .text b := by
  rw [addDependency, names_connect, mem_names_insert (formed.insert a), mem_names_insert formed,
    or_assoc]

theorem WellFormed.addDependency (formed : g.WellFormed) (a b : String) :
    (g.addDependency (.text a) (.text b)).WellFormed := by
  refine ((formed.insert a).insert b).connect ?_ ?_
  · exact (mem_names_insert (formed.insert a)).mpr
      (Or.inl ((mem_names_insert formed).mpr (.inr rfl)))
  · exact (mem_names_insert (formed.insert a)).mpr (Or.inr rfl)

/-- A dependency that is added is added, and nothing else is. -/
theorem mem_dependencies_addDependency (formed : g.WellFormed) {a b c : String} {name : Name} :
    name ∈ (g.addDependency (.text a) (.text b)).dependencies (.text c) ↔
      name ∈ g.dependencies (.text c) ∨ (c = a ∧ name = .text b) := by
  have withSource := formed.insert a
  have source : Name.text a ∈ ((g.insert (.text a)).insert (.text b)).names :=
    (mem_names_insert withSource).mpr (Or.inl ((mem_names_insert formed).mpr (Or.inr rfl)))
  have target : Name.text b ∈ ((g.insert (.text a)).insert (.text b)).names :=
    (mem_names_insert withSource).mpr (Or.inr rfl)
  rw [addDependency, mem_dependencies_connect (withSource.insert b) source target,
    mem_dependencies_insert withSource, mem_dependencies_insert formed]

@[simp] theorem location?_addDependency (source target : Name) (c : String) :
    (g.addDependency source target).location? (.text c) = g.location? (.text c) := by
  simp [addDependency]

end Classpath.Graph
