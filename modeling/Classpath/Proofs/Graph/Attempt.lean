import Classpath.Graph.Summary
import Classpath.Proofs.Graph.Refusal
import Mathlib.Data.List.Perm.Subperm

/-! # Updates that fail

A call that updates a graph takes several steps and may fail between them: a class is named before
its location is read, and the first class of a dependency before the second one is looked at.
Whatever was called before and failed, the maps of the graph belong together
(`Classpath.Graph.Attempted.consistent`). A call that fails leaves the graph as it was, or with one
class more that has no location, no dependency and no dependent
(`Classpath.Graph.attempt_failed`): it is the first class of the call, and it stays when the graph
did not have it.
-/

namespace Classpath.Graph

/-- A call that updates a graph, with the values that it is given. -/
inductive Call where
  | addClass (name : Value) (spelling : Option Location.Spelling)
  | addDependency (source target : Value)

/-- The value that names the first class of a call. -/
def Call.first : Call → Value
  | .addClass name _ => name
  | .addDependency source _ => source

/-- Update a graph as far as a call goes, and say why it goes no further. -/
def attempt (workingDirectory : Path) (g : Graph) : Call → Graph × Option Fault
  | .addClass name spelling =>
    match name.asName with
    | .error fault => (g, some fault)
    | .ok name => g.addClass workingDirectory name spelling
  | .addDependency source target => g.addNamed source target

/-- A graph that comes of calls, failed ones among them. Each may find another working directory. -/
inductive Attempted : Graph → Prop
  | empty : Attempted empty
  | call {g : Graph} (before : g.Attempted) (workingDirectory : Path) (call : Call) :
      Attempted (g.attempt workingDirectory call).1

/-- The numbers of a graph number its classes, its edges join classes of the graph, and only
classes of the graph are located, each at one place. -/
structure Consistent (g : Graph) : Prop where
  numbered : g.Numbered
  ends : ∀ edge ∈ g.edges, edge.1 < g.names.length ∧ edge.2 < g.names.length
  places : ∀ entry ∈ g.located, entry.1 ∈ g.names
  placesApart : (g.located.map Prod.fst).Nodup

/-- A graph is another one with one class more, about which nothing is known. -/
structure Gains (g : Graph) (name : Name) (next : Graph) : Prop where
  names : next.names = g.names ++ [name]
  dependencies : ∀ other, next.dependencies other = g.dependencies other
  unconnected : next.dependencies name = []
  location? : ∀ other, next.location? other = g.location? other
  unlocated : next.location? name = none
  locations : next.locations = g.locations
  counts : next.counts = { g.counts with
    classes := g.counts.classes + 1
    unlocated := g.counts.unlocated + 1
    orphans := g.counts.orphans + 1 }

variable {g : Graph} {name : Name}

/-! ## Classes of a graph -/

theorem insert_of_contains (known : g.contains name = true) : g.insert name = g := by
  obtain ⟨i, number⟩ := Option.isSome_iff_exists.mp known
  simp [insert, number]

theorem number?_eq_none_of_not_contains (fresh : g.contains name = false) :
    g.number? name = none := by
  simpa [contains] using fresh

theorem insert_of_not_contains (fresh : g.contains name = false) :
    g.insert name =
      { g with
        numbers := g.numbers ++ [(name, g.classes.length)]
        classes := g.classes ++ [(g.classes.length, name)] } := by
  simp [insert, number?_eq_none_of_not_contains fresh]

theorem names_insert_of_not_contains (fresh : g.contains name = false) :
    (g.insert name).names = g.names ++ [name] := by
  simp [insert_of_not_contains fresh, names]

/-- A class is in the graph when its name is the same as one of the names. -/
theorem contains_eq_isSome (g : Graph) (name : Name) :
    g.contains name = (g.names.find? (Name.same name)).isSome := by
  have inserted := names_insert_eq g name
  rw [Name.adjoin] at inserted
  rw [Bool.eq_iff_iff, List.find?_isSome, ← List.any_eq_true]
  cases known : g.contains name with
  | true =>
    rw [insert_of_contains known] at inserted
    split at inserted
    · simpa only [true_iff] using ‹g.names.any name.same = true›
    · simp at inserted
  | false =>
    rw [names_insert_of_not_contains known] at inserted
    split at inserted
    · simp at inserted
    · simpa only [Bool.false_eq_true, false_iff] using ‹¬g.names.any name.same = true›

theorem exists_find?_of_contains (known : g.contains name = true) :
    ∃ first, g.names.find? (Name.same name) = some first :=
  Option.isSome_iff_exists.mp (contains_eq_isSome g name ▸ known)

theorem find?_eq_none_of_not_contains (fresh : g.contains name = false) :
    g.names.find? (Name.same name) = none := by
  rw [contains_eq_isSome, Option.isSome_eq_false_iff] at fresh
  exact Option.isNone_iff_eq_none.mp fresh

theorem nameFor_mem (known : g.contains name = true) : g.nameFor name ∈ g.names := by
  obtain ⟨first, found⟩ := exists_find?_of_contains known
  rw [nameFor, Name.among, found]
  exact List.mem_of_find?_eq_some found

theorem nameFor_of_not_contains (fresh : g.contains name = false) : g.nameFor name = name := by
  rw [nameFor, Name.among, find?_eq_none_of_not_contains fresh]
  rfl

theorem not_mem_of_not_contains (fresh : g.contains name = false) : name ∉ g.names := fun member =>
  List.find?_eq_none.mp (find?_eq_none_of_not_contains fresh) name member (Name.same_self name)

/-- A class that is named is in the graph. -/
theorem contains_insert (g : Graph) (name : Name) : (g.insert name).contains name = true := by
  cases known : g.contains name with
  | true => rw [insert_of_contains known, known]
  | false =>
    rw [contains_eq_isSome, names_insert_of_not_contains known, List.find?_isSome]
    exact ⟨name, by simp, Name.same_self name⟩

/-- A class stays in the graph when another one is named, under the name that it had. -/
theorem nameFor_insert (name : Name) {other : Name} (known : g.contains other = true) :
    (g.insert name).nameFor other = g.nameFor other := by
  cases fresh : g.contains name with
  | true => rw [insert_of_contains fresh]
  | false =>
    obtain ⟨first, found⟩ := exists_find?_of_contains known
    simp [nameFor, Name.among, names_insert_of_not_contains fresh, found]

/-- A class that is not in the graph goes by a name that is not in it either, also after another
class has been named. -/
theorem nameFor_insert_not_mem (name : Name) {other : Name} (absent : g.contains other = false) :
    (g.insert name).nameFor other ∉ g.names := by
  cases fresh : g.contains name with
  | true =>
    rw [insert_of_contains fresh, nameFor_of_not_contains absent]
    exact not_mem_of_not_contains absent
  | false =>
    rw [nameFor, Name.among, names_insert_of_not_contains fresh, List.find?_append,
      find?_eq_none_of_not_contains absent, Option.none_or, List.find?_singleton]
    split
    · exact not_mem_of_not_contains fresh
    · exact not_mem_of_not_contains absent

/-! ## What the updates keep -/

theorem consistent_empty : empty.Consistent where
  numbered := numbered_empty
  ends := by simp [empty]
  places := by simp [empty]
  placesApart := List.nodup_nil

theorem Consistent.insert (kept : g.Consistent) (name : Name) : (g.insert name).Consistent where
  numbered := kept.numbered.insert name
  ends edge member := by
    rw [edges_insert] at member
    have longer := (prefix_names_insert g name).length_le
    exact ⟨(kept.ends edge member).1.trans_le longer, (kept.ends edge member).2.trans_le longer⟩
  places entry member :=
    (prefix_names_insert g name).subset (kept.places entry (located_insert (g := g) name ▸ member))
  placesApart := (located_insert (g := g) name).symm ▸ kept.placesApart

theorem Consistent.locate (kept : g.Consistent) (known : g.contains name = true) (l : Location) :
    (g.locate name l).Consistent where
  numbered := kept.numbered.locate name l
  ends edge member := by
    rw [names_locate]
    exact kept.ends edge (by simpa using member)
  places entry member := by
    have key := List.mem_map_of_mem (f := Prod.fst) member
    rw [map_fst_located_locate, mem_adjoin] at key
    rw [names_locate]
    rcases key with before | same
    · obtain ⟨old, inside, same⟩ := List.mem_map.mp before
      exact same ▸ kept.places old inside
    · exact same ▸ nameFor_mem known
  placesApart := by
    rw [map_fst_located_locate]
    exact nodup_adjoin kept.placesApart _

theorem number?_lt {i : Nat} (numbered : g.Numbered) (number : g.number? name = some i) :
    i < g.names.length := by
  have entry := (lookup_eq_some_iff_mem numbered.named).mp number
  exact (List.getElem?_eq_some_iff.mp ((mem_numbers_iff numbered).mp entry)).1

theorem Consistent.connect (kept : g.Consistent) (source target : Name) :
    (g.connect source target).Consistent where
  numbered := kept.numbered.connect source target
  ends edge member := by
    rw [names_connect]
    unfold Graph.connect at member
    split at member
    · rename_i i j first second
      split at member
      · exact kept.ends edge member
      · rcases List.mem_append.mp member with before | new
        · exact kept.ends edge before
        · rw [List.mem_singleton.mp new]
          exact ⟨number?_lt kept.numbered first, number?_lt kept.numbered second⟩
    · exact kept.ends edge member
  places := by
    rw [located_connect, names_connect]
    exact kept.places
  placesApart := by
    rw [located_connect]
    exact kept.placesApart

/-- What a call does to a graph. -/
inductive Does (g : Graph) (call : Call) : Graph × Option Fault → Prop
  | nothing {fault : Fault} (refused : call.first.asName = .error fault) :
      Does g call (g, some fault)
  | stops {name : Name} {fault : Fault} (named : call.first.asName = .ok name) :
      Does g call (g.insert name, some fault)
  | names {name : Name} (named : call.first.asName = .ok name) :
      Does g call (g.insert name, none)
  | locates {name : Name} (named : call.first.asName = .ok name) (l : Location) :
      Does g call ((g.insert name).locate name l, none)
  | joins {source : Name} (named : call.first.asName = .ok source) (target : Name) :
      Does g call (g.addDependency source target, none)

theorem does_attempt (workingDirectory : Path) (g : Graph) (call : Call) :
    g.Does call (g.attempt workingDirectory call) := by
  cases call with
  | addClass name spelling =>
    rw [attempt]
    split
    · exact .nothing ‹_›
    · unfold addClass
      split
      · exact .names ‹_›
      · split
        · exact .locates ‹_› _
        · exact .stops ‹_›
  | addDependency source target =>
    rw [attempt, addNamed]
    split
    · exact .nothing ‹_›
    · split
      · exact .stops ‹_›
      · exact .joins ‹_› _

/-- A call keeps the maps of a graph together, whether it fails or not. -/
theorem Consistent.attempt (kept : g.Consistent) (workingDirectory : Path) (call : Call) :
    (g.attempt workingDirectory call).1.Consistent := by
  generalize ended : g.attempt workingDirectory call = outcome
  cases ended ▸ does_attempt workingDirectory g call with
  | nothing => exact kept
  | stops => exact kept.insert _
  | names => exact kept.insert _
  | locates named l => exact (kept.insert _).locate (contains_insert g _) l
  | joins named target => exact ((kept.insert _).insert target).connect _ target

theorem Attempted.consistent (attempted : g.Attempted) : g.Consistent := by
  induction attempted with
  | empty => exact consistent_empty
  | call _ workingDirectory call kept => exact kept.attempt workingDirectory call

/-! ## A class about which nothing is known -/

theorem Consistent.location?_insert (kept : g.Consistent) (name other : Name) :
    (g.insert name).location? other = g.location? other := by
  have nowhere : ∀ key, key ∉ g.names → g.located.lookup key = none := fun key absent =>
    List.lookup_eq_none_iff.mpr fun entry member =>
      bne_iff_ne.mpr fun same => absent (same ▸ kept.places entry member)
  rw [Graph.location?, Graph.location?, located_insert]
  cases known : g.contains other with
  | true => rw [nameFor_insert name known]
  | false =>
    rw [nowhere _ (nameFor_insert_not_mem name known), nameFor_of_not_contains known,
      nowhere _ (not_mem_of_not_contains known)]

theorem number?_insert (name : Name) {other : Name} (known : g.contains other = true) :
    (g.insert name).number? other = g.number? other := by
  rw [number?, number?, nameFor_insert name known]
  cases fresh : g.contains name with
  | true => rw [insert_of_contains fresh]
  | false =>
    obtain ⟨i, number⟩ := Option.isSome_iff_exists.mp known
    rw [number?] at number
    rw [insert_of_not_contains fresh, List.lookup_append, number, Option.some_or]

/-- A class that the graph does not have gets a number that the graph has not given. -/
theorem Consistent.le_of_number?_insert (kept : g.Consistent) {name other : Name}
    (absent : g.contains other = false) {i : Nat}
    (number : (g.insert name).number? other = some i) : g.names.length ≤ i := by
  have numbered := (kept.insert name).numbered
  have entry := (lookup_eq_some_iff_mem numbered.named).mp number
  have stands := (mem_numbers_iff numbered).mp entry
  by_contra early
  rw [getElem?_names_insert g name (not_le.mp early)] at stands
  exact nameFor_insert_not_mem name absent (List.mem_of_getElem? stands)

theorem Consistent.dependencies_insert (kept : g.Consistent) (name other : Name) :
    (g.insert name).dependencies other = g.dependencies other := by
  have classes : ∀ edge ∈ g.edges, (g.insert name).class? edge.2 = g.class? edge.2 := by
    intro edge member
    rw [class?_eq (kept.insert name).numbered, class?_eq kept.numbered,
      getElem?_names_insert g name (kept.ends edge member).2]
  unfold dependencies
  rw [edges_insert]
  cases known : g.contains other with
  | true =>
    rw [number?_insert name known]
    split
    · rfl
    · exact List.filterMap_congr fun edge member => classes edge (List.mem_filter.mp member).1
  | false =>
    rw [number?_eq_none_of_not_contains known]
    cases number : (g.insert name).number? other with
    | none => rfl
    | some i =>
      have later := kept.le_of_number?_insert known number
      have unused : (g.edges.filter fun edge => edge.1 == i) = [] := by
        refine List.filter_eq_nil_iff.mpr fun edge member from_i => ?_
        have := (kept.ends edge member).1
        rw [beq_iff_eq] at from_i
        omega
      simp only [unused, List.filterMap_nil]

theorem Consistent.length_located_le (kept : g.Consistent) :
    g.located.length ≤ g.classes.length := by
  have within : g.located.map Prod.fst ⊆ g.names := fun key member => by
    obtain ⟨entry, inside, rfl⟩ := List.mem_map.mp member
    exact kept.places entry inside
  have shorter := (kept.placesApart.subperm within).length_le
  rwa [List.length_map, names, List.length_map, ← length_classes kept.numbered] at shorter

/-- A class that is named for the first time is alone and has no location. -/
theorem Consistent.counts_insert (kept : g.Consistent) (fresh : g.contains name = false) :
    (g.insert name).counts = { g.counts with
      classes := g.counts.classes + 1
      unlocated := g.counts.unlocated + 1
      orphans := g.counts.orphans + 1 } := by
  have orphan : ∀ i, (g.insert name).isOrphan i = g.isOrphan i := fun i => by
    rw [isOrphan, isOrphan, edges_insert]
  have alone : g.isOrphan g.classes.length = true := by
    refine List.all_eq_true.mpr fun edge member => ?_
    have ends := kept.ends edge member
    rw [names, List.length_map, ← length_classes kept.numbered] at ends
    simp [ends.1.ne, ends.2.ne]
  have fewer := kept.length_located_le
  unfold counts
  simp only [orphan, edges_insert, located_insert, locations]
  rw [insert_of_not_contains fresh]
  simp only [List.length_append, List.length_singleton, List.filter_append, Counts.mk.injEq,
    true_and]
  refine ⟨?_, ?_⟩
  · omega
  · simp [alone]

/-- A graph that names a new class gains that class and nothing else. -/
theorem Consistent.gains (kept : g.Consistent) (fresh : g.contains name = false) :
    g.Gains name (g.insert name) where
  names := names_insert_of_not_contains fresh
  dependencies := kept.dependencies_insert name
  unconnected := by
    rw [kept.dependencies_insert, dependencies, number?_eq_none_of_not_contains fresh]
  location? := kept.location?_insert name
  unlocated := by
    rw [kept.location?_insert, Graph.location?, nameFor_of_not_contains fresh]
    exact List.lookup_eq_none_iff.mpr fun entry member => bne_iff_ne.mpr fun same =>
      not_mem_of_not_contains fresh (same ▸ kept.places entry member)
  locations := by rw [locations, locations, located_insert]
  counts := kept.counts_insert fresh

/-! ## Calls that fail -/

/-- **A call that fails leaves the graph as it was, or with its first class about which nothing is
known.** The graph is as it was exactly when the first class of the call goes by no name, or was in
the graph already. Otherwise that class is the last one of the graph, every dependency and every
location is what it was, and the counts show one more class that has no location and is alone. -/
theorem attempt_failed (attempted : g.Attempted) {workingDirectory : Path} {call : Call}
    {next : Graph} {fault : Fault}
    (failed : g.attempt workingDirectory call = (next, some fault)) :
    (next = g ↔ ∀ name, call.first.asName = .ok name → g.contains name = true) ∧
      ∀ name, call.first.asName = .ok name → g.contains name = false → g.Gains name next := by
  have kept := attempted.consistent
  have done := failed ▸ does_attempt workingDirectory g call
  cases done with
  | nothing refused => simp [refused]
  | @stops first _ named =>
    simp only [named, Except.ok.injEq, forall_eq']
    cases known : g.contains first with
    | true => simp [insert_of_contains known]
    | false =>
      have longer : g.insert first ≠ g := fun same => by
        have names := names_insert_of_not_contains known
        simp [same] at names
      simp [longer, kept.gains known]

/-- A class was refused for its location, and then the second class of a dependency goes by no name.
The first class of the dependency stays. -/
theorem attempt_failed_again :
    let g := (empty.attempt (.ofText "/w") (.addClass (.text "A") (some (.value (.text ""))))).1
    let call := Call.addDependency (.text "B") (.list [])
    g.Attempted ∧ ∃ next, g.attempt (.ofText "/v") call = (next, some (.unhashable "list")) ∧
      next ≠ g ∧ g.Gains (.text "B") next := by
  intro g call
  have attempted : g.Attempted := .call .empty _ _
  have failed : g.attempt (.ofText "/v") call =
      (g.insert (.text "B"), some (.unhashable "list")) := rfl
  have fresh : g.contains (.text "B") = false := by
    unfold g
    decide +kernel
  obtain ⟨same, gains⟩ := attempt_failed attempted failed
  refine ⟨attempted, _, failed, fun equal => ?_, gains (.text "B") rfl fresh⟩
  exact absurd (same.mp equal (.text "B") rfl) (fresh ▸ Bool.false_ne_true)

/-- A call that fails does not always leave the graph as it was: a class stays when its location is
refused. -/
theorem attempt_failed_leaves_class :
    ∃ fault next, empty.attempt (.ofText "/w") (.addClass (.text "A") (some (.value (.text "")))) =
      (next, some fault) ∧ empty.names = [] ∧ next.names = [.text "A"] ∧
      empty.counts.classes = 0 ∧ next.counts.classes = 1 :=
  ⟨_, _, rfl, rfl, rfl, rfl, rfl⟩

end Classpath.Graph
