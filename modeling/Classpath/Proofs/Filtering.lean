import Classpath.Proofs.Agreement

/-! # The algebra of filtering

As sets, what a selection keeps, excludes and drops are filters of the given locations
(`Classpath.Selection.keptSet_of`), by a condition on each location in which exclusions that are put
together meet as alternatives (`Classpath.Location.excluded_append`). Filtering hence obeys the laws
of filters whatever occurs in what (`Classpath.Selection.filtering_laws`).
-/

namespace Classpath

/-! ## Exclusions put together -/

namespace Location

variable {E F : List String} {l : Location}

instance : DecidablePred (Excluded · E) :=
  fun l => decidable_of_iff (l.matches E = true) (l.matches_iff E)

/-- Exclusions that are put together exclude what one of them excludes. -/
theorem excluded_append : l.Excluded (E ++ F) ↔ l.Excluded E ∨ l.Excluded F := by
  simp only [Excluded, List.mem_append, or_and_right, exists_or]

/-- Only the exclusions that are not empty count, in any order and with any repeats. -/
theorem excluded_congr (same : ∀ pattern, pattern ≠ "" → (pattern ∈ E ↔ pattern ∈ F)) :
    l.Excluded E ↔ l.Excluded F := by
  refine exists_congr fun pattern => ?_
  constructor
  · exact fun ⟨member, filled, occurs⟩ => ⟨(same pattern filled).mp member, filled, occurs⟩
  · exact fun ⟨member, filled, occurs⟩ => ⟨(same pattern filled).mpr member, filled, occurs⟩

theorem Excluded.mono (excluded : l.Excluded E) (more : E ⊆ F) : l.Excluded F := by
  obtain ⟨pattern, member, occurs⟩ := excluded
  exact ⟨pattern, more member, occurs⟩

end Location

/-! ## The parts as sets -/

namespace Selection

/-- The kept locations, as a set. -/
def keptSet (s : Selection) : Finset Location :=
  s.kept.toFinset

/-- The excluded locations, as a set. -/
def excludedSet (s : Selection) : Finset Location :=
  s.excluded.toFinset

/-- The locations that are neither excluded nor local, as a set. -/
def droppedSet (s : Selection) : Finset Location :=
  s.dropped.toFinset

variable {A : List Location} {E F : List String} {l : Location}

@[simp] theorem mem_keptSet {s : Selection} : l ∈ s.keptSet ↔ l ∈ s.kept :=
  List.mem_toFinset

theorem mem_dropped_iff : l ∈ (Selection.of A E).dropped ↔
    l ∈ A ∧ ¬l.Excluded E ∧ l.scheme ≠ Location.fileScheme := by
  simp only [Selection.of, List.mem_filter, Bool.and_eq_true, Bool.not_eq_true',
    ← Location.matches_iff, ne_eq, ← Location.isLocal_iff, Bool.not_eq_true]

theorem keptSet_of (A : List Location) (E : List String) : (Selection.of A E).keptSet =
    A.toFinset.filter fun l => ¬l.Excluded E ∧ l.scheme = Location.fileScheme := by
  ext l
  simp [mem_kept_iff]

theorem excludedSet_of (A : List Location) (E : List String) :
    (Selection.of A E).excludedSet = A.toFinset.filter fun l => l.Excluded E := by
  ext l
  simp [excludedSet, mem_excluded_iff]

theorem droppedSet_of (A : List Location) (E : List String) : (Selection.of A E).droppedSet =
    A.toFinset.filter fun l => ¬l.Excluded E ∧ l.scheme ≠ Location.fileScheme := by
  ext l
  simp [droppedSet, mem_dropped_iff]

/-- The three parts of some locations. -/
structure Parts (A : List Location) (s : Selection) : Prop where
  whole : s.keptSet ∪ s.excludedSet ∪ s.droppedSet = A.toFinset
  keptExcluded : Disjoint s.keptSet s.excludedSet
  keptDropped : Disjoint s.keptSet s.droppedSet
  excludedDropped : Disjoint s.excludedSet s.droppedSet
  keptLocal : ∀ l ∈ s.keptSet, l.scheme = Location.fileScheme
  droppedRemote : ∀ l ∈ s.droppedSet, l.scheme ≠ Location.fileScheme

theorem parts_of (A : List Location) (E : List String) : Parts A (Selection.of A E) where
  whole := by
    rw [keptSet_of, excludedSet_of, droppedSet_of, ← Finset.filter_or, ← Finset.filter_or]
    refine Finset.filter_true_of_mem fun l _ => ?_
    by_cases excluded : l.Excluded E
    · exact Or.inl (Or.inr excluded)
    · by_cases fromFiles : l.scheme = Location.fileScheme
      · exact Or.inl (Or.inl ⟨excluded, fromFiles⟩)
      · exact Or.inr ⟨excluded, fromFiles⟩
  keptExcluded := by
    rw [keptSet_of, excludedSet_of]
    exact Finset.disjoint_filter.mpr fun l _ kept => kept.1
  keptDropped := by
    rw [keptSet_of, droppedSet_of]
    exact Finset.disjoint_filter.mpr fun l _ kept dropped => dropped.2 kept.2
  excludedDropped := by
    rw [excludedSet_of, droppedSet_of]
    exact Finset.disjoint_filter.mpr fun l _ excluded dropped => dropped.1 excluded
  keptLocal l member := by
    rw [keptSet_of] at member
    exact (Finset.mem_filter.mp member).2.2
  droppedRemote l member := by
    rw [droppedSet_of] at member
    exact (Finset.mem_filter.mp member).2.2

/-- What is kept of what was kept is what both lists of exclusions keep together. -/
theorem keptSet_kept (A : List Location) (E F : List String) :
    (Selection.of (Selection.of A E).kept F).keptSet = (Selection.of A (E ++ F)).keptSet := by
  ext l
  simp only [mem_keptSet, mem_kept_iff, Location.excluded_append, not_or]
  tauto

/-- The parts depend on the set of the locations and on the set of the exclusions that are not
empty. -/
theorem of_congr {A A' : List Location} {E E' : List String} (places : ∀ l, l ∈ A ↔ l ∈ A')
    (same : ∀ pattern, pattern ≠ "" → (pattern ∈ E ↔ pattern ∈ E')) :
    (Selection.of A E).keptSet = (Selection.of A' E').keptSet ∧
      (Selection.of A E).excludedSet = (Selection.of A' E').excludedSet ∧
      (Selection.of A E).droppedSet = (Selection.of A' E').droppedSet := by
  have locations : A.toFinset = A'.toFinset := by
    ext l
    simp [places]
  simp only [keptSet_of, excludedSet_of, droppedSet_of, locations, Location.excluded_congr same,
    and_self]

/-- **The laws of filtering.** A selection parts the given locations into three disjoint sets, and
what it keeps is local. Filtering what was kept once more is filtering by both lists of exclusions,
whichever comes first, so that filtering twice is filtering once; neither order nor repeats nor
empty texts count. What is kept and excluded of two sets of locations together is what is kept and
excluded of each, and more exclusions keep less and exclude more. -/
theorem filtering_laws (A B : List Location) (E F : List String) :
    Parts A (Selection.of A E) ∧
    (Selection.of (Selection.of A E).kept F).keptSet = (Selection.of A (E ++ F)).keptSet ∧
    (Selection.of (Selection.of A F).kept E).keptSet = (Selection.of A (E ++ F)).keptSet ∧
    (Selection.of (Selection.of A E).kept E).keptSet = (Selection.of A E).keptSet ∧
    (∀ A' E', (∀ l, l ∈ A ↔ l ∈ A') →
      (∀ pattern, pattern ≠ "" → (pattern ∈ E ↔ pattern ∈ E')) →
        (Selection.of A E).keptSet = (Selection.of A' E').keptSet ∧
        (Selection.of A E).excludedSet = (Selection.of A' E').excludedSet ∧
        (Selection.of A E).droppedSet = (Selection.of A' E').droppedSet) ∧
    (Selection.of (A ++ B) E).keptSet = (Selection.of A E).keptSet ∪ (Selection.of B E).keptSet ∧
    (Selection.of (A ++ B) E).excludedSet =
      (Selection.of A E).excludedSet ∪ (Selection.of B E).excludedSet ∧
    (E ⊆ F → (Selection.of A F).keptSet ⊆ (Selection.of A E).keptSet ∧
      (Selection.of A E).excludedSet ⊆ (Selection.of A F).excludedSet) := by
  refine ⟨parts_of A E, keptSet_kept A E F, ?_, ?_, fun A' E' => of_congr, ?_, ?_, ?_⟩
  · rw [keptSet_kept]
    exact (of_congr (fun _ => Iff.rfl) fun pattern _ => by simp [or_comm]).1
  · rw [keptSet_kept]
    exact (of_congr (fun _ => Iff.rfl) fun pattern _ => by simp).1
  · simp only [keptSet_of, List.toFinset_append, Finset.filter_union]
  · simp only [excludedSet_of, List.toFinset_append, Finset.filter_union]
  · intro more
    simp only [keptSet_of, excludedSet_of]
    refine ⟨Finset.monotone_filter_right _ fun l _ kept => ?_,
      Finset.monotone_filter_right _ fun l _ excluded => excluded.mono more⟩
    exact ⟨fun excluded => kept.1 (excluded.mono more), kept.2⟩

/-- A jar that an exclusion names by its path, another one that stays, and a class of the runtime
image that goes when a second exclusion names it; the locations and the exclusions are also given
in another order, with a repeat and without the empty text. -/
theorem filtering_laws_jars :
    let A : List Location := [⟨"file:///lib/a%20b.jar"⟩, ⟨"jrt:/java.base"⟩]
    let A' : List Location := [⟨"jrt:/java.base"⟩, ⟨"file:///lib/a%20b.jar"⟩, ⟨"jrt:/java.base"⟩]
    let B : List Location := [⟨"file:///lib/c.jar"⟩]
    let E : List String := ["/a b", ""]
    let F : List String := ["", "jrt:", "/a b"]
    (∀ l, l ∈ A ↔ l ∈ A') ∧ E ⊆ F ∧
      (Selection.of A' ["/a b", "/a b"]).excludedSet = {⟨"file:///lib/a%20b.jar"⟩} ∧
      (Selection.of (A ++ B) E).keptSet = {⟨"file:///lib/c.jar"⟩} ∧
      (Selection.of A E).excludedSet ⊆ (Selection.of A F).excludedSet := by
  intro A A' B E F
  have places : ∀ l, l ∈ A ↔ l ∈ A' := by simp [A, A', or_comm]
  have more : E ⊆ F := by simp [E, F]
  obtain ⟨-, -, -, -, congr, kept, -, mono⟩ := filtering_laws A B E F
  have same := (congr A' ["/a b", "/a b"] places (by simp +contextual [E])).2.1
  refine ⟨places, more, same.symm.trans ?_, kept.trans ?_, (mono more).2⟩
  · decide
  · decide

end Selection

end Classpath
