import Classpath.Graph.Summary
import Classpath.Proofs.Action
import Classpath.Proofs.Graph.Sources
import Classpath.Proofs.Text.Order
import Mathlib

/-! # Listings and counts

The listing of a graph has a row for each class (`Classpath.Graph.WellFormed.listing_eq`), and the
counts of a graph can be told from its listing alone (`Classpath.Graph.WellFormed.countsOf_rows`):
how many pairs of a class and a dependency there are, how many places, how many classes without a
place, how many classes for each scheme, and how many classes that no dependency touches.
-/

namespace Classpath

theorem Name.sort_eq {names : List Name} (textual : Name.Textual names) :
    Name.sort names = .ok ((Text.sort (Name.texts names)).map .text) := by
  have all : ∀ texts : List String, (texts.map Name.text).mapM Name.asText? = some texts := by
    intro texts
    induction texts with
    | nil => rfl
    | cons s rest ih =>
      rw [List.map_cons, List.mapM_cons, ih]
      rfl
  have found := all (Name.texts names)
  rw [Name.map_text_texts textual] at found
  rw [Name.sort, found]

namespace Graph

/-- One class in the listing of a graph whose classes go by texts. -/
def row (g : Graph) (name : String) : Listing where
  name := .text name
  location := g.location? (.text name)
  dependencies := (Text.sort (Name.texts (g.dependencies (.text name)))).map .text

theorem WellFormed.listing_eq {g : Graph} (formed : g.WellFormed) :
    g.listing = .ok ((Text.sort (Name.texts g.names)).map g.row) := by
  have rows : ((Text.sort (Name.texts g.names)).map Name.text).mapM (fun name => do
      return (⟨name, g.location? name, ← Name.sort (g.dependencies name)⟩ : Listing)) =
        .ok ((Text.sort (Name.texts g.names)).map g.row) := by
    rw [List.mapM_map]
    apply mapM_eq_ok
    intro name _
    simp only [Function.comp_apply, Name.sort_eq (textual_dependencies formed name)]
    rfl
  simp only [listing, Name.sort_eq formed.texts]
  exact rows

/-! ## What a listing counts -/

/-- The pairs of a class and a class that it refers to. -/
def pairs (rows : List Listing) : List (Name × Name) :=
  rows.flatMap fun row => row.dependencies.map (row.name, ·)

/-- Whether a row refers to no class and no row refers to it. -/
def isAlone (rows : List Listing) (row : Listing) : Bool :=
  row.dependencies.isEmpty && rows.all fun other => !other.dependencies.contains row.name

/-- The counts are those of the listing. -/
structure CountsOf (n : Counts) (rows : List Listing) : Prop where
  classes : n.classes = rows.length
  dependencies : n.dependencies = (pairs rows).toFinset.card
  locations : n.locations = (rows.filterMap fun row => row.location.map Location.uri).toFinset.card
  unlocated : n.unlocated = rows.countP fun row => row.location.isNone
  schemes : (n.schemes.map (·.2)).sum + n.unlocated = n.classes
  scheme : ∀ scheme count, (scheme, count) ∈ n.schemes ↔
    0 < count ∧ count = rows.countP fun row => row.location.map Location.scheme = some scheme
  orphans : n.orphans = rows.countP (isAlone rows)

/-- What a listing counts does not depend on its order. -/
theorem CountsOf.of_perm {n : Counts} {rows rows' : List Listing} (perm : rows.Perm rows')
    (counts : CountsOf n rows) : CountsOf n rows' where
  classes := counts.classes.trans perm.length_eq
  dependencies := by
    rw [counts.dependencies, pairs, pairs, List.toFinset_eq_of_perm _ _ (perm.flatMap_right _)]
  locations := by
    rw [counts.locations, List.toFinset_eq_of_perm _ _ (perm.filterMap _)]
  unlocated := counts.unlocated.trans (perm.countP_eq _)
  schemes := counts.schemes
  scheme scheme count := by rw [counts.scheme, perm.countP_eq]
  orphans := by
    have same : isAlone rows = isAlone rows' := by
      funext row
      rw [isAlone, isAlone, Bool.eq_iff_iff]
      simp [perm.mem_iff]
    rw [counts.orphans, same, perm.countP_eq]

variable {g : Graph}

theorem WellFormed.length_texts (formed : g.WellFormed) :
    (Name.texts g.names).length = g.classes.length := by
  have names := congrArg List.length (Name.map_text_texts formed.texts)
  rw [List.length_map] at names
  rw [names, length_classes formed.numbered, Graph.names, List.length_map]

/-- A class has at most one number. -/
theorem WellFormed.number_inj (formed : g.WellFormed) {i j : Nat} (inside : i < g.names.length)
    (same : g.names[i]? = g.names[j]?) : i = j :=
  (List.getElem?_inj inside formed.numbered.named).mp same

/-- The located classes, each with its place. -/
theorem WellFormed.located_perm (formed : g.WellFormed) :
    g.located.Perm ((Name.texts g.names).filterMap fun s =>
      (g.location? (.text s)).map (Name.text s, ·)) := by
  have apart : (Name.texts g.names).Nodup := Name.nodup_texts formed.texts formed.numbered.named
  refine (List.perm_ext_iff_of_nodup formed.placesApart.of_map ?_).mpr fun entry => ?_
  · refine apart.filterMap fun s t entry ofS ofT => ?_
    obtain ⟨l, -, rfl⟩ := Option.map_eq_some_iff.mp ofS
    obtain ⟨l', -, same⟩ := Option.map_eq_some_iff.mp ofT
    exact (Name.text.inj (congrArg Prod.fst same)).symm
  · rw [List.mem_filterMap]
    constructor
    · intro member
      obtain ⟨s, same⟩ := formed.texts entry.1 (formed.places entry member)
      refine ⟨s, Name.mem_texts.mpr (same ▸ formed.places entry member), ?_⟩
      have found := (lookup_eq_some_iff_mem formed.placesApart).mpr member
      rw [location?, nameFor_text, ← same, found]
      rfl
    · rintro ⟨s, -, found⟩
      obtain ⟨l, place, rfl⟩ := Option.map_eq_some_iff.mp found
      rw [location?, nameFor_text] at place
      exact (lookup_eq_some_iff_mem formed.placesApart).mp place

theorem WellFormed.mem_pairs (formed : g.WellFormed) {pair : Name × Name} :
    pair ∈ pairs ((Name.texts g.names).map g.row) ↔
      ∃ i j, (i, j) ∈ g.edges ∧ g.names[i]? = some pair.1 ∧ g.names[j]? = some pair.2 := by
  obtain ⟨source, target⟩ := pair
  simp only [pairs, List.mem_flatMap, List.mem_map, row, exists_exists_and_eq_and,
    (Text.perm_sort _).mem_iff, Name.mem_texts, Prod.mk.injEq]
  constructor
  · rintro ⟨s, -, t, refers, rfl, rfl⟩
    exact (mem_dependencies_iff formed.numbered).mp refers
  · rintro ⟨i, j, edge, first, second⟩
    have known := List.mem_of_getElem? first
    obtain ⟨s, rfl⟩ := formed.texts source known
    obtain ⟨t, rfl⟩ := formed.texts target (List.mem_of_getElem? second)
    exact ⟨s, known, t, (mem_dependencies_iff formed.numbered).mpr ⟨i, j, edge, first, second⟩,
      rfl, rfl⟩

/-- There is one edge for each pair of a class and a class that it refers to. -/
theorem WellFormed.length_edges (formed : g.WellFormed) :
    g.edges.length = (pairs ((Name.texts g.names).map g.row)).toFinset.card := by
  let ends : Nat × Nat → Option Name × Option Name := fun edge =>
    (g.names[edge.1]?, g.names[edge.2]?)
  have apart : Set.InjOn ends g.edges.toFinset := by
    intro edge member other member' same
    have bounds := formed.ends edge (List.mem_toFinset.mp member)
    exact Prod.ext (formed.number_inj bounds.1 (congrArg Prod.fst same))
      (formed.number_inj bounds.2 (congrArg Prod.snd same))
  have some_inj : Function.Injective (Prod.map some some : Name × Name → _) :=
    (Option.some_injective _).prodMap (Option.some_injective _)
  have images : g.edges.toFinset.image ends =
      (pairs ((Name.texts g.names).map g.row)).toFinset.image (Prod.map some some) := by
    ext pair
    simp only [Finset.mem_image, List.mem_toFinset, formed.mem_pairs]
    constructor
    · rintro ⟨⟨i, j⟩, member, rfl⟩
      have bounds := formed.ends (i, j) member
      refine ⟨(g.names[i], g.names[j]), ⟨i, j, member, ?_, ?_⟩, ?_⟩ <;>
        simp [ends, bounds.1, bounds.2]
    · rintro ⟨⟨source, target⟩, ⟨i, j, member, first, second⟩, rfl⟩
      exact ⟨(i, j), member, Prod.ext first second⟩
  rw [← List.toFinset_card_of_nodup formed.edgesApart, ← Finset.card_image_of_injOn apart, images,
    Finset.card_image_of_injective _ some_inj]

/-! ## Located classes -/

/-- A count of located classes is a count of rows. -/
theorem WellFormed.count_located (formed : g.WellFormed) (p : Location → Bool) :
    g.located.countP (fun entry => p entry.2) =
      ((Name.texts g.names).map g.row).countP fun row => row.location.any p := by
  rw [formed.located_perm.countP_eq, List.countP_filterMap, List.countP_map]
  refine List.countP_congr fun s _ => ?_
  cases found : g.location? (.text s) <;> simp [row, found]

theorem WellFormed.mem_locations (formed : g.WellFormed) {l : Location} :
    l ∈ g.locations ↔ ∃ s ∈ Name.texts g.names, g.location? (.text s) = some l := by
  rw [locations, mem_distinct, (formed.located_perm.map _).mem_iff, List.map_filterMap,
    List.mem_filterMap]
  simp [Option.map_map, Function.comp_def]

theorem WellFormed.length_locations (formed : g.WellFormed) :
    g.locations.length = (((Name.texts g.names).map g.row).filterMap fun row =>
      row.location.map Location.uri).toFinset.card := by
  have uri_inj : Function.Injective Location.uri := fun _ _ => congrArg Location.mk
  have places : g.locations.toFinset.image Location.uri =
      (((Name.texts g.names).map g.row).filterMap fun row =>
        row.location.map Location.uri).toFinset := by
    ext uri
    rw [Finset.mem_image, List.mem_toFinset, List.filterMap_map, List.mem_filterMap]
    simp only [List.mem_toFinset, formed.mem_locations, Function.comp_apply, row,
      Option.map_eq_some_iff]
    constructor
    · rintro ⟨l, ⟨s, member, found⟩, rfl⟩
      exact ⟨s, member, l, found, rfl⟩
    · rintro ⟨s, member, l, found, rfl⟩
      exact ⟨l, ⟨s, member, found⟩, rfl⟩
  rw [← places, Finset.card_image_of_injective _ uri_inj, List.toFinset_card_of_nodup]
  exact nodup_distinct _

theorem WellFormed.length_unlocated (formed : g.WellFormed) :
    ((Name.texts g.names).map g.row).countP (fun row => row.location.isNone) +
      g.located.length = g.classes.length := by
  have located := formed.count_located fun _ => true
  have some_place : ∀ rows : List Listing, rows.countP (fun row => row.location.any fun _ => true) =
      rows.countP fun row => ¬ row.location.isNone = true := fun rows =>
    List.countP_congr fun row _ => by cases row.location <;> simp
  rw [List.countP_true, some_place] at located
  rw [located, ← List.length_eq_countP_add_countP, List.length_map, formed.length_texts]

/-! ## Orphans -/

/-- Whether no edge touches a class. -/
def isUntouched (g : Graph) (name : Name) : Bool :=
  g.edges.all fun edge => g.names[edge.1]? != some name && g.names[edge.2]? != some name

theorem WellFormed.isOrphan_eq (formed : g.WellFormed) {i : Nat} {name : Name}
    (numbered : (name, i) ∈ g.numbers) : g.isOrphan i = g.isUntouched name := by
  have stands := (mem_numbers_iff formed.numbered).mp numbered
  have here : ∀ j < g.names.length, (j != i) = (g.names[j]? != some name) := by
    intro j inside
    rw [Bool.eq_iff_iff, bne_iff_ne, bne_iff_ne, ← stands]
    exact not_congr ⟨congrArg _, formed.number_inj inside⟩
  rw [isOrphan, isUntouched, Bool.eq_iff_iff, List.all_eq_true, List.all_eq_true]
  refine forall₂_congr fun edge member => ?_
  rw [here _ (formed.ends edge member).1, here _ (formed.ends edge member).2]

theorem WellFormed.isAlone_row (formed : g.WellFormed) (s : String) :
    isAlone ((Name.texts g.names).map g.row) (g.row s) = g.isUntouched (.text s) := by
  have alone : isAlone ((Name.texts g.names).map g.row) (g.row s) = true ↔
      (∀ t, .text t ∉ g.dependencies (.text s)) ∧
        ∀ c, .text c ∈ g.names → .text s ∉ g.dependencies (.text c) := by
    simp [isAlone, row, List.eq_nil_iff_forall_not_mem, (Text.perm_sort _).mem_iff,
      Name.mem_texts]
  have untouched : g.isUntouched (.text s) = true ↔ ∀ i j, (i, j) ∈ g.edges →
      g.names[i]? ≠ some (.text s) ∧ g.names[j]? ≠ some (.text s) := by
    simp [isUntouched]
  rw [Bool.eq_iff_iff, alone, untouched]
  simp only [mem_dependencies_iff formed.numbered]
  constructor
  · rintro ⟨refers, referred⟩ i j edge
    have bounds := formed.ends (i, j) edge
    obtain ⟨c, source⟩ := formed.texts _ (List.getElem_mem bounds.1)
    obtain ⟨t, target⟩ := formed.texts _ (List.getElem_mem bounds.2)
    refine ⟨fun first => refers t ⟨i, j, edge, first, ?_⟩, fun second => ?_⟩
    · rw [List.getElem?_eq_getElem bounds.2, target]
    · refine referred c (source ▸ List.getElem_mem bounds.1) ⟨i, j, edge, ?_, second⟩
      rw [List.getElem?_eq_getElem bounds.1, source]
  · intro untouched
    exact ⟨fun t ⟨i, j, edge, first, _⟩ => (untouched i j edge).1 first,
      fun c _ ⟨i, j, edge, _, second⟩ => (untouched i j edge).2 second⟩

theorem WellFormed.length_orphans (formed : g.WellFormed) :
    (g.classes.filter fun entry => g.isOrphan entry.1).length =
      ((Name.texts g.names).map g.row).countP (isAlone ((Name.texts g.names).map g.row)) := by
  calc (g.classes.filter fun entry => g.isOrphan entry.1).length
      = g.numbers.countP fun entry => g.isOrphan entry.2 := by
        rw [← List.countP_eq_length_filter, formed.numbered.swapped, List.countP_map]
        rfl
    _ = g.names.countP g.isUntouched := by
        rw [Graph.names, List.countP_map]
        exact List.countP_congr fun entry member => by
          rw [formed.isOrphan_eq member, Function.comp_apply]
    _ = (Name.texts g.names).countP fun s => g.isUntouched (.text s) := by
        conv_lhs => rw [← Name.map_text_texts formed.texts, List.countP_map]
        rfl
    _ = _ := by
        rw [List.countP_map]
        exact List.countP_congr fun s _ => by rw [Function.comp_apply, formed.isAlone_row]

/-! ## All counts -/

/-- The schemes of the located classes, one for each class. -/
def schemes (g : Graph) : List String :=
  g.located.map fun entry => entry.2.scheme

theorem mem_schemes {scheme : String} {count : Nat} :
    (scheme, count) ∈ g.counts.schemes ↔ 0 < count ∧ count = g.schemes.count scheme := by
  change (scheme, count) ∈ (distinct g.schemes).map (fun s => (s, g.schemes.count s)) ↔ _
  rw [List.mem_map]
  constructor
  · rintro ⟨_, member, same⟩
    cases same
    exact ⟨List.count_pos_iff.mpr (mem_distinct.mp member), rfl⟩
  · rintro ⟨positive, rfl⟩
    exact ⟨scheme, mem_distinct.mpr (List.count_pos_iff.mp positive), rfl⟩

theorem sum_schemes : (g.counts.schemes.map (·.2)).sum = g.located.length := by
  have perm : (distinct g.schemes).Perm g.schemes.dedup :=
    (List.perm_ext_iff_of_nodup (nodup_distinct _) (List.nodup_dedup _)).mpr (by simp)
  calc (g.counts.schemes.map (·.2)).sum
      = ((distinct g.schemes).map fun s => g.schemes.count s).sum := by
        rw [counts, List.map_map]
        rfl
    _ = (g.schemes.dedup.map fun s => g.schemes.count s).sum := (perm.map _).sum_eq
    _ = g.located.length := by
        rw [List.sum_map_count_dedup_eq_length, schemes, List.length_map]

/-- **The counts of a graph are those of its listing.** -/
theorem WellFormed.countsOf_rows (formed : g.WellFormed) :
    CountsOf g.counts ((Text.sort (Name.texts g.names)).map g.row) := by
  have unlocated := formed.length_unlocated
  refine CountsOf.of_perm ((Text.perm_sort _).map g.row).symm ?_
  refine ⟨?_, formed.length_edges, formed.length_locations, ?_, ?_, ?_, formed.length_orphans⟩
  · rw [List.length_map, formed.length_texts, counts]
  · simp only [counts]
    omega
  · rw [sum_schemes]
    simp only [counts]
    omega
  · intro scheme count
    have located := formed.count_located fun l => l.scheme == scheme
    rw [mem_schemes, schemes, List.count, List.countP_map]
    refine and_congr_right fun _ => ?_
    rw [show ((· == scheme) ∘ fun entry : Name × Location => entry.2.scheme) =
      fun entry => entry.2.scheme == scheme from rfl, located]
    refine Eq.congr_right (List.countP_congr fun row _ => ?_)
    cases row.location <;> simp

end Graph

end Classpath
