import Classpath.Proofs.Filtering

/-! # The warning that everything is excluded

A resolution warns of its exclusions when it keeps no location and some are excluded
(`Classpath.Resolution.allExcluded_iff`). The warning counts every location that was found. It is
true of all of them unless some were dropped for being elsewhere than in the local file system, and
then it is given although not all were excluded (`Classpath.Resolution.warns_truthfully_iff`).
-/

namespace Classpath

namespace Selection

variable {A : List Location} {E : List String}

theorem kept_eq_nil_iff : (Selection.of A E).kept = [] ↔
    ∀ l ∈ A, l.Excluded E ∨ l.scheme ≠ Location.fileScheme := by
  simp only [List.eq_nil_iff_forall_not_mem, mem_kept_iff, not_and, or_iff_not_imp_left, ne_eq]

theorem excluded_ne_nil_iff : (Selection.of A E).excluded ≠ [] ↔ ∃ l ∈ A, l.Excluded E := by
  simp only [ne_eq, List.eq_nil_iff_forall_not_mem, not_forall, not_not, mem_excluded_iff]

theorem dropped_eq_nil_iff : (Selection.of A E).dropped = [] ↔
    ∀ l ∈ A, l.Excluded E ∨ l.scheme = Location.fileScheme := by
  simp only [List.eq_nil_iff_forall_not_mem, mem_dropped_iff, not_and, or_iff_not_imp_left,
    not_ne_iff]

/-- All locations are excluded when some are and none of them stays or is dropped. -/
theorem all_excluded_iff : (A ≠ [] ∧ ∀ l ∈ A, l ∈ (Selection.of A E).excluded) ↔
    (Selection.of A E).excluded ≠ [] ∧ (Selection.of A E).kept = [] ∧
      (Selection.of A E).dropped = [] := by
  rw [excluded_ne_nil_iff, kept_eq_nil_iff, dropped_eq_nil_iff]
  constructor
  · rintro ⟨filled, all⟩
    have each : ∀ l ∈ A, l.Excluded E := fun l member => (mem_excluded_iff.mp (all l member)).2
    obtain ⟨l, member⟩ := List.exists_mem_of_ne_nil A filled
    exact ⟨⟨l, member, each l member⟩, fun l member => Or.inl (each l member),
      fun l member => Or.inl (each l member)⟩
  · rintro ⟨⟨first, member, -⟩, notLocal, isLocal⟩
    refine ⟨List.ne_nil_of_mem member, fun l member => mem_excluded_iff.mpr ⟨member, ?_⟩⟩
    rcases notLocal l member with excluded | remote
    · exact excluded
    · exact (isLocal l member).resolve_right remote

end Selection

namespace Resolution

/-- The warnings of a resolution. -/
def warnings (r : Resolution) (exclusions : List Value) : List Notice :=
  (Resolver.resolutionNotices r exclusions).filter fun notice => notice.weight = .warning

/-- Skipped roots and dropped locations are no warnings. -/
theorem warnings_eq (r : Resolution) (exclusions : List Value) :
    r.warnings exclusions = (Resolver.warning? r exclusions).toList := by
  have skipped : (r.closure.skippedRoots.map Notice.rootSkipped).filter
      (fun notice => notice.weight = .warning) = [] := by
    refine List.filter_eq_nil_iff.mpr fun notice member => ?_
    obtain ⟨name, -, rfl⟩ := List.mem_map.mp member
    exact Bool.false_ne_true
  have dropped : (r.selection.dropped.map fun l => Notice.remoteDropped l.uri).filter
      (fun notice => notice.weight = .warning) = [] := by
    refine List.filter_eq_nil_iff.mpr fun notice member => ?_
    obtain ⟨l, -, rfl⟩ := List.mem_map.mp member
    exact Bool.false_ne_true
  unfold warnings Resolver.resolutionNotices Resolver.warning?
  rw [List.filter_append, List.filter_append, skipped, dropped]
  split <;> rfl

/-- The locations that were found are told apart. -/
theorem nodup_reached (g : Graph) (roots : List Name) : (reached g roots).locations.Nodup := by
  unfold reached
  split
  · exact nodup_distinct _
  · exact Graph.invariant_finish.locatedApart

section

variable {g : Graph} {roots : List Name} {exclusions : List String}

/-- A resolution warns when an exclusion occurs in some location that was found, and each of the
others is outside the local file system. -/
theorem allExcluded_iff : (of g roots exclusions).allExcluded = true ↔
    (∃ l ∈ (reached g roots).locations, l.Excluded exclusions) ∧
      ∀ l ∈ (reached g roots).locations,
        l.Excluded exclusions ∨ l.scheme ≠ Location.fileScheme := by
  rw [← Selection.excluded_ne_nil_iff, ← Selection.kept_eq_nil_iff]
  simp only [allExcluded, of, Bool.and_eq_true, Bool.not_eq_true', List.isEmpty_iff,
    List.isEmpty_eq_false_iff]
  constructor
  · exact fun ⟨⟨_, kept⟩, excluded⟩ => ⟨excluded, kept⟩
  · rintro ⟨excluded, kept⟩
    obtain ⟨l, member, -⟩ := Selection.excluded_ne_nil_iff.mp excluded
    exact ⟨⟨List.ne_nil_of_mem member, kept⟩, excluded⟩

theorem warnings_of : (of g roots exclusions).warnings (exclusions.map .text) =
    if (∃ l ∈ (reached g roots).locations, l.Excluded exclusions) ∧
        ∀ l ∈ (reached g roots).locations, l.Excluded exclusions ∨ l.scheme ≠ Location.fileScheme
    then [.allExcluded (reached g roots).locations.length (exclusions.map .text)] else [] := by
  rw [warnings_eq, Resolver.warning?]
  simp only [allExcluded_iff]
  split <;> rfl

end

/-- **When the warning is true.** A resolution gives no warning or one, which counts the distinct
locations that were found. It is given when some of them are excluded and all the others are outside
the local file system. That it is given exactly when locations were found and all of them are
excluded holds unless some are excluded, none is kept and some are dropped. -/
theorem warns_truthfully_iff (g : Graph) (roots : List Name) (exclusions : List String) :
    let r := of g roots exclusions
    let found := r.closure.locations
    let warning := Notice.allExcluded found.length (exclusions.map .text)
    found.Nodup ∧
    r.warnings (exclusions.map .text) =
      (if (∃ l ∈ found, l.Excluded exclusions) ∧
          ∀ l ∈ found, l.Excluded exclusions ∨ l.scheme ≠ Location.fileScheme
        then [warning] else []) ∧
    ((r.warnings (exclusions.map .text) = [warning] ↔
        found ≠ [] ∧ ∀ l ∈ found, l ∈ r.selection.excluded) ↔
      ¬(r.selection.excluded ≠ [] ∧ r.selection.kept = [] ∧ r.selection.dropped ≠ [])) := by
  intro r found warning
  have given := @warnings_of g roots exclusions
  refine ⟨nodup_reached g roots, given, ?_⟩
  have warned : r.warnings (exclusions.map .text) = [warning] ↔
      r.selection.excluded ≠ [] ∧ r.selection.kept = [] := by
    have parts : r.selection = Selection.of found exclusions := rfl
    rw [parts, Selection.excluded_ne_nil_iff, Selection.kept_eq_nil_iff, given]
    split
    next holds => exact iff_of_true rfl holds
    next fails => exact iff_of_false (List.cons_ne_nil _ _).symm fails
  have all_excluded : (found ≠ [] ∧ ∀ l ∈ found, l ∈ r.selection.excluded) ↔
      r.selection.excluded ≠ [] ∧ r.selection.kept = [] ∧ r.selection.dropped = [] :=
    Selection.all_excluded_iff
  rw [warned, all_excluded, ← and_assoc, ← and_assoc, iff_self_and, not_and, not_ne_iff]

/-- A jar is excluded and another one is dropped for being on a host. The warning says that both
were excluded. -/
theorem warns_of_dropped :
    let jar : Location := ⟨"file:///lib/a.jar"⟩
    let remote : Location := ⟨"http://h/b.jar"⟩
    let g := ((Graph.empty.addClass (.ofText "/w") (.text "A")
      (some (.value (.text "/lib/a.jar")))).1.addClass (.ofText "/w") (.text "B")
        (some (.value (.text "http://h/b.jar")))).1
    let r := of g [] ["a.jar"]
    r.closure.locations = [jar, remote] ∧
      (r.warnings [.text "a.jar"]).map Notice.message =
        ["All 2 resolved locations were excluded by ['a.jar']"] ∧
      r.selection.excluded = [jar] ∧ remote ∉ r.selection.excluded := by
  intro jar remote g r
  have located : g.located = [(.text "A", jar), (.text "B", remote)] := by decide +kernel
  have found : r.closure.locations = [jar, remote] := by
    change distinct (g.located.map Prod.snd) = _
    rw [located]
    decide
  have parts : r.selection = Selection.of [jar, remote] ["a.jar"] := by
    rw [← found]
    rfl
  have excluded : r.selection.excluded = [jar] := by
    rw [parts]
    decide +kernel
  refine ⟨found, ?_, excluded, by rw [excluded]; decide⟩
  rw [warnings_eq, Resolver.warning?, Resolution.allExcluded, found, parts]
  decide +kernel

end Resolution

end Classpath
