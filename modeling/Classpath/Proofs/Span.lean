import Classpath.Proofs.FileTree.Spelling
import Classpath.Proofs.Stability
import Mathlib

/-! # How long paths are

The characters of the names of a path, with a slash for each, are no more than those of a text that
the path is read from (`Classpath.Path.span_namesIn_le`). Collapsing and decoding never add any
(`Classpath.Path.span_absolute_le`, `Classpath.Path.span_decoded_le`). So a text that loses a blank
by trimming is read as another path (`Classpath.Path.span_trim_lt`).
-/

namespace Classpath.Path

/-- The number of characters of some names, with a slash for each. -/
def span (names : List String) : Nat :=
  (names.map fun name => name.toList.length + 1).sum

theorem span_cons (name : String) (names : List String) :
    span (name :: names) = name.toList.length + 1 + span names :=
  List.sum_cons

theorem span_append (names more : List String) : span (names ++ more) = span names + span more := by
  rw [span, List.map_append, List.sum_append]
  rfl

theorem span_reverse (names : List String) : span names.reverse = span names := by
  rw [span, List.map_reverse, List.sum_reverse]
  rfl

theorem span_filter_le (keep : String → Bool) (names : List String) :
    span (names.filter keep) ≤ span names := by
  induction names with
  | nil => exact Nat.le_refl _
  | cons name rest ih =>
    rw [List.filter_cons, span_cons]
    split
    · rw [span_cons]
      omega
    · omega

theorem length_intercalate {parts : List String} (some_part : parts ≠ []) :
    (List.intercalate ['/'] (parts.map String.toList)).length + 1 = span parts := by
  induction parts with
  | nil => exact absurd rfl some_part
  | cons part rest ih =>
    cases rest with
    | nil => simp [span]
    | cons next rest =>
      have later := ih (by simp)
      rw [span_cons, ← later]
      simp only [List.map_cons, List.intercalate_cons_cons, List.length_append, List.length_cons,
        List.length_nil]
      omega

/-- The names in a text are no longer than the text. -/
theorem span_namesIn_le (cs : List Char) : span (namesIn cs) ≤ cs.length + 1 := by
  have whole : (cs.splitOn '/').map String.ofList ≠ [] := by simp [List.splitOn_ne_nil]
  have joined : ((cs.splitOn '/').map String.ofList).map String.toList = cs.splitOn '/' := by
    simp [Function.comp_def]
  have size := length_intercalate whole
  rw [joined, List.intercalate_splitOn] at size
  rw [namesIn, size]
  exact span_filter_le _ _

theorem span_ascend_le (absolute : Bool) (above : List String) (name : String) :
    span (ascend absolute above name) ≤ span above + (name.toList.length + 1) := by
  unfold ascend
  split
  · rw [span_cons]
    omega
  next up =>
    cases not_not.mp up
    cases above with
    | nil => cases absolute <;> decide
    | cons top rest =>
      dsimp only
      split <;> simp only [span_cons] <;> omega

theorem span_foldl_ascend_le (absolute : Bool) (names above : List String) :
    span (names.foldl (ascend absolute) above) ≤ span above + span names := by
  induction names generalizing above with
  | nil => exact Nat.le_refl _
  | cons name rest ih =>
    have first := span_ascend_le absolute above name
    have later := ih (ascend absolute above name)
    rw [List.foldl_cons, span_cons]
    omega

/-- Collapsing adds no characters to those of the names, and the working directory adds its own only
to a relative path. -/
theorem span_absolute_le (workingDirectory p : Path) :
    span (absolute workingDirectory p).names ≤
      (if p.isAbsolute then 0 else span workingDirectory.names) + span p.names := by
  rw [absolute, collapse, span_reverse]
  refine (span_foldl_ascend_le _ _ _).trans ?_
  rw [join]
  split
  · exact Nat.le_refl _
  · rw [span_append]
    exact (Nat.zero_add _).le

/-- Where nothing goes up, all characters are kept. -/
theorem span_absolute {workingDirectory p : Path} (working : workingDirectory.Canonical)
    (plain : Plain p.names) :
    span (absolute workingDirectory p).names =
      (if p.isAbsolute then 0 else span workingDirectory.names) + span p.names := by
  have kept : Plain (workingDirectory.join p).names := by
    rw [join]
    split
    · exact plain
    · intro up
      rcases List.mem_append.mp up with above | below
      · exact working.plain above
      · exact plain below
  rw [absolute, collapse_of_plain (isAbsolute_join working.rooted) kept, join]
  split
  · exact (Nat.zero_add _).symm
  · exact span_append _ _

/-- Decoding adds no characters to a name. -/
theorem span_decoded_le (p : Path) : span p.decoded.names ≤ span p.names := by
  rw [decoded]
  generalize p.names = names
  induction names with
  | nil => exact Nat.le_refl _
  | cons name rest ih =>
    have short : (decodedName name).toList.length ≤ name.toList.length := by
      rw [decodedName, String.toList_ofList]
      exact Uri.length_ofUtf8Lossy_flatMap_le _
    simp only [List.map_cons, span_cons] at ih ⊢
    omega

/-! ## Texts -/

theorem length_text {p : Path} (some_name : p.names ≠ []) :
    p.text.toList.length + 1 = p.start.text.toList.length + span p.names := by
  rw [toList_text_of_names some_name, List.length_append, Nat.add_assoc,
    length_intercalate some_name]

/-- A text that loses a blank by trimming is read as a path with shorter names. -/
theorem span_trim_lt {p : Path} (some_name : p.names ≠ []) (changed : Text.trim p.text ≠ p.text) :
    span (ofText (Text.trim p.text)).names < span p.names := by
  obtain ⟨rest, trimmed⟩ := exists_trim p
  have shorter : (Text.trim p.text).toList.length < p.text.toList.length :=
    Nat.lt_of_not_le fun whole => changed (Text.trim_of_length whole)
  have size := length_text some_name
  have names : (ofText (Text.trim p.text)).names = namesIn rest := by
    rw [← String.ofList_toList (s := Text.trim p.text), ofText_ofList, trimmed,
      namesIn_append_slashes]
  have bound := span_namesIn_le rest
  rw [trimmed, List.length_append] at shorter
  rw [names]
  omega

end Classpath.Path
