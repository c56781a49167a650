import Classpath.Proofs.FileTree.Spelling
import Classpath.Proofs.Uri.Renumbered
import Classpath.Proofs.Uri.Reread
import Classpath.Location

/-! # Paths that differ in a number

Where the texts of two paths differ in numbers only, so do their names, also once the paths are
joined or collapsed (`Classpath.Path.Renumbered`). Whether a path is accepted as a location does not
depend on the numbers in it (`Classpath.Location.exists_of_renumbered`), unless it is spelled as a
`file` URI with escapes.
-/

namespace Classpath

/-! ## Paths -/

namespace Path

/-- Names that are the same but for numbers. -/
def NamesRenumbered (names names' : List String) : Prop :=
  List.Forall₂ (fun name name' => Text.Renumbered name.toList name'.toList) names names'

/-- Paths that are the same but for numbers. -/
structure Renumbered (p p' : Path) : Prop where
  start : p.start = p'.start
  names : NamesRenumbered p.names p'.names

theorem NamesRenumbered.refl (names : List String) : NamesRenumbered names names :=
  List.forall₂_same.mpr fun name _ => .refl name.toList

/-- A short name is the same. -/
theorem eq_iff_of_renumbered {name name' : String}
    (same : Text.Renumbered name.toList name'.toList) (short : String)
    (few : short.toList.length ≤ 4) :
    name = short ↔ name' = short := by
  constructor <;> rintro rfl
  · exact String.toList_inj.mp (same.eq_of_short few).symm
  · exact String.toList_inj.mp (same.symm.eq_of_short few).symm

theorem startOf_eq {cs cs' : List Char} (same : Text.Renumbered cs cs') :
    startOf cs = startOf cs' := by
  rw [startOf_eq_slashes, startOf_eq_slashes,
    (same.takeWhile (p := (· = '/')) (by decide)).length_eq]

namespace Renumbered

variable {p p' : Path}

protected theorem symm (same : Renumbered p p') : Renumbered p' p :=
  ⟨same.start.symm, same.names.flip.imp fun _ _ => Text.Renumbered.symm⟩

theorem ofText {s s' : String} (same : Text.Renumbered s.toList s'.toList) :
    Renumbered (ofText s) (ofText s') := by
  refine ⟨startOf_eq same, ?_⟩
  have parts := same.splitOn '/' (by decide)
  rw [NamesRenumbered, names_ofText, names_ofText, segments, segments]
  generalize s.toList.splitOn '/' = found, s'.toList.splitOn '/' = found' at parts
  induction parts with
  | nil => exact .nil
  | @cons part part' _ _ first _ ih =>
    have named : Text.Renumbered (String.ofList part).toList (String.ofList part').toList := by
      simpa only [String.toList_ofList] using first
    have counts : counts (String.ofList part) = counts (String.ofList part') := by
      simp only [Path.counts, ne_eq, eq_iff_of_renumbered named "" (by decide),
        eq_iff_of_renumbered named "." (by decide)]
    rw [List.map_cons, List.map_cons, List.filter_cons, List.filter_cons, counts]
    split
    · exact .cons named ih
    · exact ih

theorem join (same : Renumbered p p') (q : Path) : Renumbered (p.join q) (p'.join q) := by
  unfold Path.join
  split
  · exact ⟨rfl, .refl _⟩
  · exact ⟨same.start, List.rel_append same.names (NamesRenumbered.refl _)⟩

theorem isAbsolute_eq (same : Renumbered p p') : p.isAbsolute = p'.isAbsolute := by
  rw [isAbsolute, isAbsolute, same.start]

theorem text (same : Renumbered p p') : Text.Renumbered p.text.toList p'.text.toList := by
  have names : p.names = [] ↔ p'.names = [] := by
    rw [← List.length_eq_zero_iff, same.names.length_eq, List.length_eq_zero_iff]
  by_cases nameless : p.names = []
  · rw [Path.text, Path.text, nameless, names.mp nameless, same.start]
    exact .refl _
  · rw [toList_text_of_names nameless, toList_text_of_names (mt names.mpr nameless), same.start]
    refine (Text.Renumbered.refl _).append (.intercalate _ ?_)
    exact List.forall₂_map_left_iff.mpr (List.forall₂_map_right_iff.mpr same.names)

theorem ascend (absolute : Bool) {above above' : List String} {name name' : String}
    (before : NamesRenumbered above above')
    (same : Text.Renumbered name.toList name'.toList) :
    NamesRenumbered (ascend absolute above name) (ascend absolute above' name') := by
  unfold Path.ascend
  simp only [ne_eq, eq_iff_of_renumbered same ".." (by decide)]
  split
  · exact .cons same before
  · cases before with
    | nil => exact .refl _
    | cons top rest =>
      simp only [eq_iff_of_renumbered top ".." (by decide)]
      split
      · exact .cons (.refl _) (.cons top rest)
      · exact rest

theorem collapse (same : Renumbered p p') : Renumbered p.collapse p'.collapse := by
  refine ⟨same.start, List.rel_reverse ?_⟩
  rw [same.isAbsolute_eq]
  -- A number is too long to be two dots, so both paths go up at the same names.
  have each : ∀ {names names' above above' : List String}, NamesRenumbered names names' →
      NamesRenumbered above above' → NamesRenumbered
        (names.foldl (Path.ascend p'.isAbsolute) above)
        (names'.foldl (Path.ascend p'.isAbsolute) above') := by
    intro names names' above above' same before
    induction same generalizing above above' with
    | nil => exact before
    | cons first _ ih => exact ih (ascend _ before first)
  exact each same.names .nil

theorem absolute (same : Renumbered p p') (workingDirectory : Path) :
    Renumbered (Path.absolute workingDirectory p) (Path.absolute workingDirectory p') := by
  refine collapse ?_
  unfold Path.join
  rw [same.isAbsolute_eq]
  split
  · exact same
  · exact ⟨rfl, List.rel_append (NamesRenumbered.refl _) same.names⟩

end Renumbered

end Path

/-! ## Locations -/

namespace Location

variable {workingDirectory p p' : Path} {s s' : String}

theorem exists_localUri (same : p.Renumbered p')
    (accepted : ∃ uri, localUri workingDirectory p = .ok uri) :
    ∃ uri, localUri workingDirectory p' = .ok uri := by
  have text := (same.absolute workingDirectory).text
  have paired : ∀ cs : List Char, Text.unpaired? 0 cs = none ↔
      cs.all (fun c => (Text.smuggledByte? c).isSome || (Text.surrogate? c).isNone) = true := by
    intro cs
    rw [Uri.unpaired?_eq_none_iff, List.all_eq_true]
    refine forall₂_congr fun c _ => ?_
    cases Text.smuggledByte? c <;> simp
  have iff : Text.unpaired? 0 (Path.absolute workingDirectory p).text.toList = none ↔
      Text.unpaired? 0 (Path.absolute workingDirectory p').text.toList = none := by
    rw [paired, paired, text.all_eq (by decide)]
  unfold localUri at accepted ⊢
  dsimp only at accepted ⊢
  split at accepted
  · obtain ⟨uri, ended⟩ := accepted
    cases ended
  next whole =>
    rw [iff.mp whole]
    exact ⟨_, rfl⟩

/-- No escape is read in a text: it spells no `file` URI, or it has no percent sign. -/
def Literal (s : String) : Prop :=
  (Uri.Reference.ofText s).scheme = fileScheme.toList → '%' ∉ s.toList

/-- The text of an absolute path spells no URI. -/
theorem literal_of_absolute (rooted : p.isAbsolute = true) : Literal (Text.trim p.text) := by
  obtain ⟨rest, trimmed⟩ := Path.exists_trim_slash rooted
  intro file
  rw [Uri.Reference.ofText, trimmed, Uri.Reference.scheme_slash] at file
  cases file

/-- A word without digits is the same. -/
theorem eq_word_iff {cs cs' : List Char} (same : Text.Renumbered cs cs') (word : String)
    (free : Text.Digitless word.toList) : cs = word.toList ↔ cs' = word.toList := by
  constructor <;> rintro rfl
  · exact (same.eq_of_digitless free).symm
  · exact (same.symm.eq_of_digitless free).symm

theorem Literal.renumbered (literal : Literal s) (same : Text.Renumbered s.toList s'.toList) :
    Literal s' := by
  intro file
  have percent := same.contains_eq (c := '%') (by decide)
  rw [Bool.eq_iff_iff, List.contains_iff_mem, List.contains_iff_mem] at percent
  exact mt percent.mpr (literal ((eq_word_iff (Uri.Reference.renumbered_ofChars same).1 fileScheme
    (by decide)).mpr file))

/-- The path of a reference without a percent sign is decoded to itself. -/
theorem decode_path (free : '%' ∉ s.toList) :
    Uri.decode (Uri.Reference.ofText s).path = (Uri.Reference.ofText s).path :=
  Uri.decode_of_not_mem fun member => free (Uri.Reference.mem_path_ofChars member)

theorem exists_normalForm (same : Text.Renumbered s.toList s'.toList) (literal : Literal s)
    (accepted : ∃ uri, normalForm workingDirectory s = .ok uri) :
    ∃ uri, normalForm workingDirectory s' = .ok uri := by
  have literal' := literal.renumbered same
  obtain ⟨scheme, authority, path⟩ := Uri.Reference.renumbered_ofChars same
  change Text.Renumbered (Uri.Reference.ofText s).scheme (Uri.Reference.ofText s').scheme at scheme
  change Text.Renumbered (Uri.Reference.ofText s).authority _ at authority
  change Text.Renumbered (Uri.Reference.ofText s).path (Uri.Reference.ofText s').path at path
  have machine : isThisMachine (Uri.Reference.ofText s).authority =
      isThisMachine (Uri.Reference.ofText s').authority := by
    rw [isThisMachine, isThisMachine, authority.isEmpty_eq,
      decide_eq_decide.mpr (eq_word_iff authority "localhost" (by decide))]
    rfl
  unfold normalForm at accepted ⊢
  simp only [ne_eq, scheme.length_eq, eq_word_iff scheme fileScheme (by decide), machine]
    at accepted ⊢
  split
  next short =>
    rw [if_pos short] at accepted
    exact exists_localUri (.ofText same) accepted
  next long =>
    rw [if_neg long] at accepted
    split
    · exact ⟨_, rfl⟩
    next file =>
      rw [not_not] at file
      rw [if_neg (not_not.mpr file)] at accepted
      split
      next here =>
        have file' := (eq_word_iff scheme fileScheme (by decide)).mpr file
        rw [if_pos here, decode_path (literal file')] at accepted
        rw [decode_path (literal' file)]
        refine exists_localUri (.ofText ?_) accepted
        rw [path.isEmpty_eq, String.toList_ofList, String.toList_ofList]
        split
        · exact .refl _
        · exact path
      · exact ⟨_, rfl⟩

theorem trim_renumbered (same : Text.Renumbered s.toList s'.toList) :
    Text.Renumbered (Text.trim s).toList (Text.trim s').toList := by
  rw [Text.trim, Text.trim, String.toList_ofList, String.toList_ofList]
  exact (((same.dropWhile (by decide)).reverse).dropWhile (by decide)).reverse

theorem exists_of_path_iff :
    (∃ l, of workingDirectory (.path p) = .ok l) ↔ Text.blank p.text = false ∧
      Uri.hostFault? (Uri.Reference.ofText (Text.trim p.text)).authority = none ∧
      ∃ uri, normalForm workingDirectory (Text.trim p.text) = .ok uri := by
  unfold of ofText normalize
  dsimp only
  cases blank : Text.blank p.text with
  | true => simp [Except.mapError]
  | false =>
    cases Uri.hostFault? (Uri.Reference.ofText (Text.trim p.text)).authority with
    | some fault => simp [Except.map, Except.mapError]
    | none =>
      cases normalForm workingDirectory (Text.trim p.text) <;> simp [Except.map, Except.mapError]

/-- A path that is accepted as a location is accepted with other numbers in it, too. -/
theorem exists_of_renumbered (same : p.Renumbered p') (literal : Literal (Text.trim p.text))
    (accepted : ∃ l, of workingDirectory (.path p) = .ok l) :
    ∃ l, of workingDirectory (.path p') = .ok l := by
  obtain ⟨visible, standing, normal⟩ := exists_of_path_iff.mp accepted
  have trimmed := trim_renumbered same.text
  have authority : Text.Renumbered (Uri.Reference.ofText (Text.trim p.text)).authority
      (Uri.Reference.ofText (Text.trim p'.text)).authority :=
    (Uri.Reference.renumbered_ofChars trimmed).2.1
  have blank : Text.blank p.text = Text.blank p'.text := same.text.all_eq (by decide)
  have host := Uri.isSome_hostFault? authority
  rw [standing] at host
  exact exists_of_path_iff.mpr ⟨blank.symm.trans visible,
    Option.isNone_iff_eq_none.mp (Option.isSome_eq_false_iff.mp host.symm),
    exists_normalForm trimmed literal normal⟩

end Location

end Classpath
