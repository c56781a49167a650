import Classpath.Proofs.FileTree.Fresh
import Classpath.Proofs.Text.Blank

/-! # Spelled paths

A look-up of a text goes by what stands between its slashes, and empty names and single dots in it
count for nothing: where a text leads to a place, the names of its path lead there, too
(`Classpath.FileTree.follow_names_of_locate`), and the text of the path is no longer
(`Classpath.Path.utf8ByteSize_text_ofText_le`). A path made of names is looked up by them from the
root or from the working directory (`Classpath.FileTree.locate_names`), and through directories to
where they say (`Classpath.FileTree.locate_followable`). If it goes up nowhere, its absolute form
leads to the same place (`Classpath.FileTree.Direct.locate_absolute`).
-/

namespace Classpath

theorem Text.utf8ByteSize_le_of_sublist {cs ds : List Char} (part : cs.Sublist ds) :
    (String.ofList cs).utf8ByteSize ≤ (String.ofList ds).utf8ByteSize := by
  induction part with
  | slnil => exact Nat.le_refl _
  | cons d _ ih =>
    rw [String.ofList_cons, String.utf8ByteSize_append]
    exact Nat.le_add_left_of_le ih
  | cons_cons d _ ih =>
    rw [String.ofList_cons, String.ofList_cons, String.utf8ByteSize_append,
      String.utf8ByteSize_append]
    exact Nat.add_le_add_left ih _

namespace Path

/-- Whether what stands between two slashes counts as a name. -/
def counts (name : String) : Bool :=
  name ≠ "" && name ≠ "."

theorem names_ofText (s : String) : (ofText s).names = (segments s).filter counts :=
  rfl

theorem toList_text_of_names {p : Path} (some_name : p.names ≠ []) :
    p.text.toList =
      p.start.text.toList ++ List.intercalate ['/'] (p.names.map String.toList) := by
  simp [text, some_name, String.toList_intercalate]

/-- The start of a path is read back from its text. -/
theorem startOf_text_of_names {p : Path} (normal : p.Normal) (some_name : p.names ≠ []) :
    startOf p.text.toList = p.start := by
  have stop := head?_intercalate_ne normal
  rw [toList_text_of_names some_name]
  by_cases relative : p.start = .here
  · rw [relative]
    cases chars : List.intercalate ['/'] (p.names.map String.toList) with
    | nil => rfl
    | cons c rest =>
      have other : c ≠ '/' := by simpa [chars] using stop
      simp [Start.text, startOf, other]
  · exact startOf_append_slashes _ relative stop

/-- The names of a path stand after the empty names of its slashes. -/
theorem exists_segments_of_names {p : Path} (normal : p.Normal) (some_name : p.names ≠ []) :
    ∃ n, segments p.text = List.replicate n "" ++ p.names ∧ (p.start = .here → n = 0) := by
  have whole : ∀ part ∈ p.names.map String.toList, '/' ∉ part := by
    intro part member
    obtain ⟨name, named, rfl⟩ := List.mem_map.mp member
    exact (normal name named).2.2
  have split := List.splitOn_intercalate '/' whole (by simpa using some_name)
  have names : (p.names.map String.toList).map String.ofList = p.names := by
    simp [Function.comp_def]
  have slash : ∀ cs : List Char, ('/' :: cs).splitOn '/' = [] :: cs.splitOn '/' := fun cs =>
    List.splitOn_append_cons_self [] cs
  rw [segments, toList_text_of_names some_name]
  cases start : p.start with
  | here => exact ⟨0, by simp [Start.text, split, names], fun _ => rfl⟩
  | root => exact ⟨1, by simp [Start.text, slash, split, names], fun here => by cases here⟩
  | doubleRoot =>
    exact ⟨2, by simp [Start.text, slash, split, names, List.replicate],
      fun here => by cases here⟩

/-- A path is read back from its text. -/
theorem ofText_text_of_normal {p : Path} (normal : p.Normal) : ofText p.text = p := by
  obtain ⟨start, names⟩ := p
  by_cases nameless : names = []
  · subst nameless
    cases start <;> decide
  · obtain ⟨n, split, -⟩ := exists_segments_of_names normal nameless
    have counting : ∀ name ∈ names, counts name = true := by
      intro name member
      obtain ⟨some_name, notDot, -⟩ := normal name member
      simp [counts, some_name, notDot]
    have empty : (List.replicate n "").filter counts = [] := by
      simp [counts]
    rw [ofText, startOf_text_of_names normal nameless]
    change (⟨_, (segments _).filter counts⟩ : Path) = _
    rw [split, List.filter_append, empty, List.nil_append, List.filter_eq_self.mpr counting]

/-- The slashes in front of a path are not trimmed. -/
theorem exists_trim (p : Path) :
    ∃ rest, (Text.trim p.text).toList = p.start.text.toList ++ rest := by
  obtain ⟨more, text⟩ : ∃ more, p.text.toList = p.start.text.toList ++ more := by
    by_cases nameless : p.names = []
    · obtain ⟨start, names⟩ := p
      cases nameless
      cases start with
      | here => exact ⟨['.'], rfl⟩
      | root => exact ⟨[], by decide⟩
      | doubleRoot => exact ⟨[], by decide⟩
    · exact ⟨_, toList_text_of_names nameless⟩
  have slash : Text.isBlank '/' = false := by decide
  rw [Text.trim, String.toList_ofList, text]
  cases p.start with
  | here => exact ⟨_, rfl⟩
  | root => exact Text.exists_trimEnds (by simp [Start.text, slash]) (by decide) _
  | doubleRoot => exact Text.exists_trimEnds (by simp [Start.text, slash]) (by decide) _

theorem exists_trim_slash {p : Path} (rooted : p.isAbsolute = true) :
    ∃ rest, (Text.trim p.text).toList = '/' :: rest := by
  obtain ⟨rest, text⟩ := exists_trim p
  rw [text]
  unfold isAbsolute at rooted
  cases start : p.start with
  | here => simp [start] at rooted
  | root => exact ⟨rest, rfl⟩
  | doubleRoot => exact ⟨'/' :: rest, rfl⟩

/-- The last part of a text ends as the text does, and the other parts are told by what is in front
of it. -/
theorem exists_segments_append (front : List Char) :
    ∃ before middle, ∀ last : List Char, '/' ∉ last →
      (front ++ last).splitOn '/' = before ++ [middle ++ last] := by
  induction front with
  | nil => exact ⟨[], [], fun last whole => by simp [List.splitOn_eq_singleton whole]⟩
  | cons c front ih =>
    obtain ⟨before, middle, split⟩ := ih
    by_cases slash : (c == '/') = true
    · refine ⟨[] :: before, middle, fun last whole => ?_⟩
      rw [List.cons_append, List.splitOn_cons_eq_if_modifyHead, split last whole, if_pos slash]
      rfl
    · cases before with
      | nil =>
        refine ⟨[], c :: middle, fun last whole => ?_⟩
        rw [List.cons_append, List.splitOn_cons_eq_if_modifyHead, split last whole, if_neg slash]
        rfl
      | cons first rest =>
        refine ⟨(c :: first) :: rest, middle, fun last whole => ?_⟩
        rw [List.cons_append, List.splitOn_cons_eq_if_modifyHead, split last whole, if_neg slash]
        rfl

theorem intercalate_filter_sublist (kept : List Char → Bool) (parts : List (List Char)) :
    (['/'].intercalate (parts.filter kept)).Sublist (['/'].intercalate parts) := by
  induction parts with
  | nil => exact List.Sublist.refl _
  | cons part rest ih =>
    cases rest with
    | nil => by_cases keeps : kept part = true <;> simp [keeps]
    | cons second rest =>
      rw [List.intercalate_cons_cons]
      by_cases keeps : kept part = true
      · rw [List.filter_cons_of_pos keeps]
        cases others : (second :: rest).filter kept with
        | nil =>
          rw [List.intercalate_singleton, List.append_assoc]
          exact List.sublist_append_left _ _
        | cons next more =>
          rw [List.intercalate_cons_cons, ← others]
          exact ih.append_left _
      · rw [List.filter_cons_of_neg keeps]
        exact ih.trans (List.sublist_append_right _ _)

/-- Reading a path leaves out some of its characters. -/
theorem intercalate_namesIn_sublist (cs : List Char) :
    (['/'].intercalate ((namesIn cs).map String.toList)).Sublist cs := by
  have parts : (namesIn cs).map String.toList =
      (cs.splitOn '/').filter fun part => counts (String.ofList part) := by
    simp [namesIn, List.filter_map, Function.comp_def, counts]
  have less := intercalate_filter_sublist (fun part => counts (String.ofList part))
    (cs.splitOn '/')
  rwa [← parts, List.intercalate_splitOn] at less

theorem text_ofText_sublist {s : String} (some_name : (ofText s).names ≠ []) :
    (ofText s).text.toList.Sublist s.toList := by
  rw [toList_text_of_names some_name]
  have read := ofText_ofList s.toList
  rw [String.ofList_toList] at read
  rw [read]
  have slashes : ∀ (start : Start) (cs : List Char),
      (start.text.toList ++ ['/'].intercalate ((namesIn cs).map String.toList)).Sublist
        (start.text.toList ++ cs) := fun start cs =>
    (intercalate_namesIn_sublist cs).append_left _
  fun_cases startOf s.toList with
  | case1 rest =>
    rw [namesIn_slash]
    exact slashes .root _
  | case2 rest =>
    rw [namesIn_slash, namesIn_slash]
    exact slashes .doubleRoot _
  | case3 rest =>
    rw [namesIn_slash]
    exact slashes .root _
  | case4 => exact slashes .here _

/-- The normal spelling of a path is no longer than the text that it is read from. -/
theorem utf8ByteSize_text_ofText_le {s : String} (some_name : (ofText s).names ≠ []) :
    (ofText s).text.utf8ByteSize ≤ s.utf8ByteSize := by
  have shorter := Text.utf8ByteSize_le_of_sublist (text_ofText_sublist some_name)
  rwa [String.ofList_toList, String.ofList_toList] at shorter

end Path

namespace FileTree

variable {t : FileTree}

/-- What counts for nothing may be left out, unless the last name itself is looked for and what is
left out follows it. -/
theorem follow_leave_out {aim : Aim} {links : Nat} {place found : Place}
    {names front rest : List String} {empty : String} (counts : Path.counts empty = false)
    (later : aim = .target ∨ aim = .name ∧ rest ≠ []) (split : names = front ++ empty :: rest)
    (followed : t.follow aim links place names = .ok found) :
    t.follow aim links place (front ++ rest) = .ok found := by
  have notNew : aim ≠ .newFile := by
    rcases later with rfl | ⟨rfl, -⟩ <;> simp
  have goesOn : ∀ front : List String, ¬ ((front ++ rest).isEmpty && aim = .name) := by
    rcases later with rfl | ⟨rfl, later⟩ <;> simp_all
  have plain : ∀ {name : String} {more : List String}, Passes aim name more → name ≠ empty := by
    rintro _ _ passes rfl
    have notDot := passes.notDot
    simp only [Path.counts, Bool.and_eq_false_iff, decide_eq_false_iff_not, not_not] at counts
    simp [counts] at notDot
  rw [follow_eq_ok_iff] at followed ⊢
  induction followed generalizing front with
  | here => simp at split
  | dot stands dot onward ih =>
    cases front with
    | nil =>
      obtain ⟨rfl, rfl⟩ := List.cons.inj split
      exact onward
    | cons first front =>
      obtain ⟨rfl, rfl⟩ := List.cons.inj split
      exact .dot stands dot (ih rfl)
  | up stands onward ih =>
    cases front with
    | nil =>
      obtain ⟨rfl, rfl⟩ := List.cons.inj split
      cases counts
    | cons first front =>
      obtain ⟨rfl, rfl⟩ := List.cons.inj split
      exact .up stands (ih rfl)
  | link stands passes link last onward ih =>
    cases front with
    | nil => exact absurd (List.cons.inj split).1 (plain passes)
    | cons first front =>
      obtain ⟨rfl, rfl⟩ := List.cons.inj split
      rw [List.cons_append]
      refine .link stands (passes.of_ne_newFile notNew _) link (goesOn _) ?_
      rw [← List.append_assoc]
      exact ih (List.append_assoc _ _ _).symm
  | down stands passes next onward ih =>
    cases front with
    | nil => exact absurd (List.cons.inj split).1 (plain passes)
    | cons first front =>
      obtain ⟨rfl, rfl⟩ := List.cons.inj split
      exact .down stands (passes.of_ne_newFile notNew _) next (ih rfl)
  | last stands passes stops =>
    cases front with
    | nil => exact absurd (List.cons.inj split).1 (plain passes)
    | cons first front => simp at split

theorem follow_counting {links : Nat} {place found : Place} (front : List String)
    {more : List String} {last : String}
    (followed : t.follow .name links place (front ++ (more ++ [last])) = .ok found) :
    t.follow .name links place (front ++ (more.filter Path.counts ++ [last])) = .ok found := by
  induction more generalizing front with
  | nil => exact followed
  | cons name more ih =>
    cases counts : Path.counts name with
    | false =>
      rw [List.filter_cons_of_neg (by simp [counts])]
      exact ih front (follow_leave_out counts (.inr ⟨rfl, by simp⟩) rfl followed)
    | true =>
      rw [List.filter_cons_of_pos counts, List.cons_append, List.append_cons]
      exact ih (front ++ [name]) (by rwa [List.cons_append, List.append_cons] at followed)

/-- Where a text leads to a place and its last name counts, the names of its path lead there. -/
theorem follow_names_of_locate {workingDirectory : Path} {s : String} {found : Place}
    {front last : List Char} {c : Char} (text : s.toList = front ++ (last ++ [c]))
    (whole : '/' ∉ last ++ [c]) (notDot : c ≠ '.')
    (located : t.locate .name workingDirectory s = .ok found) :
    (Path.ofText s).names ≠ [] ∧
      t.follow .name linkLimit ((Path.ofText s).origin workingDirectory) (Path.ofText s).names =
        .ok found := by
  obtain ⟨before, middle, split⟩ := Path.exists_segments_append front
  have split := split _ whole
  have ends : (middle ++ (last ++ [c])).getLast? = some c := by
    rw [← List.append_assoc, List.getLast?_concat]
  have counts : Path.counts (String.ofList (middle ++ (last ++ [c]))) = true := by
    have some_name : String.ofList (middle ++ (last ++ [c])) ≠ "" := by
      intro same
      simp [← String.toList_inj] at same
    have other : String.ofList (middle ++ (last ++ [c])) ≠ "." := by
      intro same
      rw [← String.toList_inj, String.toList_ofList] at same
      rw [same] at ends
      exact notDot (Option.some.inj ends).symm
    simp only [Path.counts, ne_eq, some_name, other, not_false_eq_true, decide_true, Bool.and_self]
  have segments : Path.segments s =
      before.map String.ofList ++ [String.ofList (middle ++ (last ++ [c]))] := by
    rw [Path.segments, text, split, List.map_append, List.map_singleton]
  have names : (Path.ofText s).names = (before.map String.ofList).filter Path.counts ++
      [String.ofList (middle ++ (last ++ [c]))] := by
    rw [Path.names_ofText, segments, List.filter_append, List.filter_cons_of_pos counts,
      List.filter_nil]
  have followed := (locate_eq_ok_iff.mp located).2.2
  rw [segments] at followed
  rw [names]
  exact ⟨by simp, follow_counting [] followed⟩

/-- Names none of which counts lead nowhere else, and that from a directory. -/
theorem eq_of_follow_nothing {aim : Aim} {links : Nat} {place found : Place} {names : List String}
    (nothing : ∀ name ∈ names, Path.counts name = false) (some_name : names ≠ [])
    (followed : t.follow aim links place names = .ok found) :
    t.node? place = some .directory ∧ found = place := by
  have directory : t.node? place = some .directory := by
    by_contra other
    exact some_name (eq_nil_of_follow followed other).1
  refine ⟨directory, ?_⟩
  clear some_name
  induction names with
  | nil =>
    rw [follow] at followed
    exact (Except.ok.inj followed).symm
  | cons name rest ih =>
    have dot : (decide (name = "") || decide (name = ".")) = true := by
      have silent := nothing name List.mem_cons_self
      by_contra counted
      rw [Bool.or_eq_true, not_or, decide_eq_true_eq, decide_eq_true_eq] at counted
      simp [Path.counts, counted] at silent
    rw [follow_cons_dot directory dot] at followed
    exact ih (fun other member => nothing other (List.mem_cons_of_mem _ member)) followed

/-- Nothing can be written to a path without names, which leads to a directory. -/
theorem names_ne_nil_of_writable {workingDirectory p : Path} {place : Place}
    (writable : t.writable workingDirectory p.text = .ok place) : p.names ≠ [] := by
  obtain ⟨start, names⟩ := p
  rintro rfl
  have nothing : ∀ name ∈ Path.segments (Path.text ⟨start, []⟩), Path.counts name = false := by
    cases start <;> decide
  have some_name : Path.segments (Path.text ⟨start, []⟩) ≠ [] := by
    simp [Path.segments, List.splitOn_ne_nil]
  obtain ⟨located, notDirectory⟩ := writable_eq_ok_iff.mp writable
  obtain ⟨directory, rfl⟩ :=
    eq_of_follow_nothing nothing some_name (locate_eq_ok_iff.mp located).2.2
  exact notDirectory directory

/-- Names are followed only from a place where something stands. -/
theorem stands_of_follow {aim : Aim} {links : Nat} {place found : Place} {names : List String}
    (some_name : names ≠ []) (followed : t.follow aim links place names = .ok found) :
    t.node? place ≠ none := by
  obtain ⟨name, rest, rfl⟩ := List.exists_cons_of_ne_nil some_name
  intro nothing
  rw [follow, nothing] at followed
  cases followed

/-- A path made of names is looked up by them. -/
theorem locate_names (t : FileTree) {p : Path} (normal : p.Normal) (some_name : p.names ≠ [])
    (aim : Aim) (workingDirectory : Path) :
    t.locate aim workingDirectory p.text =
      if pathLimit ≤ p.text.utf8ByteSize then .error .nameTooLong
      else t.follow aim linkLimit (p.origin workingDirectory) p.names := by
  obtain ⟨n, segments, relative⟩ := Path.exists_segments_of_names normal some_name
  have some_text : p.text.isEmpty = false := by
    rw [Bool.eq_false_iff]
    intro empty
    obtain ⟨name, member⟩ := List.exists_mem_of_ne_nil _ some_name
    have inside : name ∈ Path.segments p.text := segments ▸ List.mem_append_right _ member
    rw [String.isEmpty_iff.mp empty] at inside
    exact (normal name member).1 (List.mem_singleton.mp inside)
  rw [locate, some_text]
  simp only [Bool.false_eq_true, ↓reduceIte, segments, Path.startOf_text_of_names normal some_name,
    Path.origin]
  by_cases here : p.start = .here
  · rw [relative here]
    rfl
  · simp only [here, ↓reduceIte, follow_slashes]

/-- Names that go through directories only are followed to the last of them. -/
theorem follow_directories (sound : t.Sound) {place : Place} {names rest : List String}
    (named : ∀ name ∈ names, Path.IsName name ∧ name ≠ ".." ∧ name.utf8ByteSize ≤ nameLimit)
    (stands : t.node? (place ++ names) = some .directory)
    (onward : rest.all String.isEmpty = false) (aim : Aim) (links : Nat) :
    t.follow aim links place (names ++ rest) = t.follow aim links (place ++ names) rest := by
  induction names generalizing place with
  | nil => rw [List.nil_append, List.append_nil]
  | cons name names ih =>
    obtain ⟨⟨⟨some_name, notDot, -⟩, notUp, short⟩, others⟩ := List.forall_mem_cons.mp named
    have here : t.node? place = some .directory :=
      sound.directory_above (by simp [stands]) (List.cons_ne_nil name names)
    rw [List.append_cons place name names] at stands ⊢
    have next : t.node? (place ++ [name]) = some .directory := by
      by_cases last : names = []
      · rwa [last, List.append_nil] at stands
      · exact sound.directory_above (by rw [stands]; simp) last
    have passes : Passes aim name (names ++ rest) :=
      ⟨by simp [some_name, notDot], notUp, by simp [onward], Nat.not_lt_of_le short⟩
    rw [List.cons_append, follow_cons_node here passes next (by simp)]
    exact ih others stands

/-! ## Names that are followed as they stand -/

section Followable

/-- Names that a look-up follows one after another: none of them goes up, and neither they nor
their path are too long. -/
def Followable (names : List String) : Prop :=
  (∀ name ∈ names, (name ≠ "" ∧ name ≠ "." ∧ '/' ∉ name.toList) ∧ name ≠ ".." ∧
    name.utf8ByteSize ≤ nameLimit) ∧
  (Path.text ⟨.root, names⟩).utf8ByteSize < pathLimit

instance (names : List String) : Decidable (Followable names) :=
  inferInstanceAs (Decidable (_ ∧ _))

variable {aim : Aim} {workingDirectory : Path} {names : List String}

/-- A path through directories leads to where its names say, unless a link stands there. -/
theorem locate_followable (sound : t.Sound) (followable : Followable names) (some_name : names ≠ [])
    (above : t.node? names.dropLast = some .directory) (there : Option Node)
    (stands : t.node? names = there) (noLink : ∀ target, there ≠ some (.link target)) :
    t.locate aim workingDirectory (Path.text ⟨.root, names⟩) = .ok names := by
  obtain ⟨place, last, rfl⟩ : ∃ place last, names = place ++ [last] :=
    ⟨_, _, (List.dropLast_append_getLast some_name).symm⟩
  rw [List.dropLast_concat] at above
  obtain ⟨named, short⟩ := followable
  have normal : Path.Normal ⟨.root, place ++ [last]⟩ := fun name member => (named name member).1
  obtain ⟨⟨some_last, notDot, -⟩, notUp, few⟩ := named last (by simp)
  have onward : [last].all String.isEmpty = false := by simpa using some_last
  have through :
      t.follow aim linkLimit [] (place ++ [last]) = t.follow aim linkLimit place [last] :=
    follow_directories sound (fun name member => named name (List.mem_append_left _ member))
      (List.nil_append place ▸ above) onward aim linkLimit
  rw [locate_names t normal some_name, if_neg (Nat.not_le_of_lt short)]
  refine through.trans ?_
  have passes : Passes aim last [] :=
    ⟨by simp [some_last, notDot], notUp, by simp, Nat.not_lt_of_le few⟩
  exact follow_cons_last above passes fun target link => absurd (stands ▸ link) (noLink target)

/-- A path leads to what stands where its names say, unless that is a link. -/
theorem status_followable (sound : t.Sound) (followable : Followable names) (some_name : names ≠ [])
    {node : Node} (stands : t.node? names = some node) (notLink : ∀ target, node ≠ .link target) :
    t.status workingDirectory (Path.text ⟨.root, names⟩) = .ok (names, node) := by
  have above : t.node? names.dropLast = some .directory := by
    obtain ⟨place, last, rfl⟩ : ∃ place last, names = place ++ [last] :=
      ⟨_, _, (List.dropLast_append_getLast some_name).symm⟩
    rw [List.dropLast_concat]
    exact sound.directory_above (by simp [stands]) (List.cons_ne_nil last [])
  have located : t.locate .target workingDirectory (Path.text ⟨.root, names⟩) = _ :=
    locate_followable sound followable some_name above _ stands
      fun target link => notLink target (Option.some.inj link)
  exact status_eq_ok_iff.mpr ⟨located, stands⟩

/-- A file may be written where the names of its path say, unless a link or a directory stands
there. -/
theorem writable_followable (sound : t.Sound) (followable : Followable names)
    (some_name : names ≠ []) (above : t.node? names.dropLast = some .directory)
    (there : Option Node) (stands : t.node? names = there)
    (noLink : ∀ target, there ≠ some (.link target)) (notDirectory : there ≠ some .directory) :
    t.writable workingDirectory (Path.text ⟨.root, names⟩) = .ok names := by
  have located : t.locate .newFile workingDirectory (Path.text ⟨.root, names⟩) = _ :=
    locate_followable sound followable some_name above there stands noLink
  exact writable_eq_ok_iff.mpr ⟨located, stands ▸ notDirectory⟩

end Followable

/-! ## Absolute forms -/

/-- A path that goes up nowhere, beside a working directory that stands below the root as its names
say. The absolute form of the path is not too long. -/
structure Direct (t : FileTree) (workingDirectory p : Path) : Prop where
  plain : Path.Plain p.names
  directory : t.node? workingDirectory.names = some .directory
  named : ∀ name ∈ workingDirectory.names, name.utf8ByteSize ≤ nameLimit
  short : (Path.absolute workingDirectory p).text.utf8ByteSize < pathLimit

/-- The absolute form of a path leads where the path does. -/
theorem Direct.locate_absolute {workingDirectory p : Path} (direct : Direct t workingDirectory p)
    (sound : t.Sound) (working : workingDirectory.Canonical) (normal : p.Normal)
    (some_name : p.names ≠ []) {aim : Aim} {place : Place}
    (located : t.locate aim workingDirectory p.text = .ok place) :
    t.locate aim workingDirectory (Path.absolute workingDirectory p).text = .ok place := by
  have whole := (Path.canonical_absolute working.rooted working.normal normal).normal
  have long : ¬ pathLimit ≤ (Path.absolute workingDirectory p).text.utf8ByteSize :=
    Nat.not_le_of_lt direct.short
  rw [locate_names t normal some_name] at located
  split at located
  · cases located
  by_cases relative : p.start = .here
  · have joined : workingDirectory.join p =
        ⟨workingDirectory.start, workingDirectory.names ++ p.names⟩ :=
      if_neg (by simp [Path.isAbsolute, relative])
    have absolute : Path.absolute workingDirectory p =
        ⟨workingDirectory.start, workingDirectory.names ++ p.names⟩ := by
      rw [Path.absolute, joined]
      refine Path.collapse_of_plain working.rooted fun up => ?_
      exact (List.mem_append.mp up).elim working.plain direct.plain
    have onward : p.names.all String.isEmpty = false := by
      obtain ⟨name, member⟩ := List.exists_mem_of_ne_nil _ some_name
      rw [List.all_eq_false]
      exact ⟨name, member, by simpa using (normal name member).1⟩
    have away : workingDirectory.start ≠ .here := by simpa [Path.isAbsolute] using working.rooted
    have below : t.node? ([] ++ workingDirectory.names) = some .directory := direct.directory
    have through : t.follow aim linkLimit [] (workingDirectory.names ++ p.names) =
        t.follow aim linkLimit workingDirectory.names p.names :=
      follow_directories sound (fun name member => ⟨working.normal name member,
        fun up => working.plain (up ▸ member), direct.named name member⟩) below onward _ _
    rw [Path.origin, if_pos relative] at located
    rw [locate_names t whole (by simp [absolute, some_name]), if_neg long, absolute, Path.origin,
      if_neg away]
    exact through.trans located
  · have rooted : p.isAbsolute = true := by simpa [Path.isAbsolute] using relative
    have same := Path.Canonical.absolute_eq ⟨rooted, normal, direct.plain⟩ workingDirectory
    rw [same] at long ⊢
    rw [locate_names t normal some_name, if_neg long]
    exact located

/-- A file may be written under the absolute form of a path where it may be under the path. -/
theorem Direct.writable_absolute {workingDirectory p : Path} (direct : Direct t workingDirectory p)
    (sound : t.Sound) (working : workingDirectory.Canonical) (normal : p.Normal) {place : Place}
    (writable : t.writable workingDirectory p.text = .ok place) :
    t.writable workingDirectory (Path.absolute workingDirectory p).text = .ok place := by
  obtain ⟨located, notDirectory⟩ := writable_eq_ok_iff.mp writable
  have some_name := names_ne_nil_of_writable writable
  have led := direct.locate_absolute sound working normal some_name located
  exact writable_eq_ok_iff.mpr ⟨led, notDirectory⟩

end FileTree

end Classpath
