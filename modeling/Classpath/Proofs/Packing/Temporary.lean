import Classpath.Proofs.FileTree.Spelling
import Classpath.Proofs.Packing.Plan

/-! # The fresh temporary directory

A packer makes its temporary directory at a place where nothing stood, wherever it has been told to
make it (`Classpath.Packer.makeTemporary_made`). The usual packer makes it in the temporary directory of
the workspace (`Classpath.Packer.makeTemporary_spec`).
-/

namespace Classpath

namespace Path

theorem intercalate_concat {names : List String} (some_name : names ≠ []) (name : String) :
    List.intercalate ['/'] ((names ++ [name]).map String.toList) =
      List.intercalate ['/'] (names.map String.toList) ++ '/' :: name.toList := by
  induction names with
  | nil => exact absurd rfl some_name
  | cons first rest ih =>
    cases rest with
    | nil => simp [List.intercalate_cons_cons]
    | cons second rest =>
      have later := ih (by simp)
      simp only [List.cons_append, List.map_cons, List.intercalate_cons_cons] at later ⊢
      rw [later]
      simp

theorem exists_text_child {p : Path} (rooted : p.isAbsolute = true) (name : String) :
    ∃ front, (p.child name).text.toList = front ++ name.toList := by
  rw [toList_text (p := p.child name) rooted, child]
  by_cases none : p.names = []
  · exact ⟨p.start.text.toList, by simp [none]⟩
  · rw [intercalate_concat none]
    exact ⟨p.start.text.toList ++ List.intercalate ['/'] (p.names.map String.toList) ++ ['/'],
      by simp⟩

end Path

namespace Packer

/-! ## Making the directory -/

/-- The first name that is not in use becomes a directory. -/
theorem makeFresh_spec {root start : String} {tries : Nat} {w after : Workspace} {made : Path}
    (ran : (makeFresh root start tries).start w = (.ok made, after)) :
    ∃ serial place files, w.serial < serial ∧ serial ≤ w.serial + tries ∧
      w.files.makeDirectory w.workingDirectory (below root (start ++ Text.padded 8 serial)) =
        .ok (place, files) ∧
      made = .ofText (below root (start ++ Text.padded 8 serial)) ∧
      after = { w with files, serial } := by
  induction tries generalizing w with
  | zero => cases ran
  | succ tries ih =>
    simp only [makeFresh, Action.start_bind, Action.start_get, Action.start_modify] at ran
    split at ran
    next place files found =>
      cases ran
      exact ⟨_, place, files, by omega, by omega, found, rfl, rfl⟩
    · obtain ⟨serial, place, files, more, few, found, rfl, rfl⟩ := ih ran
      dsimp only at more few
      exact ⟨serial, place, files, by omega, by omega, found, rfl, rfl⟩
    · cases ran

/-- When no directory is made, only names have been used. -/
theorem makeFresh_refused {root start : String} {tries : Nat} {w after : Workspace}
    {refusal : Failure} (ran : (makeFresh root start tries).start w = (.error refusal, after)) :
    ∃ serial, w.serial ≤ serial ∧ after = { w with serial } := by
  induction tries generalizing w with
  | zero =>
    cases ran
    exact ⟨_, Nat.le_refl _, rfl⟩
  | succ tries ih =>
    simp only [makeFresh, Action.start_bind, Action.start_get, Action.start_modify] at ran
    split at ran
    · cases ran
    · obtain ⟨serial, more, rfl⟩ := ih ran
      exact ⟨serial, Nat.le_of_succ_le more, rfl⟩
    · cases ran
      exact ⟨w.serial + 1, Nat.le_succ _, rfl⟩

theorem makeDirectory_spec {t files : FileTree} {workingDirectory : Path} {s : String}
    {place : Place} (made : t.makeDirectory workingDirectory s = .ok (place, files)) :
    t.locate .name workingDirectory s = .ok place ∧ t.node? place = none ∧
      files = t.put place .directory := by
  unfold FileTree.makeDirectory at made
  cases located : t.locate .name workingDirectory s with
  | error fault => simp [located, bind, Except.bind] at made
  | ok found =>
    simp only [located, bind, Except.bind] at made
    split at made
    · cases made
    next nothing =>
      cases made
      exact ⟨rfl, nothing, rfl⟩

/-- A path that leads by its names to a place where nothing stands. -/
structure FreshAt (w : Workspace) (temporary : Path) (fresh : Place) : Prop where
  normal : temporary.Normal
  some_name : temporary.names ≠ []
  /-- The place is not above the place where the look-up starts. -/
  apart : ¬ fresh <+: temporary.origin w.workingDirectory
  followed : w.files.follow .name FileTree.linkLimit (temporary.origin w.workingDirectory)
    temporary.names = .ok fresh
  absent : w.files.node? fresh = none

theorem isDigit_of_mem_padded {width n : Nat} {c : Char}
    (member : c ∈ (Text.padded width n).toList) : c.isDigit = true := by
  rw [Text.padded, String.toList_ofList, List.mem_append] at member
  rcases member with zero | digit
  · rw [List.eq_of_mem_replicate zero]
    decide
  · exact isDigit_of_mem_toDigits digit

theorem toList_padded_ne_nil (width n : Nat) : (Text.padded width n).toList ≠ [] := by
  simp [Text.padded, Nat.toDigits_ne_nil]

/-- What a number is padded to ends in a digit and has no slash. -/
theorem exists_padded (width n : Nat) :
    ∃ front c, (Text.padded width n).toList = front ++ [c] ∧ '/' ∉ front ++ [c] ∧ c ≠ '.' := by
  obtain ⟨front, c, ends⟩ := (List.eq_nil_or_concat _).resolve_left (toList_padded_ne_nil width n)
  rw [List.concat_eq_append] at ends
  have digits : ∀ d ∈ front ++ [c], d.isDigit = true := fun d member =>
    isDigit_of_mem_padded (ends ▸ member)
  refine ⟨front, c, ends, fun slash => ?_, ?_⟩
  · cases digits _ slash
  · rintro rfl
    cases digits '.' (by simp)

/-- A number stands at the end of the text of a temporary directory. -/
theorem exists_below (root start : String) :
    ∃ front, ∀ serial, (below root (start ++ Text.padded 8 serial)).toList =
      front ++ (Text.padded 8 serial).toList := by
  have begins : ∀ serial, Path.startOf (start ++ Text.padded 8 serial).toList =
      Path.startOf start.toList := by
    intro serial
    obtain ⟨before, c, padded, whole, -⟩ := exists_padded 8 serial
    rw [String.toList_append]
    apply Path.startOf_append
    rw [padded]
    exact fun slash => whole (List.mem_of_head? slash)
  unfold below
  simp only [begins]
  split
  · exact ⟨start.toList, fun serial => String.toList_append⟩
  split
  · exact ⟨root.toList ++ start.toList, fun serial => by simp⟩
  · exact ⟨root.toList ++ '/' :: start.toList, fun serial => by simp⟩

/-- A directory is made where nothing stood, its path leads there, and it is registered if it is to
be removed at the end. -/
theorem makeTemporary_made {w after : Workspace} {p : Packer} {temporary : Path}
    (sound : w.files.Sound) (made : p.makeTemporary.start w = (.ok temporary, after)) :
    ∃ fresh serial, FreshAt w temporary fresh ∧ w.serial < serial ∧
      w.files.locate .name w.workingDirectory temporary.text = .ok fresh ∧
      (∃ root start, temporary = .ofText (below root (start ++ Text.padded 8 serial))) ∧
      after = { w with
        files := w.files.put fresh .directory
        serial
        registered :=
          if p.removesAtEnd.isEmptyLike then w.registered
          else distinct (w.registered ++ [temporary]) } := by
  rw [makeTemporary, Action.start_bind_ok (Action.start_get _)] at made
  dsimp only at made
  split at made
  · cases made
  next start started =>
  obtain ⟨made', between, ran, last⟩ := Action.start_bind_eq_ok.mp made
  obtain ⟨serial, fresh, files, more, -, found, rfl, rfl⟩ := makeFresh_spec ran
  obtain ⟨located, absent, rfl⟩ := makeDirectory_spec found
  obtain ⟨front, text⟩ := exists_below (p.temporaryRoot.getD w.temporaryDirectory).text start
  have text := text serial
  obtain ⟨before, c, padded, whole, notDot⟩ := exists_padded 8 serial
  rw [padded] at text
  obtain ⟨some_name, followed⟩ :=
    FileTree.follow_names_of_locate text whole notDot located
  have apart : ¬ fresh <+: Path.origin _ w.workingDirectory := fun above =>
    FileTree.stands_of_follow some_name followed (sound.absent_below absent above)
  have at_fresh : FreshAt w _ fresh := ⟨Path.normal_ofText _, some_name, apart, followed, absent⟩
  -- The text that is looked up later is the normal spelling of the one that has been looked up.
  have short := (FileTree.locate_eq_ok_iff.mp located).2.1
  have shorter := Path.utf8ByteSize_text_ofText_le some_name
  have again := FileTree.locate_names w.files at_fresh.normal some_name .name w.workingDirectory
  rw [if_neg (by omega), followed] at again
  split at last <;> cases last <;>
    refine ⟨fresh, serial, at_fresh, more, again, ⟨_, start, rfl⟩, ?_⟩ <;>
    simp_all

/-- A directory is made where nothing stood. -/
theorem exists_freshAt {w after : Workspace} {p : Packer} {temporary : Path}
    (sound : w.files.Sound) (made : p.makeTemporary.start w = (.ok temporary, after)) :
    ∃ fresh serial registered, FreshAt w temporary fresh ∧
      after = { w with files := w.files.put fresh .directory, serial, registered } := by
  obtain ⟨fresh, serial, found, -, -, -, same⟩ := makeTemporary_made sound made
  exact ⟨fresh, serial, _, found, same⟩

/-- When a packer makes no temporary directory, it only uses names. -/
theorem makeTemporary_refused {w after : Workspace} {p : Packer} {refusal : Failure}
    (ran : p.makeTemporary.start w = (.error refusal, after)) :
    ∃ serial, w.serial ≤ serial ∧ after = { w with serial } := by
  rw [makeTemporary, Action.start_bind_ok (Action.start_get _)] at ran
  dsimp only at ran
  split at ran
  · cases ran
    exact ⟨w.serial + 1, Nat.le_succ _, rfl⟩
  · rw [Action.start_bind] at ran
    split at ran
    next made between found =>
      split at ran <;> cases ran
    next refused between found =>
      cases ran
      exact makeFresh_refused found

/-- The name of a temporary directory of the usual packer. -/
def freshName (serial : Nat) : String :=
  "dependency-resolver" ++ Text.padded 8 serial

/-- A fresh directory of the temporary directory: its path and its place, where nothing stood. -/
structure Fresh (w : Workspace) (temporary : Path) (top fresh : Place) : Prop where
  canonical : temporary.Canonical
  /-- The path has no character that the path of the temporary directory has not, but for ASCII. -/
  whole : w.temporaryDirectory.Whole → temporary.Whole
  located : w.files.status w.workingDirectory w.temporaryDirectory.text = .ok (top, .directory)
  above : ∃ serial, fresh = top ++ [freshName serial]
  followed : w.files.follow .name FileTree.linkLimit [] temporary.names = .ok fresh
  absent : w.files.node? fresh = none

theorem Fresh.origin_eq {w : Workspace} {temporary : Path} {top fresh : Place}
    (found : Fresh w temporary top fresh) (workingDirectory : Path) :
    temporary.origin workingDirectory = [] := by
  have rooted : temporary.start ≠ .here := by
    simpa [Path.isAbsolute] using found.canonical.rooted
  exact if_neg rooted

theorem Fresh.freshAt {w : Workspace} {temporary : Path} {top fresh : Place}
    (found : Fresh w temporary top fresh) : FreshAt w temporary fresh where
  normal := found.canonical.normal
  some_name none := by
    have followed := found.followed
    have absent := found.absent
    rw [none, FileTree.follow] at followed
    cases followed
    cases absent
  apart above := by
    have absent := found.absent
    rw [found.origin_eq] at above
    rw [List.prefix_nil.mp above] at absent
    cases absent
  followed := by rw [found.origin_eq, found.followed]
  absent := found.absent

end Packer

end Classpath
