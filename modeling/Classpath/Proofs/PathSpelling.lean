import Classpath.Proofs.LocalSpelling
import Classpath.Proofs.Packing.AllOrNothing
import Classpath.Proofs.Span

/-! # Paths that name themselves

A path is taken for a location by its text, as if somebody had spelled it. The text stands for the
path itself when no blanks are around it, no scheme of two letters or more is read in front of it,
and no host is read in it that may not be named (`Classpath.Location.Untouched`). Any other path
that goes up nowhere is refused or taken for something else, because what it is taken for has fewer
characters (`Classpath.Location.names_iff`). An archive that is written under a path that names
itself is found again by its location.
-/

namespace Classpath.Location

open Uri.Reference (Standing)

variable {workingDirectory p : Path} {l : Location}

/-- A path names itself: it is accepted as a local location, which gives the absolute form of the
path back. -/
def Names (workingDirectory p : Path) : Prop :=
  ∃ l, of workingDirectory (.path p) = .ok l ∧ l.isLocal = true ∧
    l.pathText = .ok (Path.absolute workingDirectory p).text

/-- Nothing is seen in the text of a path but the path. -/
structure Untouched (p : Path) : Prop where
  trimmed : Text.trim p.text = p.text
  bare : (Uri.Reference.ofText p.text).scheme.length ≤ 1
  sound : Uri.hostFault? (Uri.Reference.ofText p.text).authority = none

/-! ## Paths that are taken as they stand -/

theorem visible_of_trimmed (normal : p.Normal) (trimmed : Text.trim p.text = p.text) :
    Text.blank p.text = false := by
  rw [Bool.eq_false_iff]
  intro blank
  have nothing : p.text = "" := by
    rw [← trimmed, Text.trim, Text.trimEnds_of_all blank]
  have dot : p = ⟨.here, []⟩ := by
    rw [← Path.ofText_text_of_normal normal, nothing]
    decide
  rw [dot] at nothing
  exact absurd nothing (by decide)

/-- An untouched path is taken for itself. -/
theorem of_untouched (workingDirectory : Path) (normal : p.Normal) (untouched : Untouched p) :
    of workingDirectory (.path p) =
      ((localUri workingDirectory p).map Location.mk).mapError refusal := by
  rw [of, ofText, visible_of_trimmed normal untouched.trimmed, if_neg (by simp), normalize,
    untouched.trimmed]
  simp only [untouched.sound, normalForm, untouched.bare, ↓reduceIte,
    Path.ofText_text_of_normal normal]

/-- An untouched path names itself unless it has halves of surrogate pairs. -/
theorem Untouched.names_iff (untouched : Untouched p) (working : workingDirectory.Canonical)
    (normal : p.Normal) :
    Names workingDirectory p ↔ (Path.absolute workingDirectory p).Clear := by
  have canonical := Path.canonical_absolute working.rooted working.normal normal
  rw [← recovered_iff canonical, Names, of_untouched workingDirectory normal untouched]
  cases found : localUri workingDirectory p with
  | error fault => simp [Except.map, Except.mapError]
  | ok uri =>
    have isLocal : (Location.mk uri).isLocal = true := by
      rw [uri_of_localUri found]
      exact isLocal_fileUri canonical.rooted
    simp [Except.map, Except.mapError, isLocal]

/-! ## Paths that are taken for something else -/

/-- A path without names is untouched: it is a dot or made of slashes. -/
theorem untouched_of_nameless (nameless : p.names = []) : Untouched p := by
  obtain ⟨start, names⟩ := p
  cases nameless
  cases start <;> exact ⟨by decide, by decide, by decide⟩

/-- What is accepted for a path that names itself leads to the absolute form of the path. -/
theorem filePath_eq (working : workingDirectory.Canonical) (normal : p.Normal)
    (isLocal : l.isLocal = true)
    (text : l.pathText = .ok (Path.absolute workingDirectory p).text) :
    l.filePath = Path.absolute workingDirectory p := by
  rw [pathText_eq isLocal, Except.ok.injEq] at text
  have whole := (Path.canonical_absolute working.rooted working.normal normal).normal
  rw [← Path.ofText_text_of_normal (normal_filePath l), text, Path.ofText_text_of_normal whole]

section Taken

variable {q : Path} {t : String}

/-- The names of the working directory, in front of those of a relative path. -/
def above (workingDirectory p : Path) : Nat :=
  if p.isAbsolute then 0 else Path.span workingDirectory.names

theorem above_le (workingDirectory : Path) {p q : Path}
    (absolute : p.isAbsolute = true → q.isAbsolute = true) :
    above workingDirectory q ≤ above workingDirectory p := by
  unfold above
  split
  · exact Nat.zero_le _
  next relative =>
    rw [if_neg fun rooted => relative (absolute rooted)]

theorem above_le_span (workingDirectory p : Path) :
    above workingDirectory p ≤ Path.span workingDirectory.names := by
  unfold above
  split
  · exact Nat.zero_le _
  · exact Nat.le_refl _

theorem isAbsolute_trim (rooted : p.isAbsolute = true) :
    (Path.ofText (Text.trim p.text)).isAbsolute = true := by
  obtain ⟨rest, text⟩ := Path.exists_trim_slash rooted
  rw [Path.isAbsolute, Path.ofText, text]
  unfold Path.startOf
  split <;> simp_all

/-- The location of a path leads to no more characters than the path has. -/
theorem span_filePath_le (working : workingDirectory.Canonical) (normal : q.Normal)
    (found : localUri workingDirectory q = .ok l.uri) :
    Path.span l.filePath.names ≤ above workingDirectory q + Path.span q.names := by
  have canonical := Path.canonical_absolute working.rooted working.normal normal
  have same : l = ⟨fileUri (Path.absolute workingDirectory q)⟩ :=
    congrArg Location.mk (uri_of_localUri found)
  rw [same, filePath_fileUri canonical]
  exact (Path.span_decoded_le _).trans (Path.span_absolute_le workingDirectory q)

/-- A path with a name in whose trimmed text a scheme is read is relative, and its text is at least
as long as that one. -/
theorem relative_of_scheme (some_name : p.names ≠ [])
    (file : (Uri.Reference.ofText (Text.trim p.text)).scheme = fileScheme.toList) :
    p.isAbsolute = false ∧ (Text.trim p.text).toList.length + 1 ≤ Path.span p.names := by
  have relative : p.start = .here := by
    by_contra away
    obtain ⟨rest, text⟩ := Path.exists_trim_slash (p := p) (by simpa [Path.isAbsolute] using away)
    rw [Uri.Reference.ofText, text, Uri.Reference.scheme_slash] at file
    cases file
  have size := Path.length_text some_name
  have kept := (Text.trim_sublist p.text).length_le
  rw [relative] at size
  have start : Path.Start.here.text.toList.length = 0 := rfl
  exact ⟨by simp [Path.isAbsolute, relative], by omega⟩

/-- The path that is read in a URI on this machine is shorter than the URI. -/
theorem span_filePath_of_file (working : workingDirectory.Canonical)
    (file : (Uri.Reference.ofText t).scheme = fileScheme.toList)
    (found : localUri workingDirectory (.ofText (String.ofList
      (if (Uri.decode (Uri.Reference.ofText t).path).isEmpty then ['/']
        else Uri.decode (Uri.Reference.ofText t).path))) = .ok l.uri) :
    Path.span l.filePath.names < Path.span workingDirectory.names + t.toList.length := by
  have whole := Uri.Reference.length_scheme_path_le t.toList
    (by rw [← Uri.Reference.ofText, file]; simp [fileScheme])
  have four : (Uri.Reference.ofText t).scheme.length = 4 := by rw [file]; rfl
  rw [← Uri.Reference.ofText, four] at whole
  have fewer := span_filePath_le working (Path.normal_ofText _) found
  have start := above_le_span workingDirectory (.ofText (String.ofList
    (if (Uri.decode (Uri.Reference.ofText t).path).isEmpty then ['/']
      else Uri.decode (Uri.Reference.ofText t).path)))
  have chars := Uri.length_decode_le (Uri.Reference.ofText t).path
  refine (fewer.trans (Nat.add_le_add_right start _)).trans_lt (Nat.add_lt_add_left ?_ _)
  rw [Path.ofText_ofList]
  split
  · have root : Path.span (Path.namesIn ['/']) = 0 := by decide
    rw [root]
    omega
  · exact (Path.span_namesIn_le _).trans_lt (by omega)

/-- The path that is read in a URI of another host is shorter than the URI. -/
theorem span_filePath_of_host (file : (Uri.Reference.ofText t).scheme = fileScheme.toList)
    (standing : Standing (Uri.Reference.ofText t).authority (Uri.Reference.ofText t).path)
    (elsewhere : isThisMachine (Uri.Reference.ofText t).authority = false)
    (same : l.uri = hostUri (Uri.Reference.ofText t).authority (Uri.Reference.ofText t).path) :
    Path.span l.filePath.names < t.toList.length := by
  have named : (Uri.Reference.ofText t).authority ≠ [] := by
    intro empty
    rw [empty] at elsewhere
    cases elsewhere
  have whole := Uri.Reference.length_parts_le t.toList
    (by rw [← Uri.Reference.ofText, file]; simp [fileScheme]) named
  rw [← Uri.Reference.ofText] at whole
  have chars := Uri.length_decode_le (Uri.Reference.ofText t).path
  have names := Path.span_namesIn_le
    ((Uri.Reference.ofText t).authority ++ Uri.decode (Uri.Reference.ofText t).path)
  have given : l = ⟨hostUri _ _⟩ := congrArg Location.mk same
  rw [given, filePath_hostUri standing elsewhere]
  rw [List.length_append] at names
  exact names.trans_lt (by omega)

/-- A path that goes up nowhere and that names itself is untouched. -/
theorem untouched_of_names (working : workingDirectory.Canonical) (normal : p.Normal)
    (plain : Path.Plain p.names) (names : Names workingDirectory p) : Untouched p := by
  by_cases nameless : p.names = []
  · exact untouched_of_nameless nameless
  obtain ⟨l, accepted, isLocal, text⟩ := names
  have accepted : ofText workingDirectory p.text = .ok l := by
    unfold of at accepted
    cases found : ofText workingDirectory p.text with
    | error fault => simp [found, Except.mapError] at accepted
    | ok found' => simpa [found, Except.mapError] using accepted
  obtain ⟨sound, normalised⟩ := normalForm_of_ofText accepted
  have size : Path.span l.filePath.names = above workingDirectory p + Path.span p.names := by
    rw [filePath_eq working normal isLocal text]
    exact Path.span_absolute working plain
  -- The absolute form has all characters of the path, and each way to read the text in another way
  -- loses some.
  rcases cases_of_normalForm normalised isLocal with
    ⟨bare, found⟩ | ⟨file, found⟩ | ⟨file, standing, elsewhere, same⟩
  · have fewer := span_filePath_le working (Path.normal_ofText _) found
    have trimmed : Text.trim p.text = p.text := by
      by_contra changed
      have shorter := Path.span_trim_lt nameless changed
      have start := above_le workingDirectory (isAbsolute_trim (p := p))
      omega
    rw [trimmed] at sound bare
    exact ⟨trimmed, bare, sound⟩
  · obtain ⟨relative, short⟩ := relative_of_scheme nameless file
    have start : above workingDirectory p = Path.span workingDirectory.names := by
      rw [above, relative]
      rfl
    have fewer := span_filePath_of_file working file found
    omega
  · have short := (relative_of_scheme nameless file).2
    have fewer := span_filePath_of_host file standing elsewhere same
    omega

end Taken

/-! ## Archives that are found again -/

/-- A job that ends well leaves an archive under its target and returns what its target is accepted
as. -/
theorem spec_of_run {job : Packer.Job} {w after : Workspace} (sound : w.files.Sound)
    (ran : (Packer.run job).start w = (.ok l, after)) :
    ∃ place stored, w.files.writable w.workingDirectory job.target.text = .ok place ∧
      of w.workingDirectory (.path job.target) = .ok l ∧
        after.files = (Packing.holding w place stored).files := by
  rw [Packer.run, Packing.write_eq_writeListed] at ran
  obtain ⟨_, written, wrote, rest⟩ := Action.start_bind_eq_ok.mp ran
  obtain ⟨place, stored, writable, rfl⟩ := Packing.exists_of_start_writeListed sound wrote
  obtain ⟨_, noted, reported, rest⟩ := Action.start_bind_eq_ok.mp rest
  cases reported
  obtain ⟨_, _, got, rest⟩ := Action.start_bind_eq_ok.mp rest
  cases got
  obtain ⟨accepted, rfl⟩ := Action.start_ofFault_eq_ok.mp rest
  exact ⟨place, stored, writable, accepted, rfl⟩

/-- An archive stands under a path and under the path of its location, which is the absolute form of
that path. -/
def FoundAgain (w after : Workspace) (target : Path) (l : Location) : Prop :=
  l.pathText = .ok (Path.absolute w.workingDirectory target).text ∧ ∃ place stored,
    after.files.status w.workingDirectory target.text =
        .ok (place, .file (.archive stored) w.now) ∧
      after.files.status w.workingDirectory l.filePath.text =
        .ok (place, .file (.archive stored) w.now)

theorem foundAgain_of_names {job : Packer.Job} {w after : Workspace} (sound : w.files.Sound)
    (working : w.workingDirectory.Canonical) (normal : job.target.Normal)
    (direct : FileTree.Direct w.files w.workingDirectory job.target)
    (names : Names w.workingDirectory job.target)
    (ran : (Packer.run job).start w = (.ok l, after)) : FoundAgain w after job.target l := by
  obtain ⟨place, stored, writable, accepted, files⟩ := spec_of_run sound ran
  obtain ⟨l', accepted', isLocal, text⟩ := names
  cases accepted.symm.trans accepted'
  refine ⟨text, place, stored, ?_, ?_⟩
  · rw [files]
    exact FileTree.status_put sound writable _ _
  · rw [files, filePath_eq working normal isLocal text]
    exact FileTree.status_put sound (direct.writable_absolute sound working normal writable) _ _

/-- **Which paths name themselves**: those that are untouched and have no halves of surrogate pairs,
and no others among the paths that go up nowhere. An archive that is written under such a path is
found again by its location. -/
theorem names_itself_iff (working : workingDirectory.Canonical) (normal : p.Normal) :
    (Untouched p ∧ (Path.absolute workingDirectory p).Clear → Names workingDirectory p) ∧
      (Path.Plain p.names → (Names workingDirectory p ↔
        Untouched p ∧ (Path.absolute workingDirectory p).Clear)) ∧
      ∀ job w l after, w.workingDirectory = workingDirectory → job.target = p → w.files.Sound →
        FileTree.Direct w.files workingDirectory p → Names workingDirectory p →
          (Packer.run job).start w = (.ok l, after) → FoundAgain w after p l := by
  refine ⟨fun ⟨untouched, clear⟩ => (untouched.names_iff working normal).mpr clear,
    fun plain => ⟨fun names => ?_, fun ⟨untouched, clear⟩ =>
      (untouched.names_iff working normal).mpr clear⟩, ?_⟩
  · have untouched := untouched_of_names working normal plain names
    exact ⟨untouched, (untouched.names_iff working normal).mp names⟩
  · rintro job w l after rfl rfl sound direct names ran
    exact foundAgain_of_names sound working normal direct names ran

/-- A relative path with a name names itself, and so does the archive that is written under it. -/
theorem names_itself_relative :
    let w := Packing.oneFile 946684800
    let target : Path := ⟨.here, ["t.jar"]⟩
    let job : Packer.Job := ⟨⟨"file:///d"⟩, ⟨.root, ["d"]⟩, target⟩
    w.workingDirectory.Canonical ∧ target.Normal ∧ Names w.workingDirectory target ∧
      ∃ l after, (Packer.run job).start w = (.ok l, after) ∧ FoundAgain w after target l := by
  intro w target job
  have working : w.workingDirectory.Canonical :=
    ⟨by decide, by simp [w, Packing.oneFile, Path.Normal], by simp [w, Packing.oneFile, Path.Plain]⟩
  have normal : target.Normal := by simp [target, Path.Normal, Path.IsName]
  have plain : Path.Plain target.names := by simp [target, Path.Plain]
  have untouched : Untouched target := ⟨by decide +kernel, by decide +kernel, by decide +kernel⟩
  have clear : (Path.absolute w.workingDirectory target).Clear := by decide +kernel
  have direct : FileTree.Direct w.files w.workingDirectory target :=
    ⟨plain, rfl, by simp [w, Packing.oneFile], by decide +kernel⟩
  obtain ⟨-, iff, found⟩ := names_itself_iff working normal
  have names := (iff plain).mpr ⟨untouched, clear⟩
  obtain ⟨l, after, ran⟩ : ∃ l after, (Packer.run job).start w = (.ok l, after) :=
    ⟨⟨"file:///t.jar"⟩, _, by cbv⟩
  exact ⟨working, normal, names, l, after, ran,
    found job w l after rfl rfl (Packing.sound_oneFile _) direct names ran⟩

/-- A relative path that starts with a word and a colon is taken for a URI. -/
theorem word_colon_not_itself :
    (⟨.here, ["ab:c"]⟩ : Path).Normal ∧
      of ⟨.root, []⟩ (.path ⟨.here, ["ab:c"]⟩) = .ok ⟨"ab:c"⟩ ∧
      ¬ Names ⟨.root, []⟩ ⟨.here, ["ab:c"]⟩ := by
  have accepted : of ⟨.root, []⟩ (.path ⟨.here, ["ab:c"]⟩) = .ok ⟨"ab:c"⟩ := by
    have given : ofText ⟨.root, []⟩ "ab:c" = .ok ⟨"ab:c"⟩ := by decide +kernel
    exact of_text given
  refine ⟨by simp [Path.Normal, Path.IsName], accepted, ?_⟩
  rintro ⟨l, accepted', isLocal, -⟩
  cases accepted.symm.trans accepted'
  revert isLocal
  decide +kernel

end Classpath.Location
