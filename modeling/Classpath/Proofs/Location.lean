import Classpath.Location
import Classpath.Proofs.Path
import Classpath.Proofs.Uri.Reference

/-! # The two forms of a local location

A text that is accepted as a local location gives the URI of a canonical path, without a host, or
the URI of a host that is not this machine (`Classpath.Location.forms_of_ofText`). Both forms are
told apart by the path of the location, which shows the host after two slashes
(`Classpath.Location.filePath_fileUri`, `Classpath.Location.filePath_hostUri`). In both forms the
location can be spelled with a slash at the end (`Classpath.Location.ofText_fileUri`,
`Classpath.Location.ofText_hostUri`).
-/

namespace Classpath.Location

open Uri (Encoded)
open Uri.Reference (Standing InPath Kept)

/-! ## URIs with and without a host -/

/-- The URI of a path on another host. -/
def hostUri (authority path : List Char) : String :=
  "file://" ++ String.ofList (authority ++ path)

/-- An authority that is accepted and does not name this machine, beside a path. -/
structure Hosted (authority path : List Char) : Prop where
  standing : Standing authority path
  elsewhere : isThisMachine authority = false
  sound : Uri.hostFault? authority = none

theorem inPath_of_encoded {c : Char} (encoded : Encoded c) : InPath c := by
  refine ⟨⟨?_, ?_, ?_⟩, ?_, ?_⟩ <;> rintro rfl <;> simp [Encoded] at encoded

theorem standing_encode {cs : List Char} (rooted : cs.head? = some '/') :
    Standing [] (Uri.encode cs) where
  inAuthority := by simp
  inPath := fun c member => inPath_of_encoded (Uri.mem_encode member)
  slash := by
    obtain ⟨rest, rfl⟩ := List.head?_eq_some_iff.mp rooted
    simp [Uri.encode_slash]

theorem ofText_file {authority path : List Char} (standing : Standing authority path) :
    Uri.Reference.ofText ("file://" ++ String.ofList (authority ++ path)) =
      ⟨"file".toList, authority, path, [], []⟩ := by
  have chars : ("file://" ++ String.ofList (authority ++ path)).toList =
      "file://".toList ++ authority ++ path := by
    rw [String.toList_append, List.append_assoc]
    exact congrArg _ String.toList_ofList
  rw [Uri.Reference.ofText, chars, Uri.Reference.ofChars_file standing]

theorem parts_hostUri {authority path : List Char} (standing : Standing authority path) :
    (Location.mk (hostUri authority path)).parts = ⟨"file".toList, authority, path, [], []⟩ :=
  ofText_file standing

theorem parts_fileUri {p : Path} (rooted : p.isAbsolute = true) :
    (Location.mk (fileUri p)).parts = ⟨"file".toList, [], Uri.encode p.text.toList, [], []⟩ := by
  have cut := ofText_file (standing_encode (Path.head?_text rooted))
  rw [List.nil_append] at cut
  rw [parts, fileUri, cut]

theorem isLocal_of_parts {l : Location} (parts : l.parts.scheme = "file".toList) :
    l.isLocal = true := by
  rw [isLocal, scheme, parts]
  decide

theorem isLocal_fileUri {p : Path} (rooted : p.isAbsolute = true) :
    (Location.mk (fileUri p)).isLocal = true :=
  isLocal_of_parts (by rw [parts_fileUri rooted])

theorem isLocal_hostUri {authority path : List Char} (standing : Standing authority path) :
    (Location.mk (hostUri authority path)).isLocal = true :=
  isLocal_of_parts (by rw [parts_hostUri standing])

theorem fileUri_eq (p : Path) :
    fileUri p = "file://" ++ String.ofList (p.bytes.flatMap Uri.encodeByte) :=
  rfl

/-- The URI of a path tells the bytes of the path. -/
theorem bytes_eq_of_fileUri {p q : Path} (same : fileUri p = fileUri q) : p.bytes = q.bytes := by
  rw [fileUri_eq, fileUri_eq] at same
  have chars := congrArg String.toList same
  rw [String.toList_append, String.toList_append] at chars
  have encoded : p.bytes.flatMap Uri.encodeByte = q.bytes.flatMap Uri.encodeByte := by
    simpa using chars
  rw [← Uri.unescape_encode p.bytes, encoded, Uri.unescape_encode]

/-- The path of a location without a host is the path of its URI, read by bytes. -/
theorem filePath_fileUri {p : Path} (canonical : p.Canonical) :
    (Location.mk (fileUri p)).filePath = p.decoded := by
  rw [filePath, parts_fileUri canonical.rooted]
  exact Path.ofText_decode_encode canonical

/-- The path of a location on another host shows the host after two slashes. -/
theorem filePath_hostUri {authority path : List Char} (standing : Standing authority path)
    (elsewhere : isThisMachine authority = false) :
    (Location.mk (hostUri authority path)).filePath =
      ⟨.doubleRoot, Path.namesIn (authority ++ Uri.decode path)⟩ := by
  have start : Path.startOf ('/' :: '/' :: authority ++ Uri.decode path) = .doubleRoot := by
    cases authority with
    | nil => simp [isThisMachine] at elsewhere
    | cons c rest =>
      have other := (standing.inAuthority c List.mem_cons_self).2.1
      simp [Path.startOf, other]
  rw [filePath, parts_hostUri standing]
  simp only [elsewhere, Bool.false_eq_true, ↓reduceIte]
  rw [Path.ofText_ofList, start]
  exact congrArg _ ((Path.namesIn_slash _).trans (Path.namesIn_slash _))

theorem normal_filePath (l : Location) : l.filePath.Normal := by
  unfold filePath
  dsimp only
  split <;> exact Path.normal_ofText _

theorem pathText_eq {l : Location} (isLocal : l.isLocal = true) :
    l.pathText = .ok l.filePath.text := by
  simp [pathText, path, isLocal, Except.map]

/-! ## What is accepted -/

theorem of_text {workingDirectory : Path} {l : Location} {s : String}
    (accepted : ofText workingDirectory s = .ok l) :
    of workingDirectory (.value (.text s)) = .ok l := by
  simp [of, accepted, Except.mapError]

theorem uri_of_localUri {workingDirectory p : Path} {uri : String}
    (accepted : localUri workingDirectory p = .ok uri) :
    uri = fileUri (Path.absolute workingDirectory p) := by
  unfold localUri at accepted
  dsimp only at accepted
  split at accepted
  · cases accepted
  · exact (Except.ok.inj accepted).symm

/-- What a text without blanks around it is taken for when it gives a local location: a path, a path
on this machine that is encoded, or a path on another host. -/
theorem cases_of_normalForm {workingDirectory : Path} {t uri : String}
    (accepted : normalForm workingDirectory t = .ok uri)
    (isLocal : (Location.mk uri).isLocal = true) :
    let parts := Uri.Reference.ofText t
    (parts.scheme.length ≤ 1 ∧ localUri workingDirectory (.ofText t) = .ok uri) ∨
      (parts.scheme = fileScheme.toList ∧ localUri workingDirectory (.ofText (String.ofList
        (if (Uri.decode parts.path).isEmpty then ['/'] else Uri.decode parts.path))) = .ok uri) ∨
      (parts.scheme = fileScheme.toList ∧ Standing parts.authority parts.path ∧
        isThisMachine parts.authority = false ∧ uri = hostUri parts.authority parts.path) := by
  intro parts
  unfold normalForm at accepted
  dsimp only at accepted
  split at accepted
  next short => exact Or.inl ⟨short, accepted⟩
  split at accepted
  next other =>
    cases accepted
    refine absurd ?_ (Uri.Reference.scheme_lowered other)
    have same := isLocal
    rw [Location.isLocal, Location.scheme, Location.parts, beq_iff_eq, ← String.toList_inj,
      String.toList_ofList, Uri.Reference.ofText, String.toList_ofList] at same
    exact same
  next file =>
    split at accepted
    · exact Or.inr (Or.inl ⟨not_not.mp file, accepted⟩)
    next elsewhere =>
      cases accepted
      have named : parts.authority ≠ [] := by
        intro empty
        simp [isThisMachine, parts, empty] at elsewhere
      exact Or.inr (Or.inr ⟨not_not.mp file, Uri.Reference.standing_ofChars named,
        Bool.eq_false_iff.mpr elsewhere, rfl⟩)

/-- A text that is accepted is accepted without the blanks around it, and names no host that is
refused. -/
theorem normalForm_of_ofText {workingDirectory : Path} {s : String} {l : Location}
    (accepted : ofText workingDirectory s = .ok l) :
    Uri.hostFault? (Uri.Reference.ofText (Text.trim s)).authority = none ∧
      normalForm workingDirectory (Text.trim s) = .ok l.uri := by
  unfold ofText at accepted
  split at accepted
  · cases accepted
  cases found : normalize workingDirectory s with
  | error fault => simp [found, Except.map] at accepted
  | ok uri =>
    have whole : l = ⟨uri⟩ := by simpa [found, Except.map, eq_comm] using accepted
    subst whole
    unfold normalize at found
    dsimp only at found
    split at found
    · cases found
    next sound => exact ⟨sound, found⟩

/-- A text that is accepted as a local location gives the URI of a canonical path or the URI of
another host. -/
theorem forms_of_ofText {workingDirectory : Path} (working : workingDirectory.Canonical)
    {s : String} {l : Location} (accepted : ofText workingDirectory s = .ok l)
    (isLocal : l.isLocal = true) :
    (∃ p : Path, p.Canonical ∧ l.uri = fileUri p) ∨
      ∃ authority path, Hosted authority path ∧ l.uri = hostUri authority path := by
  have bare : ∀ {t : String} {uri : String},
      localUri workingDirectory (.ofText t) = .ok uri → ∃ p : Path, p.Canonical ∧ uri = fileUri p :=
    fun {t _} found => ⟨_, Path.canonical_absolute working.rooted working.normal
      (Path.normal_ofText t), uri_of_localUri found⟩
  obtain ⟨sound, normal⟩ := normalForm_of_ofText accepted
  rcases cases_of_normalForm normal isLocal with
    ⟨-, found⟩ | ⟨-, found⟩ | ⟨-, standing, elsewhere, same⟩
  · exact Or.inl (bare found)
  · exact Or.inl (bare found)
  · exact Or.inr ⟨_, _, ⟨standing, elsewhere, sound⟩, same⟩

/-! ## Spellings with a slash at the end -/

/-- A text without blanks at its ends is not changed by trimming. -/
theorem trim_eq {first last : Char} {cs : List Char} (opening : Text.isBlank first = false)
    (closing : Text.isBlank last = false) :
    Text.trim (String.ofList (first :: cs ++ [last])) = String.ofList (first :: cs ++ [last]) := by
  simp [Text.trim, Text.trimEnds, opening, closing]

theorem blank_eq_false {first last : Char} {cs : List Char} (opening : Text.isBlank first = false) :
    Text.blank (String.ofList (first :: cs ++ [last])) = false := by
  simp [Text.blank, opening]

/-- The URI of a path that starts at the root is spelled by the path after a dot. The dot keeps a
reader of references from finding a host where names are made of tabs and line ends. -/
theorem ofText_fileUri (workingDirectory : Path) {p : Path} (canonical : p.Canonical)
    (root : p.start = .root) (paired : Text.unpaired? 0 p.text.toList = none) :
    ofText workingDirectory (String.ofList ("/.".toList ++ p.text.toList ++ ['/'])) =
      .ok ⟨fileUri p⟩ := by
  obtain ⟨rest, text⟩ := List.head?_eq_some_iff.mp (Path.head?_text canonical.rooted)
  have chars : "/.".toList ++ p.text.toList ++ ['/'] =
      '/' :: ('.' :: p.text.toList) ++ ['/'] := rfl
  have scheme : (Uri.Reference.ofText
      (String.ofList ('/' :: ('.' :: p.text.toList) ++ ['/']))).scheme = [] := by
    rw [Uri.Reference.ofText, String.toList_ofList]
    exact Uri.Reference.scheme_slash _
  have authority :
      (Uri.Reference.ofText (String.ofList ('/' :: ('.' :: p.text.toList) ++ ['/']))).authority
        = [] := by
    rw [Uri.Reference.ofText, String.toList_ofList]
    exact Uri.Reference.authority_slash (by unfold Kept; decide) _
  have spelled : Path.ofText (String.ofList ('/' :: ('.' :: p.text.toList) ++ ['/'])) = p := by
    have again := Path.ofText_text canonical.rooted canonical.normal
    rw [← String.ofList_toList (s := p.text), Path.ofText_ofList] at again
    have start : Path.startOf ('/' :: ('.' :: p.text.toList) ++ ['/']) = p.start := by
      rw [root]
      rfl
    have names : Path.namesIn ('/' :: ('.' :: p.text.toList) ++ ['/']) = p.names := by
      rw [Path.namesIn_append_slash, Path.namesIn_nil, List.append_nil, text]
      have dotted := Path.namesIn_append_slash ['/', '.'] rest
      have dot : Path.namesIn ['/', '.'] = [] := by decide
      rw [dot, List.nil_append] at dotted
      have names := congrArg Path.names again
      rw [text] at names
      rw [← names, Path.namesIn_slash]
      exact dotted
    rw [Path.ofText_ofList, start, names]
  rw [chars, ofText, blank_eq_false (by decide), if_neg (by simp), normalize,
    trim_eq (by decide) (by decide)]
  simp only [authority]
  have sound : Uri.hostFault? [] = none := by decide
  rw [sound]
  simp only [normalForm, scheme, List.length_nil, Nat.zero_le, ↓reduceIte, spelled, localUri,
    canonical.absolute_eq, paired]
  rfl

/-- The URI of another host is spelled by itself when it ends with a slash. -/
theorem ofText_hostUri (workingDirectory : Path) {authority path : List Char}
    (hosted : Hosted authority (path ++ ['/'])) :
    ofText workingDirectory (hostUri authority (path ++ ['/'])) =
      .ok ⟨hostUri authority (path ++ ['/'])⟩ := by
  have chars : hostUri authority (path ++ ['/']) =
      String.ofList ('f' :: ("ile://".toList ++ (authority ++ path)) ++ ['/']) := by
    rw [← String.toList_inj]
    simp [hostUri]
  have parts : Uri.Reference.ofText (hostUri authority (path ++ ['/'])) = _ :=
    parts_hostUri hosted.standing
  have whole : Text.trim (hostUri authority (path ++ ['/'])) =
      hostUri authority (path ++ ['/']) := by
    rw [chars]
    exact trim_eq (by decide) (by decide)
  have visible : Text.blank (hostUri authority (path ++ ['/'])) = false := by
    rw [chars]
    exact blank_eq_false (by decide)
  rw [ofText, visible, if_neg (by simp), normalize, whole]
  simp only [parts, hosted.sound, normalForm, hosted.elsewhere]
  rfl

/-! ## URIs that are normal already -/

theorem mem_of_mem_trim {s : String} {c : Char} (member : c ∈ (Text.trim s).toList) :
    c ∈ s.toList := by
  rw [Text.trim, String.toList_ofList, Text.trimEnds, List.mem_reverse] at member
  have inside := (List.dropWhile_sublist _).subset member
  exact (List.dropWhile_sublist _).subset (List.mem_reverse.mp inside)

theorem colon_mem_of_scheme {cs : List Char}
    (some_scheme : (Uri.Reference.ofChars cs).scheme ≠ []) : ':' ∈ cs := by
  rcases Uri.Reference.cutScheme_cases (Uri.Reference.clean cs) with
    none | ⟨first, more, rest, split, -, -, -⟩
  · refine absurd ?_ some_scheme
    change (Uri.Reference.cutScheme (Uri.Reference.clean cs)).1 = []
    rw [none]
  · have inside : ':' ∈ Uri.Reference.clean cs := by
      rw [split]
      simp
    exact (Uri.Reference.mem_clean inside).2

/-- A normal URI has a colon. -/
theorem colon_mem_of_normal {workingDirectory : Path} {uri : String}
    (normal : normalize workingDirectory uri = .ok uri) : ':' ∈ uri.toList := by
  have bare : ∀ {p : Path}, localUri workingDirectory p = .ok uri → ':' ∈ uri.toList := by
    intro p found
    rw [uri_of_localUri found, fileUri, String.toList_append]
    exact List.mem_append_left _ (by decide)
  unfold normalize at normal
  dsimp only at normal
  split at normal
  · cases normal
  unfold normalForm at normal
  dsimp only at normal
  split at normal
  · exact bare normal
  next long =>
    split at normal
    · refine mem_of_mem_trim (colon_mem_of_scheme fun none => long ?_)
      rw [Uri.Reference.ofText, none]
      exact Nat.zero_le 1
    split at normal
    · exact bare normal
    · rw [← Except.ok.inj normal, String.toList_append, String.toList_append]
      exact List.mem_append_left _ (List.mem_append_right _ (by decide))

/-- A normal URI is accepted as the location that it names. -/
theorem of_normal {workingDirectory : Path} {uri : String}
    (normal : normalize workingDirectory uri = .ok uri) :
    of workingDirectory (.value (.text uri)) = .ok ⟨uri⟩ := by
  have visible : Text.blank uri = false := by
    rw [Text.blank, List.all_eq_false]
    exact ⟨':', colon_mem_of_normal normal, by decide⟩
  simp [of, ofText, visible, normal, Except.map, Except.mapError]

end Classpath.Location
