import Classpath.Proofs.Action
import Classpath.Proofs.Location
import Classpath.Proofs.Text.Order
import Classpath.Shipment

/-! # Paths that several locations share

Two locations in the local file system may have the same path: a path after two slashes is the path
of a location on another host, with or without a slash at its end, and of a location without a host,
and a mark of replacement in a path stands for any bytes that are no text. These are the only cases
(`Classpath.Location.unique_iff`). So no path is listed twice where no path is of these two kinds.
-/

namespace Classpath

namespace Location

open Uri.Reference (InAuthority InPath Kept)

/-- A text or a path, as opposed to a location. -/
inductive Spelling.Written : Spelling → Prop
  | path (p : Path) : Written (.path p)
  | text (s : String) : Written (.value (.text s))

/-- A location in the local file system that a text or a path spells. -/
structure Spelled (workingDirectory : Path) (l : Location) : Prop where
  accepted : ∃ spelling, Spelling.Written spelling ∧ of workingDirectory spelling = .ok l
  isLocal : l.isLocal = true

/-- A path that several locations share: it starts with two slashes, or bytes of it that are no text
have been replaced. -/
def Ambiguous (path : String) : Prop :=
  Path.startOf path.toList = .doubleRoot ∨ Text.replacement ∈ path.toList

theorem Spelled.exists_ofText {workingDirectory : Path} {l : Location}
    (spelled : Spelled workingDirectory l) : ∃ s, ofText workingDirectory s = .ok l := by
  obtain ⟨spelling, written, accepted⟩ := spelled.accepted
  have texts : ∀ s, (ofText workingDirectory s).mapError refusal = .ok l →
      ∃ s, ofText workingDirectory s = .ok l := by
    intro s found
    cases whole : ofText workingDirectory s with
    | error fault => simp [whole, Except.mapError] at found
    | ok m =>
      rw [whole] at found
      cases found
      exact ⟨s, whole⟩
  cases written with
  | path p => exact texts _ accepted
  | text s => exact texts _ accepted

theorem spelled_of_ofText {workingDirectory : Path} {l : Location} {s : String}
    (accepted : ofText workingDirectory s = .ok l) (isLocal : l.isLocal = true) :
    Spelled workingDirectory l where
  accepted := ⟨.value (.text s), .text s, of_text accepted⟩
  isLocal := isLocal

theorem startOf_text {p : Path} (rooted : p.isAbsolute = true) (normal : p.Normal) :
    Path.startOf p.text.toList = p.start :=
  congrArg Path.start (Path.ofText_text rooted normal)

theorem normal_hosted (cs : List Char) : Path.Normal ⟨.doubleRoot, Path.namesIn cs⟩ :=
  fun _ member => Path.isName_of_mem_namesIn member

/-! ## Paths of one location -/

/-- The bytes of a path after one slash without marks of replacement are told by its text. -/
theorem exists_fileUri_of_not_ambiguous {workingDirectory : Path}
    (working : workingDirectory.Canonical) {l : Location} (spelled : Spelled workingDirectory l)
    (clear : ¬ Ambiguous l.filePath.text) :
    ∃ p : Path, l.uri = fileUri p ∧
      p.bytes = l.filePath.text.toList.flatMap String.utf8EncodeChar := by
  simp only [Ambiguous, not_or] at clear
  obtain ⟨s, accepted⟩ := spelled.exists_ofText
  rcases forms_of_ofText working accepted spelled.isLocal with
    ⟨p, canonical, uri⟩ | ⟨authority, path, hosted, uri⟩
  · have path : l.filePath = p.decoded := by
      rw [← filePath_fileUri canonical, ← uri]
    refine ⟨p, uri, ?_⟩
    rw [← Text.ofUtf8Lossy_eq_iff clear.2, path, Path.ofUtf8Lossy_bytes canonical]
  · have path : l.filePath = _ := (congrArg (fun uri => (Location.mk uri).filePath) uri).trans
      (filePath_hostUri hosted.standing hosted.elsewhere)
    refine absurd ?_ clear.1
    rw [path, startOf_text rfl (normal_hosted _)]

/-- A path that is not ambiguous belongs to one location. -/
theorem eq_of_not_ambiguous {workingDirectory : Path} (working : workingDirectory.Canonical)
    {l m : Location} (first : Spelled workingDirectory l) (second : Spelled workingDirectory m)
    (same : l.filePath.text = m.filePath.text) (clear : ¬ Ambiguous l.filePath.text) : l = m := by
  obtain ⟨p, uri, bytes⟩ := exists_fileUri_of_not_ambiguous working first clear
  obtain ⟨p', uri', bytes'⟩ := exists_fileUri_of_not_ambiguous working second (same ▸ clear)
  have whole : l.uri = m.uri := by
    rw [uri, uri', fileUri_eq, fileUri_eq, bytes, bytes', same]
  cases l
  cases m
  exact congrArg Location.mk whole

/-! ## Paths of several locations -/

/-- A location on another host shares its path with the one that has a slash more at its end. -/
theorem exists_other_of_hosted (workingDirectory : Path) {authority path : List Char}
    (hosted : Hosted authority path) :
    ∃ m : Location, m.uri ≠ hostUri authority path ∧ Spelled workingDirectory m ∧
      m.filePath = (Location.mk (hostUri authority path)).filePath := by
  have longer : Hosted authority (path ++ ['/']) := by
    refine ⟨⟨hosted.standing.inAuthority, ?_, ?_⟩, hosted.elsewhere, hosted.sound⟩
    · intro c member
      rcases List.mem_append.mp member with member | member
      · exact hosted.standing.inPath c member
      · rw [List.mem_singleton.mp member]
        unfold InPath Kept
        decide
    · intro c first
      cases path with
      | nil => simpa [eq_comm] using first
      | cons d rest => exact hosted.standing.slash c first
  refine ⟨⟨hostUri authority (path ++ ['/'])⟩, ?_, ?_, ?_⟩
  · intro same
    have size := congrArg (fun s : String => s.toList.length) same
    simp [hostUri] at size
  · exact spelled_of_ofText (ofText_hostUri workingDirectory longer)
      (isLocal_hostUri longer.standing)
  · rw [filePath_hostUri longer.standing longer.elsewhere,
      filePath_hostUri hosted.standing hosted.elsewhere, Uri.decode_append_slash,
      ← List.append_assoc, Path.namesIn_append_slash]
    have nothing : Uri.decode [] = [] := rfl
    rw [nothing, Path.namesIn_nil, List.append_nil]

/-- A path after two slashes is also the path of a location whose host is a dot. -/
theorem exists_other_of_doubleRoot (workingDirectory : Path) {p : Path} (canonical : p.Canonical)
    (start : p.start = .doubleRoot) :
    ∃ m : Location, m.uri ≠ fileUri p ∧ Spelled workingDirectory m ∧
      m.filePath = (Location.mk (fileUri p)).filePath := by
  have text := Path.toList_text canonical.rooted
  rw [start] at text
  generalize inner : List.intercalate ['/'] (p.names.map String.toList) = cs at text
  have hosted : Hosted ['.'] ('/' :: Uri.encode cs ++ ['/']) := by
    refine ⟨⟨?_, ?_, by simp⟩, by decide, by decide⟩
    · intro c member
      rw [List.mem_singleton.mp member]
      unfold InAuthority Kept
      decide
    · intro c member
      have slash : InPath '/' := by
        unfold InPath Kept
        decide
      rcases List.mem_append.mp member with member | member
      · rcases List.mem_cons.mp member with rfl | member
        · exact slash
        · exact inPath_of_encoded (Uri.mem_encode member)
      · rw [List.mem_singleton.mp member]
        exact slash
  refine ⟨⟨hostUri ['.'] ('/' :: Uri.encode cs ++ ['/'])⟩, ?_, ?_, ?_⟩
  · intro same
    have chars := congrArg String.toList same
    simp [hostUri, fileUri, text, Path.Start.text, Uri.encode_slash] at chars
  · exact spelled_of_ofText (ofText_hostUri workingDirectory hosted)
      (isLocal_hostUri hosted.standing)
  · rw [filePath_hostUri hosted.standing hosted.elsewhere, filePath_fileUri canonical, Path.decoded,
      start]
    congr 1
    have slashes : Uri.decode ('/' :: Uri.encode cs ++ ['/']) =
        '/' :: Uri.decode (Uri.encode cs) ++ ['/'] := by
      rw [Uri.decode_append_slash]
      exact congrArg (· ++ '/' :: Uri.decode []) (Uri.decode_append_slash [] (Uri.encode cs))
    have dot : Path.namesIn ['.'] = [] := by decide
    have split : ['.'] ++ ('/' :: Uri.decode (Uri.encode cs) ++ ['/']) =
        ['.'] ++ '/' :: (Uri.decode (Uri.encode cs) ++ ['/']) := rfl
    rw [slashes, split, Path.namesIn_append_slash, dot, List.nil_append, Path.namesIn_append_slash,
      Path.namesIn_nil, List.append_nil, Uri.decode_encode, Path.namesIn_decoded, ← inner,
      Path.namesIn_intercalate canonical.normal]

/-- A path with a mark of replacement has the mark in place of several sequences of bytes. -/
theorem exists_bytes_of_replacement {cs : List Char} (marked : Text.replacement ∈ cs) :
    ∃ bytes bytes' : List UInt8, bytes ≠ bytes' ∧ Text.ofUtf8Lossy bytes = cs ∧
      Text.ofUtf8Lossy bytes' = cs := by
  obtain ⟨xs, ys, rfl⟩ := List.append_of_mem marked
  refine ⟨(xs ++ Text.replacement :: ys).flatMap String.utf8EncodeChar,
    xs.flatMap String.utf8EncodeChar ++ 0x80 :: ys.flatMap String.utf8EncodeChar, ?_,
    Text.ofUtf8Lossy_flatMap _, ?_⟩
  · intro same
    have size := congrArg List.length same
    have three : (String.utf8EncodeChar Text.replacement).length = 3 := by decide
    simp [three] at size
    omega
  · have illFormed : ∀ rest, Text.readUtf8 none (0x80 :: rest) = none :: Text.readUtf8 none rest :=
      fun rest => rfl
    have rest := Text.readUtf8_flatMap ys []
    rw [List.append_nil] at rest
    rw [Text.ofUtf8Lossy, Text.readUtf8_flatMap, illFormed, rest]
    simp [Text.readUtf8, Function.comp_def, Text.replacement]

/-- A path after one slash with a mark of replacement is also the path of a location with other
bytes. -/
theorem exists_other_of_replacement (workingDirectory : Path) {p : Path} (canonical : p.Canonical)
    (start : p.start = .root) (marked : Text.replacement ∈ p.decoded.text.toList) :
    ∃ m : Location, m.uri ≠ fileUri p ∧ Spelled workingDirectory m ∧
      m.filePath = (Location.mk (fileUri p)).filePath := by
  obtain ⟨bytes, other, read⟩ : ∃ bytes, bytes ≠ p.bytes ∧
      Text.ofUtf8Lossy bytes = p.decoded.text.toList := by
    obtain ⟨bytes, bytes', different, read, read'⟩ := exists_bytes_of_replacement marked
    by_cases same : bytes = p.bytes
    · exact ⟨bytes', fun same' => different (same.trans same'.symm), read'⟩
    · exact ⟨bytes, same, read⟩
  obtain ⟨q, canonical', rfl, decoded, paired⟩ :=
    Path.exists_canonical_of_bytes canonical.decoded read
  have root : q.start = .root := (congrArg Path.start decoded).trans start
  refine ⟨⟨fileUri q⟩, fun same => other (bytes_eq_of_fileUri same), ?_, ?_⟩
  · exact spelled_of_ofText (ofText_fileUri workingDirectory canonical' root paired)
      (isLocal_fileUri canonical'.rooted)
  · rw [filePath_fileUri canonical', filePath_fileUri canonical, decoded]

/-- An ambiguous path belongs to several locations. -/
theorem exists_other_of_ambiguous {workingDirectory : Path} (working : workingDirectory.Canonical)
    {l : Location} (spelled : Spelled workingDirectory l) (ambiguous : Ambiguous l.filePath.text) :
    ∃ m : Location, m ≠ l ∧ Spelled workingDirectory m ∧ m.filePath = l.filePath := by
  obtain ⟨uri⟩ := l
  obtain ⟨s, accepted⟩ := spelled.exists_ofText
  have others : (∃ m : Location, m.uri ≠ uri ∧ Spelled workingDirectory m ∧
      m.filePath = (Location.mk uri).filePath) →
      ∃ m : Location, m ≠ ⟨uri⟩ ∧ Spelled workingDirectory m ∧
        m.filePath = (Location.mk uri).filePath := by
    rintro ⟨m, different, rest⟩
    exact ⟨m, fun same => different (congrArg Location.uri same), rest⟩
  rcases forms_of_ofText working accepted spelled.isLocal with
    ⟨p, canonical, rfl⟩ | ⟨authority, path, hosted, rfl⟩
  · apply others
    cases start : p.start with
    | here =>
      have rooted := canonical.rooted
      simp [Path.isAbsolute, start] at rooted
    | doubleRoot => exact exists_other_of_doubleRoot workingDirectory canonical start
    | root =>
      apply exists_other_of_replacement workingDirectory canonical start
      rw [filePath_fileUri canonical, Ambiguous,
        startOf_text canonical.decoded.rooted canonical.decoded.normal] at ambiguous
      rcases ambiguous with double | marked
      · cases start.symm.trans double
      · exact marked
  · exact others (exists_other_of_hosted workingDirectory hosted)

/-! ## Lists of paths -/

theorem mapM_pathText {locations : List Location} (inside : ∀ l ∈ locations, l.isLocal = true) :
    locations.mapM pathText = .ok (locations.map fun l => l.filePath.text) :=
  mapM_eq_ok fun l member => pathText_eq (inside l member)

/-- Among different locations, only an ambiguous path is found twice. -/
theorem ambiguous_of_count {workingDirectory : Path} (working : workingDirectory.Canonical)
    {locations : List Location} (distinct : locations.Nodup)
    (spelled : ∀ l ∈ locations, Spelled workingDirectory l) {q : String}
    (twice : 1 < (locations.map fun l => l.filePath.text).count q) : Ambiguous q := by
  induction locations with
  | nil => simp at twice
  | cons l rest ih =>
    obtain ⟨fresh, distinct⟩ := List.nodup_cons.mp distinct
    by_cases same : l.filePath.text = q
    · rw [List.map_cons, same, List.count_cons_self] at twice
      have again : q ∈ rest.map fun l => l.filePath.text := List.count_pos_iff.mp (by omega)
      obtain ⟨m, member, same'⟩ := List.mem_map.mp again
      by_contra clear
      rw [← same] at clear
      have whole := eq_of_not_ambiguous working (spelled l List.mem_cons_self)
        (spelled m (List.mem_cons_of_mem _ member)) (same.trans same'.symm) clear
      exact fresh (whole ▸ member)
    · rw [List.map_cons, List.count_cons_of_ne same] at twice
      exact ih distinct (fun m member => spelled m (List.mem_cons_of_mem _ member)) twice

/-- **One path, one location, unless the path is ambiguous.** The locations in the local file system
that texts and paths spell are told by their paths exactly where a path starts with one slash and
has no mark of replacement. So neither the kept locations of an outcome nor the archives of a
shipment, when they are different, list any other path twice. -/
theorem unique_iff {workingDirectory : Path} (working : workingDirectory.Canonical) :
    (∀ l q, Spelled workingDirectory l → l.pathText = .ok q →
      ((∀ m, Spelled workingDirectory m → m.pathText = .ok q → m = l) ↔ ¬ Ambiguous q)) ∧
    (∀ o : Outcome, o.locations.Nodup → (∀ l ∈ o.locations, Spelled workingDirectory l) →
      ∃ paths, o.paths = .ok paths ∧ ∀ q, 1 < paths.count q → Ambiguous q) ∧
    ∀ s : Shipment, s.archives.Nodup → (∀ l ∈ s.archives, Spelled workingDirectory l) →
      ∃ paths, s.paths = .ok paths ∧ ∀ q, 1 < paths.count q → Ambiguous q := by
  refine ⟨?_, ?_, ?_⟩
  · intro l q spelled path
    rw [pathText_eq spelled.isLocal] at path
    cases path
    constructor
    · intro unique ambiguous
      obtain ⟨m, different, other, same⟩ := exists_other_of_ambiguous working spelled ambiguous
      exact different (unique m other (by rw [pathText_eq other.isLocal, same]))
    · intro clear m other path
      rw [pathText_eq other.isLocal] at path
      exact (eq_of_not_ambiguous working spelled other (Except.ok.inj path).symm clear).symm
  · intro o distinct spelled
    refine ⟨_, by rw [Outcome.paths, mapM_pathText fun l member => (spelled l member).isLocal]; rfl,
      fun q twice => ambiguous_of_count working distinct spelled ?_⟩
    rwa [(Text.perm_sort _).count_eq] at twice
  · intro s distinct spelled
    exact ⟨_, mapM_pathText fun l member => (spelled l member).isLocal,
      fun q twice => ambiguous_of_count working distinct spelled twice⟩

/-- An archive below the root is one location however it is spelled. -/
theorem unique_below_root :
    (⟨.root, ["work"]⟩ : Path).Canonical ∧
      ∀ m, Spelled ⟨.root, ["work"]⟩ m → m.pathText = .ok "/lib/a.jar" →
        m = ⟨"file:///lib/a.jar"⟩ := by
  have working : (⟨.root, ["work"]⟩ : Path).Canonical := by
    refine ⟨rfl, ?_, by unfold Path.Plain; decide⟩
    intro name member
    rw [List.mem_singleton.mp member]
    exact ⟨by decide, by decide, by decide⟩
  have spelled : Spelled ⟨.root, ["work"]⟩ ⟨"file:///lib/a.jar"⟩ :=
    spelled_of_ofText (s := "/lib/a.jar") (by decide +kernel) (by decide +kernel)
  have path : (Location.mk "file:///lib/a.jar").filePath.text = "/lib/a.jar" := by decide +kernel
  refine ⟨working, ((unique_iff working).1 _ "/lib/a.jar" spelled ?_).mpr ?_⟩
  · rw [pathText_eq spelled.isLocal, path]
  · unfold Ambiguous
    decide +kernel

/-- A directory on another host is two locations, with and without a slash at the end. -/
theorem shared_on_host :
    ∃ l m : Location, of ⟨.root, ["work"]⟩ (.value (.text "file://host/a")) = .ok l ∧
      of ⟨.root, ["work"]⟩ (.value (.text "file://host/a/")) = .ok m ∧
      l.isLocal = true ∧ m.isLocal = true ∧ l.pathText = m.pathText ∧ l ≠ m := by
  have first : (Location.mk "file://host/a").isLocal = true := by decide +kernel
  have second : (Location.mk "file://host/a/").isLocal = true := by decide +kernel
  refine ⟨⟨"file://host/a"⟩, ⟨"file://host/a/"⟩, of_text (by decide +kernel),
    of_text (by decide +kernel), first, second, ?_, by decide⟩
  rw [pathText_eq first, pathText_eq second]
  exact congrArg Except.ok (by decide +kernel)

end Location

end Classpath
