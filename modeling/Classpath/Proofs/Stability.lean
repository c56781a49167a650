import Classpath.Proofs.Location
import Classpath.Proofs.Text.Blank
import Classpath.Proofs.Uri.Reread

/-! # Normal URIs that stay as they are

A normal URI is the URI of a path, the URI of another host or a text whose scheme has been written
in lower case (`Classpath.Location.form_of_normalize`). Normalising it once more leaves it as it is
exactly when it is settled (`Classpath.Location.normalize_again_iff`): it begins with its scheme, it
does not end in a blank, and if it names a path on this machine the escapes of the path spell a
text.
-/

namespace Classpath

namespace Location

open Uri (Encoded)
open Uri.Reference (Standing isSchemeChar)

variable {workingDirectory : Path} {s t uri : String}

/-! ## The forms of a normal URI -/

/-- The form of the normal URI of a text without blanks around it. -/
inductive Form (t : String) : String → Prop
  | here {p : Path} (canonical : p.Canonical) (paired : Text.unpaired? 0 p.text.toList = none) :
    Form t (fileUri p)
  | host (hosted : Hosted (Uri.Reference.ofText t).authority (Uri.Reference.ofText t).path)
    (file : (Uri.Reference.ofText t).scheme = fileScheme.toList) :
    Form t (hostUri (Uri.Reference.ofText t).authority (Uri.Reference.ofText t).path)
  | elsewhere (long : 1 < (Uri.Reference.ofText t).scheme.length)
    (other : (Uri.Reference.ofText t).scheme ≠ fileScheme.toList)
    (sound : Uri.hostFault? (Uri.Reference.ofText t).authority = none) :
    Form t (String.ofList ((Uri.Reference.ofText t).scheme ++
      t.toList.drop (Uri.Reference.ofText t).scheme.length))

theorem form_of_localUri (working : workingDirectory.Canonical) {spelled : String}
    (accepted : localUri workingDirectory (.ofText spelled) = .ok uri) : Form t uri := by
  unfold localUri at accepted
  dsimp only at accepted
  split at accepted
  · cases accepted
  next paired =>
    cases accepted
    exact .here (Path.canonical_absolute working.rooted working.normal (Path.normal_ofText _))
      paired

/-- A normal URI has one of the forms. -/
theorem form_of_normalize (working : workingDirectory.Canonical)
    (normal : normalize workingDirectory s = .ok uri) : Form (Text.trim s) uri := by
  unfold normalize at normal
  dsimp only at normal
  split at normal
  · cases normal
  next sound =>
    unfold normalForm at normal
    dsimp only at normal
    split at normal
    · exact form_of_localUri working normal
    next long =>
      split at normal
      next other =>
        rw [← Except.ok.inj normal]
        exact .elsewhere (Nat.lt_of_not_le long) other sound
      next file =>
        split at normal
        · exact form_of_localUri working normal
        next elsewhere =>
          have whole : uri = hostUri (Uri.Reference.ofText (Text.trim s)).authority
              (Uri.Reference.ofText (Text.trim s)).path := (Except.ok.inj normal).symm
          rw [whole]
          have named : (Uri.Reference.ofText (Text.trim s)).authority ≠ [] := by
            intro empty
            simp [isThisMachine, empty] at elsewhere
          exact .host ⟨Uri.Reference.standing_ofChars named, Bool.eq_false_iff.mpr elsewhere, sound⟩
            (not_not.mp file)

/-! ## Normal URIs that are settled -/

/-- A URI that normalising leaves as it is, if it is normal. -/
structure Settled (uri : String) : Prop where
  /-- There is a scheme. -/
  scheme : (Uri.Reference.ofText uri).scheme ≠ []
  /-- The text begins with the scheme as it stands. -/
  opening : (Uri.Reference.ofText uri).scheme <+: uri.toList
  /-- No blank is at the end. -/
  ending : ∀ c ∈ uri.toList.getLast?, Text.isBlank c = false
  /-- A path on this machine spells a text. -/
  spelled : (Uri.Reference.ofText uri).scheme = fileScheme.toList →
    isThisMachine (Uri.Reference.ofText uri).authority = true →
    Uri.SpellsText (Uri.unescape (Uri.Reference.ofText uri).path)

/-! ## Paths on this machine -/

theorem isBlank_of_encoded {c : Char} (encoded : Encoded c) : Text.isBlank c = false := by
  apply Text.isBlank_of_graphic
  unfold Encoded at encoded
  omega

theorem isBlank_of_isSchemeChar {c : Char} (scheme : isSchemeChar c = true) :
    Text.isBlank c = false := by
  by_cases plus : c = '+'
  · subst plus
    decide
  · have shown : Uri.isUnreserved c = true := by
      simp only [isSchemeChar, plus, decide_false, Bool.or_false, Bool.or_eq_true,
        decide_eq_true_eq] at scheme
      simp only [Uri.isUnreserved, Bool.or_eq_true, decide_eq_true_eq]
      tauto
    have range := Uri.range_of_isUnreserved shown
    exact Text.isBlank_of_graphic (by omega)

theorem scheme_prefix : "file".toList <+: "file://".toList := by
  decide +kernel

theorem toList_fileUri (p : Path) :
    (fileUri p).toList = "file://".toList ++ Uri.encode p.text.toList :=
  String.toList_append.trans (congrArg _ String.toList_ofList)

theorem toList_hostUri (authority path : List Char) :
    (hostUri authority path).toList = "file://".toList ++ (authority ++ path) :=
  String.toList_append.trans (congrArg _ String.toList_ofList)

/-- The URI of a path has no blanks. -/
theorem isBlank_of_mem_fileUri {p : Path} {c : Char} (member : c ∈ (fileUri p).toList) :
    Text.isBlank c = false := by
  rw [toList_fileUri] at member
  rcases List.mem_append.mp member with scheme | path
  · have each : ∀ c ∈ "file://".toList, Text.isBlank c = false :=
      List.forall_iff_forall_mem.mp (by decide +kernel)
    exact each c scheme
  · exact isBlank_of_encoded (Uri.mem_encode path)

/-- Normalising the URI of a path reads the bytes of the path. -/
theorem normalize_fileUri {p : Path} (canonical : p.Canonical) :
    normalize workingDirectory (fileUri p) = localUri workingDirectory p.decoded := by
  have trimmed : Text.trim (fileUri p) = fileUri p :=
    Text.trim_of_ends (fun c first => isBlank_of_mem_fileUri (List.mem_of_mem_head? first))
      fun c last => isBlank_of_mem_fileUri (List.mem_of_mem_getLast? last)
  have parts : Uri.Reference.ofText (fileUri p) = _ := parts_fileUri canonical.rooted
  have some_path : (Uri.decode (Uri.encode p.text.toList)).isEmpty = false := by
    obtain ⟨rest, text⟩ := List.head?_eq_some_iff.mp (Path.head?_text canonical.rooted)
    rw [Uri.decode_encode, text, Path.decoded_slash]
    rfl
  rw [normalize, trimmed]
  simp only [normalForm, parts, some_path, Bool.false_eq_true, ↓reduceIte,
    Path.ofText_decode_encode canonical]
  rfl

/-- The URI of a path stays as it is when the bytes of the path are a text. -/
theorem localUri_decoded_iff {p : Path} (canonical : p.Canonical) :
    localUri workingDirectory p.decoded = .ok (fileUri p) ↔ Uri.SpellsText p.bytes := by
  rw [Uri.spellsText_iff, Path.ofUtf8Lossy_bytes canonical, localUri,
    canonical.decoded.absolute_eq]
  constructor
  · intro same
    split at same
    · cases same
    next paired => exact ⟨bytes_eq_of_fileUri (Except.ok.inj same), paired⟩
  · rintro ⟨same, paired⟩
    have bytes : p.decoded.bytes = p.bytes := same
    rw [paired]
    exact congrArg Except.ok (by rw [fileUri_eq, fileUri_eq, bytes])

theorem settled_fileUri {p : Path} (canonical : p.Canonical) :
    Settled (fileUri p) ↔ Uri.SpellsText p.bytes := by
  have parts : Uri.Reference.ofText (fileUri p) = _ := parts_fileUri canonical.rooted
  have bytes : Uri.unescape (Uri.encode p.text.toList) = p.bytes := Uri.unescape_encode _
  constructor
  · intro settled
    have spelled := settled.spelled
    rw [parts, bytes] at spelled
    exact spelled rfl rfl
  · intro spelled
    refine ⟨?_, ?_, fun c last => isBlank_of_mem_fileUri (List.mem_of_mem_getLast? last), ?_⟩
    · simp [parts]
    · rw [parts, toList_fileUri]
      exact List.IsPrefix.trans scheme_prefix (List.prefix_append _ _)
    · rw [parts, bytes]
      exact fun _ _ => spelled

/-! ## Paths on other hosts -/

theorem length_hostUri (authority path : List Char) :
    (hostUri authority path).toList.length = 7 + authority.length + path.length := by
  rw [toList_hostUri, List.length_append, List.length_append, ← Nat.add_assoc]
  rfl

theorem normalize_hostUri {authority path : List Char} (hosted : Hosted authority path)
    (ending : ∀ c ∈ (hostUri authority path).toList.getLast?, Text.isBlank c = false) :
    normalize workingDirectory (hostUri authority path) = .ok (hostUri authority path) := by
  have parts : Uri.Reference.ofText (hostUri authority path) = _ := parts_hostUri hosted.standing
  have trimmed : Text.trim (hostUri authority path) = hostUri authority path := by
    refine Text.trim_of_ends (fun c first => ?_) ending
    have letter : c = 'f' := by
      rw [toList_hostUri] at first
      simpa [eq_comm] using first
    rw [letter]
    decide
  rw [normalize, trimmed]
  simp only [parts, hosted.sound, normalForm, hosted.elsewhere]
  rfl

theorem settled_hostUri {authority path : List Char} (hosted : Hosted authority path) :
    Settled (hostUri authority path) ↔
      ∀ c ∈ (hostUri authority path).toList.getLast?, Text.isBlank c = false := by
  have parts : Uri.Reference.ofText (hostUri authority path) = _ := parts_hostUri hosted.standing
  constructor
  · exact Settled.ending
  · intro ending
    refine ⟨?_, ?_, ending, ?_⟩
    · simp [parts]
    · rw [parts, toList_hostUri]
      exact List.IsPrefix.trans scheme_prefix (List.prefix_append _ _)
    · rw [parts]
      simp [hosted.elsewhere]

/-! ## Texts with another scheme -/

/-- Of a text with another scheme than `file`, the normal URI stays when it is settled. -/
theorem normalize_of_settled (long : 1 < (Uri.Reference.ofText t).scheme.length)
    (other : (Uri.Reference.ofText t).scheme ≠ fileScheme.toList)
    (sound : Uri.hostFault? (Uri.Reference.ofText t).authority = none)
    (lowered : uri.toList = (Uri.Reference.ofText t).scheme ++
      t.toList.drop (Uri.Reference.ofText t).scheme.length)
    (settled : Settled uri) : normalize workingDirectory uri = .ok uri := by
  have some_scheme := settled.scheme
  have opening := settled.opening
  have schemeChars := Uri.Reference.scheme_ofChars t.toList
  have forms := Uri.Reference.lowered_cases t.toList
  have reread : Uri.Reference.ofText uri = _ := congrArg Uri.Reference.ofChars lowered
  rw [← Uri.Reference.ofText] at schemeChars forms
  dsimp only at forms
  rw [← reread] at forms
  have notFile : (Uri.Reference.ofText uri).scheme ≠ fileScheme.toList := by
    rw [reread]
    exact Uri.Reference.scheme_lowered other
  rcases forms with none | ⟨letters, scheme, -, authority⟩
  · exact absurd none some_scheme
  have front : ∀ c ∈ uri.toList.head?, Text.isBlank c = false := by
    intro c first
    rw [lowered, List.head?_append_of_ne_nil _ (List.ne_nil_of_length_pos (by omega))] at first
    exact isBlank_of_isSchemeChar (schemeChars c (List.mem_of_mem_head? first))
  have long' : ¬ (Uri.Reference.ofText uri).scheme.length ≤ 1 := by
    rw [scheme, List.length_append]
    omega
  have whole := List.prefix_iff_eq_append.mp opening
  rw [normalize, Text.trim_of_ends front settled.ending]
  simp only [authority, sound, normalForm, long', notFile, ne_eq, not_false_eq_true,
    ↓reduceIte, whole, String.ofList_toList]

/-! ## Normalising once more -/

/-- What normalising leaves as it is is settled. -/
theorem settled_of_normalize (working : workingDirectory.Canonical)
    (normal : normalize workingDirectory uri = .ok uri) : Settled uri := by
  have form := form_of_normalize working normal
  generalize trimmed : Text.trim uri = t at form
  -- Where the text is not shortened by trimming, its parts are those of the trimmed text.
  have whole : uri.toList.length ≤ t.toList.length → t = uri := fun long => by
    rw [← trimmed] at long ⊢
    exact Text.trim_of_length long
  cases form with
  | here canonical paired =>
    rw [normalize_fileUri canonical] at normal
    exact (settled_fileUri canonical).mpr ((localUri_decoded_iff canonical).mp normal)
  | host hosted file =>
    refine (settled_hostUri hosted).mpr (Text.isBlank_getLast_of_trim (trimmed.trans (whole ?_)))
    have some_authority : (Uri.Reference.ofText t).authority ≠ [] := by
      intro empty
      have elsewhere := hosted.elsewhere
      rw [empty] at elsewhere
      cases elsewhere
    have parts := Uri.Reference.length_parts_le t.toList
      (by rw [← Uri.Reference.ofText, file]; decide) some_authority
    rw [← Uri.Reference.ofText, file] at parts
    rw [length_hostUri]
    exact parts
  | elsewhere long other sound =>
    have bound : (Uri.Reference.ofText t).scheme.length ≤ t.toList.length :=
      Uri.Reference.length_scheme_le t.toList
    have size : t = String.ofList ((Uri.Reference.ofText t).scheme ++
        t.toList.drop (Uri.Reference.ofText t).scheme.length) := whole (by
      rw [String.toList_ofList, List.length_append, List.length_drop]
      omega)
    rw [← size] at trimmed ⊢
    refine ⟨List.ne_nil_of_length_pos (by omega), ?_, Text.isBlank_getLast_of_trim trimmed,
      fun file => absurd file other⟩
    have chars := congrArg String.toList size
    rw [String.toList_ofList] at chars
    exact ⟨_, chars.symm⟩

theorem normalize_eq_iff_settled (working : workingDirectory.Canonical)
    (normal : normalize workingDirectory s = .ok uri) :
    normalize workingDirectory uri = .ok uri ↔ Settled uri := by
  refine ⟨settled_of_normalize working, fun settled => ?_⟩
  cases form_of_normalize working normal with
  | here canonical paired =>
    rw [normalize_fileUri canonical]
    exact (localUri_decoded_iff canonical).mpr ((settled_fileUri canonical).mp settled)
  | host hosted file => exact normalize_hostUri hosted settled.ending
  | elsewhere long other sound =>
    exact normalize_of_settled long other sound String.toList_ofList settled

/-- A URI is accepted as the location that it names only when it is normal. -/
theorem of_eq_iff_normalize :
    of workingDirectory (.value (.text uri)) = .ok ⟨uri⟩ ↔
      normalize workingDirectory uri = .ok uri := by
  refine ⟨fun accepted => ?_, of_normal⟩
  have spelled : (ofText workingDirectory uri).mapError refusal = .ok ⟨uri⟩ := accepted
  unfold ofText at spelled
  split at spelled
  · cases spelled
  · cases found : normalize workingDirectory uri with
    | error fault =>
      rw [found] at spelled
      cases spelled
    | ok again =>
      rw [found] at spelled
      exact congrArg Except.ok (Location.mk.inj (Except.ok.inj spelled))

/-- **Normalising a normal URI leaves it as it is**, and the location that it names is found under
it again, exactly when it is settled. -/
theorem normalize_again_iff (working : workingDirectory.Canonical)
    (normal : normalize workingDirectory s = .ok uri) :
    (normalize workingDirectory uri = .ok uri ↔ Settled uri) ∧
      (of workingDirectory (.value (.text uri)) = .ok ⟨uri⟩ ↔ Settled uri) := by
  have settled := normalize_eq_iff_settled working normal
  exact ⟨settled, of_eq_iff_normalize.trans settled⟩

/-- A scheme in upper case becomes a URI that stays. -/
theorem normalize_again_upperCase :
    let root : Path := ⟨.root, []⟩
    root.Canonical ∧ normalize root "JRT:/java.base" = .ok "jrt:/java.base" ∧
      (normalize root "jrt:/java.base" = .ok "jrt:/java.base" ↔ Settled "jrt:/java.base") ∧
      (of root (.value (.text "jrt:/java.base")) = .ok ⟨"jrt:/java.base"⟩ ↔
        Settled "jrt:/java.base") := by
  intro root
  have working : root.Canonical := ⟨rfl, by simp [root, Path.Normal], by simp [root, Path.Plain]⟩
  have normal : normalize root "JRT:/java.base" = .ok "jrt:/java.base" := by decide +kernel
  exact ⟨working, normal, normalize_again_iff working normal⟩

/-- A tab inside a scheme shifts what is kept after it, so that a letter comes twice and is written
in lower case only when the URI is normalised once more. -/
theorem normalize_tab_inside :
    let root : Path := ⟨.root, []⟩
    normalize root "jr\tT:/x" = .ok "jrtT:/x" ∧ normalize root "jrtT:/x" ≠ .ok "jrtT:/x" := by
  decide +kernel

end Location

end Classpath
