import Classpath.Proofs.Stability

/-! # Spellings of a path on this machine

An absolute path is spelled by itself and by `file` URIs that encode it. Its URIs are all accepted
as one location, which gives the path back without its dots, unless the path has halves of surrogate
pairs. The path itself is accepted as the same location, unless a host is read in it: tabs and line
ends are dropped before a text is cut into the parts of a reference, so that two slashes can come
to stand beside each other (`Classpath.Location.recovers_iff`).
-/

namespace Classpath

namespace Path

/-- A path without halves of surrogate pairs. -/
def Clear (p : Path) : Prop :=
  ∀ c ∈ p.text.toList, Text.surrogate? c = none

instance (p : Path) : Decidable p.Clear :=
  decidable_of_iff (p.text.toList.all fun c => (Text.surrogate? c).isNone)
    (by simp [Clear])

theorem smuggledByte?_of_surrogate? {c : Char} (whole : Text.surrogate? c = none) :
    Text.smuggledByte? c = none := by
  rw [Text.smuggledByte?, whole]
  rfl

/-- A path without halves of surrogate pairs is one that its bytes give back and that has no half
that stands for no byte. -/
theorem clear_iff {p : Path} (canonical : p.Canonical) :
    p.Clear ↔ p.decoded.text = p.text ∧ Text.unpaired? 0 p.text.toList = none := by
  rw [Uri.unpaired?_eq_none_iff]
  constructor
  · intro clear
    have bytes : p.bytes = p.text.toList.flatMap String.utf8EncodeChar :=
      List.flatMap_congr fun c member =>
        Uri.pathBytes_of_unsmuggled (smuggledByte?_of_surrogate? (clear c member))
    refine ⟨?_, fun c member _ => clear c member⟩
    rw [← String.toList_inj, ← ofUtf8Lossy_bytes canonical, bytes, Text.ofUtf8Lossy_flatMap]
  · rintro ⟨same, paired⟩
    have read : Text.ofUtf8Lossy p.bytes = p.text.toList := by
      rw [ofUtf8Lossy_bytes canonical, same]
    have back : (Text.ofUtf8Lossy p.bytes).flatMap Uri.pathBytes = p.bytes := by rw [read]; rfl
    have unsmuggled := Uri.unsmuggled_of_reread back
    rw [read] at unsmuggled
    exact fun c member => paired c member (unsmuggled c member)

end Path

namespace Location

open Uri.Reference (InPath Standing lower)

variable {workingDirectory p : Path} {uri : String}

theorem localUri_eq_ok (clear : (Path.absolute workingDirectory p).Clear) :
    localUri workingDirectory p = .ok (fileUri (Path.absolute workingDirectory p)) := by
  have paired : Text.unpaired? 0 (Path.absolute workingDirectory p).text.toList = none :=
    Uri.unpaired?_eq_none_iff.mpr fun c member _ => clear c member
  rw [localUri, paired]

theorem pathText_fileUri {a : Path} (canonical : a.Canonical) :
    (Location.mk (fileUri a)).pathText = .ok a.decoded.text := by
  rw [pathText_eq (isLocal_fileUri canonical.rooted), filePath_fileUri canonical]

/-- A path comes back from its location exactly when it has no halves of surrogate pairs. -/
theorem recovered_iff (canonical : (Path.absolute workingDirectory p).Canonical) :
    (∃ uri, localUri workingDirectory p = .ok uri ∧
      (Location.mk uri).pathText = .ok (Path.absolute workingDirectory p).text) ↔
      (Path.absolute workingDirectory p).Clear := by
  constructor
  · rintro ⟨uri, accepted, text⟩
    rw [uri_of_localUri accepted, pathText_fileUri canonical, Except.ok.injEq] at text
    refine (Path.clear_iff canonical).mpr ⟨text, ?_⟩
    unfold localUri at accepted
    dsimp only at accepted
    split at accepted
    · cases accepted
    · assumption
  · intro clear
    refine ⟨_, localUri_eq_ok clear, ?_⟩
    rw [pathText_fileUri canonical, ((Path.clear_iff canonical).mp clear).1]

/-! ## Spellings -/

/-- A text that starts with a slash, but not with two. -/
def StartsOnce (cs : List Char) : Prop :=
  ∃ rest, cs = '/' :: rest ∧ rest.head? ≠ some '/'

/-- An absolute path as a text, without blanks around it. -/
structure Rooted (p : String) : Prop where
  once : StartsOnce p.toList
  ending : ∀ c ∈ p.toList.getLast?, Text.isBlank c = false

/-- Characters that spell a path in a URI: what they are decoded to is the path. -/
structure Encodes (spelled : List Char) (p : String) : Prop where
  once : StartsOnce spelled
  decoded : Uri.decode spelled = p.toList
  inPath : ∀ c ∈ spelled, InPath c
  ending : ∀ c ∈ spelled.getLast?, Text.isBlank c = false

/-- The URIs that spell a path on this machine. The scheme may be in any case. -/
def UriSpelling (p s : String) : Prop :=
  ∃ scheme mark spelled, scheme.map lower = fileScheme.toList ∧
    mark ∈ ["", "//", "//localhost"] ∧ Encodes spelled p ∧
      s = String.ofList (scheme ++ ':' :: (mark.toList ++ spelled))

/-- The spellings of a path on this machine: the path itself and its URIs. -/
def AnySpelling (p s : String) : Prop :=
  s = p ∨ UriSpelling p s

/-- All spellings of some kind are accepted as one location, whose path is the path that is spelled
without its dots and whose forms are those of that path. -/
structure Recovers (workingDirectory : Path) (p : String) (spelling : String → Prop)
    (l : Location) : Prop where
  accepted : ∀ s, spelling s → of workingDirectory (.value (.text s)) = .ok l
  text : l.pathText = .ok (Path.absolute workingDirectory (.ofText p)).text
  forms : l.forms =
    let path := (Path.absolute workingDirectory (.ofText p)).text
    let encoded := String.ofList (Uri.encode path.toList)
    ["file://" ++ encoded, path, "file:" ++ encoded]

theorem StartsOnce.head? {cs : List Char} (once : StartsOnce cs) : cs.head? = some '/' := by
  obtain ⟨rest, rfl, -⟩ := once
  rfl

/-- What stands between the scheme and the path is cut off as the name of this machine. -/
theorem exists_authority {mark : String} (known : mark ∈ ["", "//", "//localhost"])
    {spelled : List Char} (once : StartsOnce spelled) (inPath : ∀ c ∈ spelled, InPath c) :
    ∃ authority, (authority = [] ∨ authority = "localhost".toList) ∧
      (∀ c ∈ mark.toList ++ spelled, Uri.Reference.Kept c) ∧
      Uri.Reference.cutAuthority (mark.toList ++ spelled) = (authority, spelled) := by
  have slash : ∀ c ∈ spelled.head?, c = '/' := fun c first =>
    Option.some.inj (first.symm.trans once.head?)
  have standing : ∀ authority : List Char, (∀ c ∈ authority, Uri.Reference.InAuthority c) →
      Standing authority spelled := fun _ named => ⟨named, inPath, slash⟩
  have kept : ∀ mark : List Char, (∀ c ∈ mark, Uri.Reference.Kept c) →
      ∀ c ∈ mark ++ spelled, Uri.Reference.Kept c := fun _ kept =>
    List.forall_mem_append.mpr ⟨kept, fun c member => (inPath c member).1⟩
  rcases List.mem_cons.mp known with rfl | known
  · refine ⟨[], Or.inl rfl, kept _ (by simp), ?_⟩
    refine Uri.Reference.cutAuthority_eq_nil fun rest twice => ?_
    obtain ⟨rest', rfl, other⟩ := once
    cases twice
    exact other rfl
  rcases List.mem_cons.mp known with rfl | known
  · refine ⟨[], Or.inl rfl, kept _ ?_, ?_⟩
    · simp [Uri.Reference.Kept]
    · exact Uri.Reference.cutAuthority_append (standing [] (by simp))
  · cases List.mem_singleton.mp known
    refine ⟨"localhost".toList, Or.inr rfl, kept _ ?_, ?_⟩
    · simp [Uri.Reference.Kept]
    · exact Uri.Reference.cutAuthority_append (standing "localhost".toList (by
        simp [Uri.Reference.InAuthority, Uri.Reference.Kept]))

/-- The characters of a scheme that is `file` in some case. -/
theorem exists_scheme {scheme : List Char} (file : scheme.map lower = fileScheme.toList) :
    ∃ first more, scheme = first :: more ∧ Uri.isLetter first = true ∧
      ∀ c ∈ first :: more, Uri.Reference.isSchemeChar c = true := by
  have letters : ∀ c ∈ scheme, Uri.isLetter c = true := by
    intro c member
    have known : ∀ c ∈ fileScheme.toList, Uri.isLetter c = true := List.all_eq_true.mp (by decide)
    exact Uri.Reference.isLetter_of_lower (known _ (file ▸ List.mem_map_of_mem member))
  cases scheme with
  | nil => cases file
  | cons first more =>
    refine ⟨first, more, rfl, letters first List.mem_cons_self, fun c member => ?_⟩
    simp [Uri.Reference.isSchemeChar, letters c member]

/-- The parts of a URI that spells a path on this machine. -/
theorem exists_parts {p s : String} (uri : UriSpelling p s) :
    ∃ authority spelled, (authority = [] ∨ authority = "localhost".toList) ∧ Encodes spelled p ∧
      Uri.Reference.ofText s = ⟨fileScheme.toList, authority, spelled, [], []⟩ := by
  obtain ⟨scheme, mark, spelled, file, known, encodes, rfl⟩ := uri
  obtain ⟨authority, here, kept, cut⟩ := exists_authority known encodes.once encodes.inPath
  obtain ⟨first, more, rfl, letter, chars⟩ := exists_scheme file
  refine ⟨authority, spelled, here, encodes, ?_⟩
  rw [Uri.Reference.ofText, String.toList_ofList,
    Uri.Reference.ofChars_scheme letter chars kept cut encodes.inPath, file]

/-! ## What the spellings are taken for -/

/-- A text that begins and does not end in a blank is normalised as it stands. -/
theorem ofText_eq {s : String} {first : Char} (opening : s.toList.head? = some first)
    (front : Text.isBlank first = false)
    (ending : ∀ c ∈ s.toList.getLast?, Text.isBlank c = false) :
    ofText workingDirectory s =
      match Uri.hostFault? (Uri.Reference.ofText s).authority with
      | some fault => .error (.host fault)
      | none => (normalForm workingDirectory s).map Location.mk := by
  have trimmed : Text.trim s = s := Text.trim_of_ends (fun c member => by
    rwa [← Option.some.inj (opening.symm.trans member)]) ending
  have visible : Text.blank s = false := by
    rw [Text.blank, List.all_eq_false]
    exact ⟨first, List.mem_of_mem_head? opening, by simp [front]⟩
  rw [ofText, visible, if_neg (by simp), normalize, trimmed]
  cases Uri.hostFault? (Uri.Reference.ofText s).authority <;> rfl

/-- A path is taken for itself, unless a host is read in it that may not be named. -/
theorem ofText_rooted {p : String} (rooted : Rooted p) :
    ofText workingDirectory p =
      match Uri.hostFault? (Uri.Reference.ofText p).authority with
      | some fault => .error (.host fault)
      | none => (localUri workingDirectory (.ofText p)).map Location.mk := by
  obtain ⟨rest, text, -⟩ := rooted.once
  have scheme : (Uri.Reference.ofText p).scheme = [] := by
    rw [Uri.Reference.ofText, text, Uri.Reference.scheme_slash]
  rw [ofText_eq rooted.once.head? (by decide) rooted.ending]
  simp only [normalForm, scheme, List.length_nil, Nat.zero_le, ↓reduceIte]

/-- A URI is taken for the path that it spells. -/
theorem ofText_uriSpelling {p s : String} (rooted : Rooted p) (uri : UriSpelling p s) :
    ofText workingDirectory s = (localUri workingDirectory (.ofText p)).map Location.mk := by
  obtain ⟨authority, spelled, here, encodes, parts⟩ := exists_parts uri
  obtain ⟨scheme, mark, spelled', file, known, encodes', rfl⟩ := uri
  obtain ⟨first, more, rfl, letter, chars⟩ := exists_scheme file
  have opening : (String.ofList (first :: more ++ ':' :: (mark.toList ++ spelled'))).toList.head? =
      some first := by
    rw [String.toList_ofList]
    rfl
  have ending : ∀ c ∈
      (String.ofList (first :: more ++ ':' :: (mark.toList ++ spelled'))).toList.getLast?,
      Text.isBlank c = false := by
    have some_spelled : spelled' ≠ [] := by
      rintro rfl
      cases encodes'.once.head?
    rw [String.toList_ofList, ← List.cons_append, ← List.append_assoc,
      List.getLast?_append_of_ne_nil _ some_spelled]
    exact encodes'.ending
  have sound : Uri.hostFault? authority = none := by
    rcases here with rfl | rfl <;> decide
  have this_machine : isThisMachine authority = true := by
    rcases here with rfl | rfl <;> decide
  have some_path : (Uri.decode spelled).isEmpty = false := by
    obtain ⟨rest, text, -⟩ := rooted.once
    rw [encodes.decoded, text]
    rfl
  have path : String.ofList (Uri.decode spelled) = p := by
    rw [encodes.decoded, String.ofList_toList]
  have long : ¬ fileScheme.toList.length ≤ 1 := by decide
  rw [ofText_eq opening (isBlank_of_isSchemeChar (chars first List.mem_cons_self)) ending, parts]
  simp only [sound, normalForm, parts, this_machine, some_path, path, long, ne_eq,
    not_true_eq_false, Bool.false_eq_true, ↓reduceIte]

/-! ## The location of a path -/

/-- An absolute path collapses to a canonical one, wherever it is seen from. -/
theorem canonical_rooted (workingDirectory : Path) {p : String} (rooted : Rooted p) :
    (Path.absolute workingDirectory (.ofText p)).Canonical := by
  have absolute : (Path.ofText p).isAbsolute = true := by
    obtain ⟨rest, text, other⟩ := rooted.once
    have start : (Path.ofText p).start = .root := by
      rw [Path.ofText, text]
      cases rest with
      | nil => rfl
      | cons c rest =>
        have notSlash : c ≠ '/' := fun same => other (congrArg some same)
        simp [Path.startOf, notSlash]
    simp [Path.isAbsolute, start]
  have whole : workingDirectory.join (.ofText p) = .ofText p := if_pos absolute
  rw [Path.absolute, whole]
  exact ⟨absolute, Path.normal_collapse (Path.normal_ofText p), Path.plain_collapse absolute⟩

theorem forms_fileUri {a : Path} (canonical : a.Canonical) :
    (Location.mk (fileUri a)).forms =
      [fileUri a, a.decoded.text, "file:" ++ String.ofList (Uri.encode a.text.toList)] := by
  rw [forms, if_pos (isLocal_fileUri canonical.rooted), filePath_fileUri canonical,
    parts_fileUri canonical.rooted]
  rfl

section Recovery

variable {p : String}

/-- The location of a path without halves of surrogate pairs gives the path back. -/
theorem recovers_of_accepted {spelling : String → Prop}
    (canonical : (Path.absolute workingDirectory (.ofText p)).Canonical)
    (clear : (Path.absolute workingDirectory (.ofText p)).Clear)
    (accepted : ∀ s, spelling s →
      ofText workingDirectory s = (localUri workingDirectory (.ofText p)).map Location.mk) :
    Recovers workingDirectory p spelling
      ⟨fileUri (Path.absolute workingDirectory (.ofText p))⟩ where
  accepted s spelled := by
    refine of_text ?_
    rw [accepted s spelled, localUri_eq_ok clear]
    rfl
  text := by
    rw [pathText_fileUri canonical, ((Path.clear_iff canonical).mp clear).1]
  forms := by
    rw [forms_fileUri canonical, ((Path.clear_iff canonical).mp clear).1]
    rfl

theorem head?_forms (l : Location) : l.forms.head? = some l.uri := by
  rw [forms]
  split <;> rfl

/-- The location tells the path without its dots, and is told by it. -/
theorem Recovers.eq_iff {q : String} {spelling spelling' : String → Prop} {l m : Location}
    (first : Recovers workingDirectory p spelling l)
    (second : Recovers workingDirectory q spelling' m) :
    l = m ↔ (Path.absolute workingDirectory (.ofText p)).text =
      (Path.absolute workingDirectory (.ofText q)).text := by
  constructor
  · rintro rfl
    exact Except.ok.inj (first.text.symm.trans second.text)
  · intro same
    have forms : l.forms = m.forms := by rw [first.forms, second.forms, same]
    have uris : l.uri = m.uri := by
      rw [← Option.some.injEq, ← head?_forms, forms, head?_forms]
    exact congrArg Location.mk uris

/-- **All spellings of a path agree**, and the path comes back from its location, unless the path
itself is refused for a host that is read in it or has halves of surrogate pairs. -/
theorem recovers_iff (workingDirectory : Path) (rooted : Rooted p) :
    ((Path.absolute workingDirectory (.ofText p)).Clear →
        Recovers workingDirectory p (UriSpelling p)
          ⟨fileUri (Path.absolute workingDirectory (.ofText p))⟩) ∧
      ((∃ l, Recovers workingDirectory p (AnySpelling p) l) ↔
        Uri.hostFault? (Uri.Reference.ofText p).authority = none ∧
          (Path.absolute workingDirectory (.ofText p)).Clear) ∧
      ∀ q l m, Recovers workingDirectory p (UriSpelling p) l →
        Recovers workingDirectory q (UriSpelling q) m →
          (l = m ↔ (Path.absolute workingDirectory (.ofText p)).text =
            (Path.absolute workingDirectory (.ofText q)).text) := by
  have canonical := canonical_rooted workingDirectory rooted
  refine ⟨fun clear => recovers_of_accepted canonical clear fun s => ofText_uriSpelling rooted,
    ⟨?_, ?_⟩, fun q l m first second => first.eq_iff second⟩
  · rintro ⟨l, recovers⟩
    have accepted := recovers.accepted p (Or.inl rfl)
    rw [of, ofText_rooted rooted] at accepted
    cases host : Uri.hostFault? (Uri.Reference.ofText p).authority with
    | some fault =>
      rw [host] at accepted
      cases accepted
    | none =>
      rw [host] at accepted
      cases found : localUri workingDirectory (.ofText p) with
      | error fault =>
        rw [found] at accepted
        cases accepted
      | ok uri =>
        rw [found] at accepted
        cases accepted
        exact ⟨rfl, (recovered_iff canonical).mp ⟨uri, found, recovers.text⟩⟩
  · rintro ⟨sound, clear⟩
    refine ⟨_, recovers_of_accepted canonical clear ?_⟩
    rintro s (rfl | uri)
    · rw [ofText_rooted rooted, sound]
    · exact ofText_uriSpelling rooted uri

end Recovery

/-- A path with a space, a percent sign and dots is spelled by itself and by its URIs. -/
theorem recovers_percent :
    Rooted "/lib/50%/../a b.jar" ∧ ∃ l,
      Recovers ⟨.root, ["work"]⟩ "/lib/50%/../a b.jar" (AnySpelling "/lib/50%/../a b.jar") l := by
  have rooted : Rooted "/lib/50%/../a b.jar" :=
    ⟨⟨"lib/50%/../a b.jar".toList, by decide, by decide⟩, by simp; decide⟩
  have sound : Uri.hostFault? (Uri.Reference.ofText "/lib/50%/../a b.jar").authority = none := by
    decide +kernel
  have clear : (Path.absolute ⟨.root, ["work"]⟩ (.ofText "/lib/50%/../a b.jar")).Clear := by
    decide +kernel
  exact ⟨rooted, (recovers_iff ⟨.root, ["work"]⟩ rooted).2.1.mpr ⟨sound, clear⟩⟩

/-- A tab after the first slash lets a host be read where there is none, so that a path is refused
that its URI spells. -/
theorem refused_beside_uri :
    Rooted "/\t/[a" ∧ UriSpelling "/\t/[a" "file:/%09/[a" ∧
      of ⟨.root, ["work"]⟩ (.value (.text "/\t/[a")) = .error (refusal (.host .brackets)) ∧
      of ⟨.root, ["work"]⟩ (.value (.text "file:/%09/[a")) = .ok ⟨"file:///%09/%5Ba"⟩ := by
  have encodes : Encodes "/%09/[a".toList "/\t/[a" :=
    ⟨⟨"%09/[a".toList, by decide, by decide⟩, by decide +kernel,
      by simp [InPath, Uri.Reference.Kept], by simp; decide⟩
  have refused : ofText ⟨.root, ["work"]⟩ "/\t/[a" = .error (.host .brackets) := by decide +kernel
  refine ⟨⟨⟨"\t/[a".toList, by decide, by decide⟩, by simp; decide⟩,
    ⟨"file".toList, "", _, by decide, by simp, encodes, by decide⟩, ?_, of_text (by decide +kernel)⟩
  rw [of, refused]
  rfl

end Location

end Classpath
