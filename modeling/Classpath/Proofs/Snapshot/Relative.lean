import Classpath.Proofs.PathSpelling
import Classpath.Proofs.Snapshot.Refusal
import Classpath.Proofs.Snapshot.RoundTrip

/-! # Relative locations of a snapshot

A location that a snapshot lists as a relative path is seen from a base directory, which is the
directory of the snapshot file. The class is then placed below that directory, wherever the process
works, if the location has no colon and the joined path is taken as it stands
(`Classpath.Snapshot.places_iff`). A relative path with a colon is taken for a URI and left alone,
so that it is seen from the working directory after all.
-/

namespace Classpath

namespace Text

/-- Behind a character that is no blank, blanks are trimmed from the end only. -/
theorem exists_trimEnds_behind {front : List Char} {mark : Char} (solid : isBlank mark = false)
    (opening : ∀ c ∈ (front ++ [mark]).head?, isBlank c = false) (cs : List Char) :
    ∃ rest, trimEnds isBlank (front ++ mark :: cs) = front ++ mark :: rest := by
  have start : (front ++ mark :: cs).dropWhile isBlank = front ++ mark :: cs := by
    cases front with
    | nil => exact List.dropWhile_cons_of_neg (by simp [solid])
    | cons c front => exact List.dropWhile_cons_of_neg (by simp [opening c rfl])
  have stays : (mark :: front.reverse).dropWhile isBlank = mark :: front.reverse :=
    List.dropWhile_cons_of_neg (by simp [solid])
  have turned : (front ++ mark :: cs).reverse = cs.reverse ++ mark :: front.reverse := by simp
  rw [trimEnds, start, turned, List.dropWhile_append, stays]
  split
  · exact ⟨[], by simp⟩
  · exact ⟨(cs.reverse.dropWhile isBlank).reverse, by simp⟩

end Text

/-! ## Rooted paths that are trimmed -/

namespace Path

/-- The text of a rooted path ends in its last name, which stands behind a slash. -/
theorem exists_text_last {p : Path} (rooted : p.isAbsolute = true) (normal : p.Normal)
    {front : List String} {last : String} (names : p.names = front ++ [last]) :
    ∃ before, p.text.toList = before ++ '/' :: last.toList ∧ namesIn before = front := by
  have whole : ∀ name ∈ front, IsName name := fun name member =>
    normal name (names ▸ List.mem_append_left _ member)
  rw [toList_text rooted, names]
  by_cases none : front = []
  · subst none
    cases start : p.start with
    | here => simp [isAbsolute, start] at rooted
    | root => exact ⟨[], by simp [Start.text], namesIn_nil⟩
    | doubleRoot => exact ⟨['/'], by simp [Start.text], by decide⟩
  · refine ⟨p.start.text.toList ++ List.intercalate ['/'] (front.map String.toList), ?_, ?_⟩
    · rw [intercalate_concat none, List.append_assoc]
    · rw [namesIn_append_slashes, namesIn_intercalate whole]

/-- A rooted path whose text loses a blank by trimming collapses to more characters than what is
left. -/
theorem span_collapse_trim_lt {p : Path} (rooted : p.isAbsolute = true) (normal : p.Normal)
    (changed : Text.trim p.text ≠ p.text) :
    span (ofText (Text.trim p.text)).collapse.names < span p.collapse.names := by
  have opening : ∀ c ∈ p.text.toList.head?, Text.isBlank c = false := by
    rw [head?_text rooted]
    rintro c ⟨⟩
    decide
  obtain nameless | ⟨front, last, names⟩ := p.names.eq_nil_or_concat
  · exact absurd (Location.untouched_of_nameless nameless).trimmed changed
  rw [List.concat_eq_append] at names
  obtain ⟨before, text, above⟩ := exists_text_last rooted normal names
  -- The last name ends in a blank, so it does not go up.
  have down : last ≠ ".." := by
    rintro rfl
    refine changed (Text.trim_of_ends opening ?_)
    rw [text]
    rintro c found
    have dots : (before ++ '/' :: "..".toList).getLast? = some '.' := by
      rw [List.getLast?_append]
      rfl
    cases dots.symm.trans found
    decide
  have front_solid : ∀ c ∈ (before ++ ['/']).head?, Text.isBlank c = false := by
    intro c found
    apply opening c
    rw [text]
    cases before <;> exact found
  obtain ⟨rest, trimmed⟩ := Text.exists_trimEnds_behind (by decide) front_solid last.toList
  rw [← text] at trimmed
  have shorter : rest.length < last.toList.length := by
    have fewer := Nat.lt_of_not_le fun long => changed (Text.trim_of_length long)
    rw [Text.trim, String.toList_ofList, trimmed, text] at fewer
    simpa using fewer
  have read : (ofText (Text.trim p.text)).names = front ++ namesIn rest := by
    rw [Text.trim, trimmed, ofText_ofList, namesIn_append_slash, above]
  have kept : span (p.names.foldl (ascend true) []) =
      last.toList.length + 1 + span (front.foldl (ascend true) []) := by
    have step : ascend true (front.foldl (ascend true) []) last =
        last :: front.foldl (ascend true) [] := if_pos down
    rw [names, List.foldl_append, List.foldl_cons, List.foldl_nil, step, span_cons]
  have left := span_foldl_ascend_le true (namesIn rest) (front.foldl (ascend true) [])
  have fewer := span_namesIn_le rest
  rw [collapse, collapse, span_reverse, span_reverse, Location.isAbsolute_trim rooted, rooted, kept,
    read, List.foldl_append]
  omega

/-- A rooted path is seen the same from everywhere. -/
theorem absolute_of_rooted {p : Path} (rooted : p.isAbsolute = true) (workingDirectory : Path) :
    absolute workingDirectory p = p.collapse := by
  rw [absolute, join, if_pos rooted]

theorem startOf_text_of_rooted {p : Path} (rooted : p.isAbsolute = true) :
    startOf p.text.toList ≠ .here := by
  obtain ⟨rest, text⟩ := List.head?_eq_some_iff.mp (head?_text rooted)
  rw [text]
  unfold startOf
  split <;> simp_all

end Path

/-- The place that a rooted path leads to does not depend on the working directory. -/
theorem FileTree.locate_of_rooted {t : FileTree} {p : Path} (rooted : p.isAbsolute = true)
    (aim : FileTree.Aim) (workingDirectory other : Path) :
    t.locate aim workingDirectory p.text = t.locate aim other p.text := by
  have start := Path.startOf_text_of_rooted rooted
  simp only [FileTree.locate, if_neg start]

namespace Location

variable {workingDirectory p : Path} {l : Location}

theorem scheme_of_rooted (rooted : p.isAbsolute = true) :
    (Uri.Reference.ofText (Text.trim p.text)).scheme = [] := by
  obtain ⟨rest, text⟩ := Path.exists_trim_slash rooted
  rw [Uri.Reference.ofText, text]
  exact Uri.Reference.scheme_slash rest

/-- A text without a scheme of two letters is normalised as a path. -/
theorem normalForm_of_bare {t : String} (bare : (Uri.Reference.ofText t).scheme.length ≤ 1) :
    normalForm workingDirectory t = localUri workingDirectory (.ofText t) :=
  if_pos bare

theorem ofText_of_of {t : String} (accepted : of workingDirectory (.value (.text t)) = .ok l) :
    ofText workingDirectory t = .ok l := by
  rw [of] at accepted
  exact mapError_eq_ok.mp accepted

/-- A rooted path that names itself is untouched, even if it goes up. -/
theorem untouched_of_rooted (working : workingDirectory.Canonical) (rooted : p.isAbsolute = true)
    (normal : p.Normal) (names : Names workingDirectory p) : Untouched p := by
  obtain ⟨l, accepted, isLocal, text⟩ := names
  obtain ⟨sound, normalised⟩ := normalForm_of_ofText (ofText_of_of accepted)
  have bare : (Uri.Reference.ofText (Text.trim p.text)).scheme.length ≤ 1 := by
    rw [scheme_of_rooted rooted]
    exact Nat.zero_le 1
  have found := normalForm_of_bare bare ▸ normalised
  have trimmed : Text.trim p.text = p.text := by
    by_contra changed
    have shorter := Path.span_collapse_trim_lt rooted normal changed
    have landed := filePath_eq working normal isLocal text
    have canonical := Path.canonical_absolute working.rooted working.normal
      (Path.normal_ofText (Text.trim p.text))
    have same : l = ⟨fileUri _⟩ := congrArg Location.mk (uri_of_localUri found)
    have fewer := Path.span_decoded_le
      (Path.absolute workingDirectory (.ofText (Text.trim p.text)))
    rw [← filePath_fileUri canonical, ← same, landed, Path.absolute_of_rooted rooted,
      Path.absolute_of_rooted (isAbsolute_trim rooted)] at fewer
    omega
  rw [trimmed] at sound bare
  exact ⟨trimmed, bare, sound⟩

/-- A rooted path is taken for the same location everywhere. -/
theorem of_rooted (rooted : p.isAbsolute = true) (workingDirectory other : Path) :
    of workingDirectory (.value (.text p.text)) = of other (.value (.text p.text)) := by
  have local_eq : localUri workingDirectory (.ofText (Text.trim p.text)) =
      localUri other (.ofText (Text.trim p.text)) := by
    rw [localUri, localUri, Path.absolute_of_rooted (isAbsolute_trim rooted),
      Path.absolute_of_rooted (isAbsolute_trim rooted)]
  have normal : normalize workingDirectory p.text = normalize other p.text := by
    simp only [normalize, normalForm, scheme_of_rooted rooted, local_eq, List.length_nil,
      Nat.zero_le, ↓reduceIte]
  rw [of, of, ofText, ofText, normal]

/-- A text that is read as a path leads to that path, as its bytes are read. -/
theorem pathText_of_bare {s : String} (working : workingDirectory.Canonical)
    (trimmed : Text.trim s = s) (bare : (Uri.Reference.ofText s).scheme.length ≤ 1)
    (accepted : of workingDirectory (.value (.text s)) = .ok l) :
    l.pathText = .ok (Path.absolute workingDirectory (.ofText s)).decoded.text := by
  obtain ⟨-, normalised⟩ := normalForm_of_ofText (ofText_of_of accepted)
  rw [trimmed, normalForm_of_bare bare] at normalised
  have canonical := Path.canonical_absolute working.rooted working.normal (Path.normal_ofText s)
  have same : l = ⟨fileUri _⟩ := congrArg Location.mk (uri_of_localUri normalised)
  rw [same, pathText_fileUri canonical]

end Location

namespace Snapshot

variable {workingDirectory base : Path} {s : Snapshot} {name location : String}
  {record : ClassRecord} {m : Maps}

/-- A location that is read as a relative path. -/
structure IsRelative (location : String) : Prop where
  visible : Text.blank location = false
  trimmed : Text.trim location = location
  bare : (Uri.Reference.ofText location).scheme.length ≤ 1
  relative : (Path.ofText location).isAbsolute = false

/-- The location that a listed text stands for, as seen from a base directory. -/
def landing (workingDirectory base : Path) (location : String) : Except Fault Location :=
  Location.of workingDirectory (.value (.text (absolutize (some base) location)))

/-- The maps of a snapshot place a class at a path. -/
def Places (workingDirectory base : Path) (s : Snapshot) (name : String) (p : Path) : Prop :=
  ∃ m l, s.toMaps workingDirectory (some base) = .ok m ∧ m.location? (.text name) = some l ∧
    l.isLocal = true ∧ l.pathText = .ok p.text

/-- Every location that a snapshot lists is accepted. -/
def Accepted (workingDirectory base : Path) (s : Snapshot) : Prop :=
  ∀ entry ∈ s.given, ∃ l, landing workingDirectory base entry.2 = .ok l

theorem nodup_given (apart : (s.classes.map (·.1)).Nodup) : (s.given.map (·.1)).Nodup := by
  rw [List.Nodup, List.pairwise_map] at apart ⊢
  refine apart.filterMap _ fun first second different entry found entry' found' => ?_
  -- What one record gives is what a snapshot with this record alone gives.
  have named : ∀ {listed : String × ClassRecord} {entry : String × String},
      entry ∈ ({ s with classes := [listed] } : Snapshot).given → entry.1 = listed.1 := by
    rintro listed ⟨name, location⟩ member
    obtain ⟨record, inside, -⟩ := mem_given.mp member
    exact congrArg Prod.fst (List.mem_singleton.mp inside)
  rw [named (List.mem_filterMap.mpr ⟨first, List.mem_singleton_self _, found⟩),
    named (List.mem_filterMap.mpr ⟨second, List.mem_singleton_self _, found'⟩)]
  exact different

theorem placeOf_eq_ok_iff {entry : String × String} {place : Name × Location} :
    placeOf workingDirectory (some base) entry = .ok place ↔
      ∃ l, landing workingDirectory base entry.2 = .ok l ∧ place = (.text entry.1, l) := by
  unfold placeOf landing
  rw [bind_eq_ok]
  exact exists_congr fun l => and_congr_right fun _ => ⟨fun same => (Except.ok.inj same).symm,
    fun same => congrArg Except.ok same.symm⟩

/-- The maps of a snapshot are read when every location that it lists is accepted. -/
theorem exists_toMaps_iff : (∃ m, s.toMaps workingDirectory (some base) = .ok m) ↔
    Accepted workingDirectory base s := by
  rw [toMaps_eq]
  constructor
  · rintro ⟨m, read⟩ entry member
    obtain ⟨places, ran, -⟩ := bind_eq_ok.mp read
    obtain ⟨place, accepted⟩ := exists_ok_of_mapM ran entry member
    obtain ⟨l, landed, -⟩ := placeOf_eq_ok_iff.mp accepted
    exact ⟨l, landed⟩
  · intro accepted
    cases ran : s.given.mapM (placeOf workingDirectory (some base)) with
    | ok places => exact ⟨_, rfl⟩
    | error fault =>
      obtain ⟨entry, member, refused⟩ := exists_error_of_mapM ran
      obtain ⟨l, landed⟩ := accepted entry member
      cases (placeOf_eq_ok_iff.mpr ⟨l, landed, rfl⟩).symm.trans refused

/-- Entries with different names are placed one by one, and each is found under its name. -/
theorem lookup_of_placed {entries : List (String × String)} {places : List (Name × Location)}
    (ran : entries.mapM (placeOf workingDirectory (some base)) = .ok places)
    (apart : (entries.map (·.1)).Nodup) (member : (name, location) ∈ entries) :
    ∃ l, landing workingDirectory base location = .ok l ∧ places.lookup (.text name) = some l := by
  induction entries generalizing places with
  | nil => cases member
  | cons entry rest ih =>
    rw [List.mapM_cons] at ran
    obtain ⟨place, accepted, ran⟩ := bind_eq_ok.mp ran
    obtain ⟨others, later, same⟩ := bind_eq_ok.mp ran
    cases same
    obtain ⟨l, landed, rfl⟩ := placeOf_eq_ok_iff.mp accepted
    rw [List.map_cons, List.nodup_cons] at apart
    rcases List.mem_cons.mp member with rfl | member
    · exact ⟨l, landed, List.lookup_cons_self⟩
    · have other : (Name.text name == Name.text entry.1) = false := by
        rw [beq_eq_false_iff_ne]
        intro same
        exact apart.1 (Name.text.inj same ▸ List.mem_map_of_mem member)
      rw [List.lookup_cons, other]
      exact ih later apart.2 member

/-- The maps of a snapshot have for a class the location that is listed for it. -/
theorem location?_of_toMaps (apart : (s.classes.map (·.1)).Nodup)
    (read : s.toMaps workingDirectory (some base) = .ok m) (member : (name, location) ∈ s.given) :
    ∃ l, landing workingDirectory base location = .ok l ∧ m.location? (.text name) = some l := by
  rw [toMaps_eq] at read
  obtain ⟨places, ran, same⟩ := bind_eq_ok.mp read
  cases same
  obtain ⟨l, landed, found⟩ := lookup_of_placed ran (nodup_given apart) member
  exact ⟨l, landed, (Maps.location?_eq _ name).trans found⟩

/-! ## Relative locations -/

theorem absolutize_of_relative (relative : IsRelative location) (bare : ':' ∉ location.toList)
    (base : Path) :
    absolutize (some base) location = (base.join (.ofText location)).text := by
  simp [absolutize, bare, relative.relative]

theorem IsRelative.ne_empty (relative : IsRelative location) : location ≠ "" := by
  rintro rfl
  cases relative.visible

theorem IsRelative.mem_given (relative : IsRelative location) (listed : (name, record) ∈ s.classes)
    (here : record.location = some location) : (name, location) ∈ s.given :=
  Snapshot.mem_given.mpr ⟨record, listed, here, relative.ne_empty⟩

/-- A relative location without a colon stands for one location everywhere. -/
theorem landing_eq (relative : IsRelative location) (bare : ':' ∉ location.toList)
    (rooted : base.isAbsolute = true) (workingDirectory other : Path) :
    landing workingDirectory base location = landing other base location := by
  rw [landing, landing, absolutize_of_relative relative bare]
  exact Location.of_rooted (Path.isAbsolute_join rooted) workingDirectory other

/-- A relative location without a colon leads below the base directory exactly when the joined path
is untouched and has no halves of surrogate pairs. -/
theorem landing_iff (working : workingDirectory.Canonical) (relative : IsRelative location)
    (bare : ':' ∉ location.toList) (rooted : base.isAbsolute = true) (normal : base.Normal) :
    (∃ l, landing workingDirectory base location = .ok l ∧ l.isLocal = true ∧
        l.pathText = .ok (Path.absolute base (.ofText location)).text) ↔
      Location.Untouched (base.join (.ofText location)) ∧
        (Path.absolute base (.ofText location)).Clear := by
  have joined := Path.isAbsolute_join (q := .ofText location) rooted
  have named := Path.normal_join normal (Path.normal_ofText location)
  have whole : Path.absolute workingDirectory (base.join (.ofText location)) =
      Path.absolute base (.ofText location) := Path.absolute_of_rooted joined workingDirectory
  have names : (∃ l, landing workingDirectory base location = .ok l ∧ l.isLocal = true ∧
      l.pathText = .ok (Path.absolute base (.ofText location)).text) ↔
        Location.Names workingDirectory (base.join (.ofText location)) := by
    rw [Location.Names, whole, landing, absolutize_of_relative relative bare]
    rfl
  rw [names, ← whole]
  constructor
  · intro itself
    have untouched := Location.untouched_of_rooted working joined named itself
    exact ⟨untouched, (untouched.names_iff working named).mp itself⟩
  · rintro ⟨untouched, clear⟩
    exact (untouched.names_iff working named).mpr clear

/-! ## Files -/

section Files

variable {files : FileTree} {path : Path}

/-- The snapshot that a rooted path leads to does not depend on the working directory. -/
theorem find_of_rooted (rooted : path.isAbsolute = true) (workingDirectory other : Path) :
    find files workingDirectory path = find files other path := by
  have status : files.status workingDirectory path.text = files.status other path.text := by
    simp only [FileTree.status, FileTree.locate_of_rooted rooted .target workingDirectory other]
  simp only [find, FileTree.exists?, FileTree.ask, documentAt, FileTree.read, status]

theorem resolved_of_rooted (rooted : path.isAbsolute = true) (workingDirectory other : Path) :
    files.resolved workingDirectory path = files.resolved other path := by
  simp only [FileTree.resolved, FileTree.locate_of_rooted rooted .target workingDirectory other,
    Path.absolute_of_rooted rooted]

theorem isAbsolute_resolved (rooted : path.isAbsolute = true) (workingDirectory : Path) :
    (files.resolved workingDirectory path).isAbsolute = true := by
  unfold FileTree.resolved
  split
  · rfl
  · rw [Path.absolute_of_rooted rooted]
    exact rooted

/-- A snapshot file that is loaded in two working directories places a class with a relative
location without a colon at one location. -/
theorem location?_of_load (apart : (s.classes.map (·.1)).Nodup)
    (listed : (name, record) ∈ s.classes) (here : record.location = some location)
    (relative : IsRelative location) (bare : ':' ∉ location.toList)
    (rooted : path.isAbsolute = true) {other : Path} {m' : Maps}
    (found : find files workingDirectory path = .ok s)
    (loaded : load files workingDirectory path = .ok m)
    (loaded' : load files other path = .ok m') :
    m.location? (.text name) = m'.location? (.text name) := by
  have member := relative.mem_given listed here
  have above : path.parent.isAbsolute = true := rooted
  rw [load_of_find found] at loaded
  rw [load_of_find (find_of_rooted rooted workingDirectory other ▸ found), mapsAt,
    resolved_of_rooted above other workingDirectory] at loaded'
  obtain ⟨l, landed, place⟩ := location?_of_toMaps apart (mapError_eq_ok.mp loaded) member
  obtain ⟨l', landed', place'⟩ := location?_of_toMaps apart (mapError_eq_ok.mp loaded') member
  have base : (files.resolved workingDirectory path.parent).isAbsolute = true :=
    isAbsolute_resolved above workingDirectory
  rw [landing_eq relative bare base other workingDirectory] at landed'
  rw [place, place', Except.ok.inj (landed.symm.trans landed')]

end Files

/-- **Relative locations follow the snapshot file.** A class whose location is a relative path
without a colon is placed below the base directory exactly when every listed location is accepted,
the joined path is untouched and it has no halves of surrogate pairs; where it is placed does not
depend on the working directory. A relative path with a colon is placed below the working
directory. -/
theorem places_iff (apart : (s.classes.map (·.1)).Nodup) (listed : (name, record) ∈ s.classes)
    (here : record.location = some location) (relative : IsRelative location)
    (working : workingDirectory.Canonical) (rooted : base.isAbsolute = true)
    (normal : base.Normal) :
    (':' ∉ location.toList →
      (Places workingDirectory base s name (Path.absolute base (.ofText location)) ↔
        Accepted workingDirectory base s ∧ Location.Untouched (base.join (.ofText location)) ∧
          (Path.absolute base (.ofText location)).Clear) ∧
      (∀ other m m', s.toMaps workingDirectory (some base) = .ok m →
        s.toMaps other (some base) = .ok m' →
          m.location? (.text name) = m'.location? (.text name)) ∧
      ∀ files path other m m', path.isAbsolute = true →
        find files workingDirectory path = .ok s → load files workingDirectory path = .ok m →
          load files other path = .ok m' →
            m.location? (.text name) = m'.location? (.text name)) ∧
      (':' ∈ location.toList → ∀ m, s.toMaps workingDirectory (some base) = .ok m →
        ∃ l, m.location? (.text name) = some l ∧ l.pathText =
          .ok (Path.absolute workingDirectory (.ofText location)).decoded.text) := by
  have member := relative.mem_given listed here
  refine ⟨fun bare => ⟨?_, ?_, ?_⟩, fun colon m read => ?_⟩
  · have lands := landing_iff working relative bare rooted normal
    constructor
    · rintro ⟨m, l, read, place, isLocal, text⟩
      obtain ⟨l', landed, place'⟩ := location?_of_toMaps apart read member
      cases place.symm.trans place'
      exact ⟨exists_toMaps_iff.mp ⟨m, read⟩, lands.mp ⟨l, landed, isLocal, text⟩⟩
    · rintro ⟨accepted, sound⟩
      obtain ⟨m, read⟩ := exists_toMaps_iff.mpr accepted
      obtain ⟨l, landed, isLocal, text⟩ := lands.mpr sound
      obtain ⟨l', landed', place⟩ := location?_of_toMaps apart read member
      cases landed.symm.trans landed'
      exact ⟨m, l, read, place, isLocal, text⟩
  · intro other m m' read read'
    obtain ⟨l, landed, place⟩ := location?_of_toMaps apart read member
    obtain ⟨l', landed', place'⟩ := location?_of_toMaps apart read' member
    rw [landing_eq relative bare rooted other workingDirectory] at landed'
    rw [place, place', Except.ok.inj (landed.symm.trans landed')]
  · intro files path other m m' outright found loaded loaded'
    exact location?_of_load apart listed here relative bare outright found loaded loaded'
  · obtain ⟨l, landed, place⟩ := location?_of_toMaps apart read member
    rw [landing, absolutize_of_colon colon] at landed
    exact ⟨l, place, Location.pathText_of_bare working relative.trimmed relative.bare landed⟩

/-- An archive in a subdirectory is placed below the base directory. -/
theorem places_iff_jar :
    let s : Snapshot := ⟨currentVersion, [("A", ⟨some "lib/a.jar", []⟩)]⟩
    let base : Path := ⟨.root, ["base"]⟩
    let work : Path := ⟨.root, ["work"]⟩
    (s.classes.map (·.1)).Nodup ∧ IsRelative "lib/a.jar" ∧ work.Canonical ∧
      base.isAbsolute = true ∧ base.Normal ∧
        Places work base s "A" ⟨.root, ["base", "lib", "a.jar"]⟩ := by
  intro s base work
  have apart : (s.classes.map (·.1)).Nodup := List.nodup_singleton "A"
  have relative : IsRelative "lib/a.jar" :=
    ⟨by decide +kernel, by decide +kernel, by decide +kernel, by decide +kernel⟩
  have working : work.Canonical :=
    ⟨rfl, by simp [work, Path.Normal, Path.IsName], by simp [work, Path.Plain]⟩
  have normal : base.Normal := by simp [base, Path.Normal, Path.IsName]
  have accepted : Accepted work base s := by
    intro entry member
    obtain rfl : entry = ("A", "lib/a.jar") := List.mem_singleton.mp member
    exact ⟨⟨"file:///base/lib/a.jar"⟩, Location.of_text (by decide +kernel)⟩
  have below : Path.absolute base (.ofText "lib/a.jar") = ⟨.root, ["base", "lib", "a.jar"]⟩ := by
    decide +kernel
  have untouched : Location.Untouched (base.join (.ofText "lib/a.jar")) :=
    ⟨by decide +kernel, by decide +kernel, by decide +kernel⟩
  obtain ⟨bare, -⟩ := places_iff apart List.mem_cons_self rfl relative working rfl normal
  have placed := (bare (by decide)).1.mpr ⟨accepted, untouched, by rw [below]; decide +kernel⟩
  rw [below] at placed
  exact ⟨apart, relative, working, rfl, normal, placed⟩

/-- An archive with a colon in its name is placed below the working directory instead. -/
theorem colon_not_below_base :
    let s : Snapshot := ⟨currentVersion, [("A", ⟨some "lib/a:b.jar", []⟩)]⟩
    let base : Path := ⟨.root, ["base"]⟩
    let work : Path := ⟨.root, ["work"]⟩
    IsRelative "lib/a:b.jar" ∧
      landing work base "lib/a:b.jar" = .ok ⟨"file:///work/lib/a%3Ab.jar"⟩ ∧
        ¬ Places work base s "A" (Path.absolute base (.ofText "lib/a:b.jar")) := by
  intro s base work
  have relative : IsRelative "lib/a:b.jar" :=
    ⟨by decide +kernel, by decide +kernel, by decide +kernel, by decide +kernel⟩
  have landed : landing work base "lib/a:b.jar" = .ok ⟨"file:///work/lib/a%3Ab.jar"⟩ :=
    Location.of_text (by decide +kernel)
  refine ⟨relative, landed, ?_⟩
  rintro ⟨m, l, read, place, isLocal, text⟩
  have member : ("A", "lib/a:b.jar") ∈ s.given := relative.mem_given List.mem_cons_self rfl
  have apart : (s.classes.map (·.1)).Nodup := List.nodup_singleton "A"
  obtain ⟨l', landed', place'⟩ := location?_of_toMaps apart read member
  cases landed.symm.trans landed'
  cases place.symm.trans place'
  rw [Location.pathText_eq isLocal, Except.ok.injEq] at text
  revert text
  decide +kernel

end Snapshot

end Classpath
