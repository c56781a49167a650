import Classpath.Proofs.Graph.Mirror
import Classpath.Proofs.Snapshot.Relative
import Classpath.Proofs.Snapshot.Seen

/-! # Snapshots in two formats

A snapshot may be kept as JSON or as YAML. Two files in one directory that hold one document, each
in its format, are loaded alike: both give maps with the same graph, or both are refused with
failures of one class (`Classpath.Snapshot.load_agrees_iff`). The exception is a YAML document that
is neither a table nor anything else: it counts as a table without entries and is accepted, and the
JSON file is refused.
-/

namespace Classpath

/-! ## Maps in another order -/

/-- A look-up does not depend on the order of entries without repeated keys. -/
theorem lookup_eq_of_perm {α β : Type} [BEq α] [LawfulBEq α] {entries others : List (α × β)}
    (order : entries.Perm others) (apart : (entries.map Prod.fst).Nodup) (key : α) :
    entries.lookup key = others.lookup key := by
  have apart' : (others.map Prod.fst).Nodup := (order.map Prod.fst).nodup_iff.mp apart
  apply Option.ext
  intro value
  rw [lookup_eq_some_iff_mem apart, lookup_eq_some_iff_mem apart', order.mem_iff]

namespace Maps

/-- Two maps list the same classes and locations, in any order, and no class twice. -/
structure SameAs (m m' : Maps) : Prop where
  dependencies : m.dependencies.Perm m'.dependencies
  locations : m.locations.Perm m'.locations
  dependenciesApart : (m.dependencies.map Prod.fst).Nodup
  locationsApart : (m.locations.map Prod.fst).Nodup

variable {m m' : Maps}

theorem SameAs.textual (same : m.SameAs m') (textual : m.Textual) : m'.Textual where
  keys entry member := textual.keys entry (same.dependencies.mem_iff.mpr member)
  targets entry member := textual.targets entry (same.dependencies.mem_iff.mpr member)
  located entry member := textual.located entry (same.locations.mem_iff.mpr member)

/-- Maps in another order answer alike. -/
theorem SameAs.alike (same : m.SameAs m') (textual : m.Textual) : m.answers.Alike m'.answers where
  classes name := by
    change name ∈ Name.texts m.known ↔ name ∈ Name.texts m'.known
    rw [Name.mem_texts, Name.mem_texts, mem_known textual, mem_known (same.textual textual)]
    simp only [same.dependencies.mem_iff, same.locations.mem_iff]
  dependencies source _ target := by
    change target ∈ Name.texts (m.dependenciesOf _) ↔ target ∈ Name.texts (m'.dependenciesOf _)
    rw [dependenciesOf_eq, dependenciesOf_eq,
      lookup_eq_of_perm same.dependencies same.dependenciesApart]
  location name _ := by
    change m.location? _ = m'.location? _
    rw [location?_eq, location?_eq, lookup_eq_of_perm same.locations same.locationsApart]

/-- Two maps give graphs that look alike, wherever and under whatever label they are built. -/
def OneGraph (m m' : Maps) : Prop :=
  ∀ workingDirectory label label', ∃ g h,
    Graph.ofSource workingDirectory m.toSource label = .ok g ∧
      Graph.ofSource workingDirectory m'.toSource label' = .ok h ∧ g.LooksLike h

theorem SameAs.oneGraph (same : m.SameAs m') (textual : m.Textual) : m.OneGraph m' := by
  intro workingDirectory label label'
  obtain ⟨g, built, shows⟩ := Graph.exists_ofSource (gives_toSource textual workingDirectory) label
  obtain ⟨h, built', shows'⟩ := Graph.exists_ofSource
    (gives_toSource (same.textual textual) workingDirectory) label'
  exact ⟨g, h, built, built', shows.looksLike shows' (same.alike textual)⟩

end Maps

/-! ## Snapshots in another order -/

/-- Failures of one class: both say that a graph cannot be had or that a record is invalid, or they
are one failure. -/
inductive Failure.Akin : Failure → Failure → Prop
  | graph {label label' message message' : String} {cause cause' : Option Fault} :
      Akin (.graph label message cause) (.graph label' message' cause')
  | invalid {issues issues' : List Issue} :
      Akin (.fault (.invalid issues)) (.fault (.invalid issues'))
  | same (failure : Failure) : Akin failure failure

namespace Value

/-! ## Values compared piece by piece -/

mutual

/-- Whether two values of a JSON document that holds no fraction are one value. Unlike sameness it
tells a truth value from a number, and a table from the same table in another order. -/
def identical : Value → Value → Bool
  | .null, .null => true
  | .bool b, .bool b' => b == b'
  | .int n, .int n' => n == n'
  | .text s, .text s' => s == s'
  | .list items, .list others => identicalItems items others
  | .table entries, .table others => identicalEntries entries others
  | _, _ => false

/-- Whether two lists hold the same values at the same places. -/
def identicalItems : List Value → List Value → Bool
  | [], [] => true
  | v :: items, w :: others => identical v w && identicalItems items others
  | _, _ => false

/-- Whether two tables hold the same entries at the same places. -/
def identicalEntries : List (Value × Value) → List (Value × Value) → Bool
  | [], [] => true
  | (k, v) :: entries, (k', w) :: others =>
    identical k k' && identical v w && identicalEntries entries others
  | _, _ => false

end

mutual

theorem eq_of_identical : ∀ {v w : Value}, identical v w = true → v = w := by
  intro v w same
  unfold identical at same
  split at same
  · rfl
  · rw [eq_of_beq same]
  · rw [eq_of_beq same]
  · rw [eq_of_beq same]
  · rw [eq_of_identicalItems same]
  · rw [eq_of_identicalEntries same]
  · cases same

theorem eq_of_identicalItems :
    ∀ {items others : List Value}, identicalItems items others = true → items = others := by
  intro items others same
  unfold identicalItems at same
  split at same
  · rfl
  · obtain ⟨first, rest⟩ := Bool.and_eq_true_iff.mp same
    rw [eq_of_identical first, eq_of_identicalItems rest]
  · cases same

theorem eq_of_identicalEntries :
    ∀ {entries others : List (Value × Value)}, identicalEntries entries others = true →
      entries = others := by
  intro entries others same
  unfold identicalEntries at same
  split at same
  · rfl
  · simp only [Bool.and_eq_true] at same
    rw [eq_of_identical same.1.1, eq_of_identical same.1.2, eq_of_identicalEntries same.2]
  · cases same

end

end Value

namespace Snapshot

/-- Two files are loaded alike: as maps with one graph, or with failures of one class. -/
inductive Agree : Except Failure Maps → Except Failure Maps → Prop
  | maps {m m' : Maps} (same : m.OneGraph m') : Agree (.ok m) (.ok m')
  | failures {failure failure' : Failure} (akin : failure.Akin failure') :
      Agree (.error failure) (.error failure')

variable {workingDirectory base : Path} {s s' : Snapshot}

/-- The maps that an accepted snapshot lists. -/
def listedMaps (workingDirectory base : Path) (s : Snapshot) : Maps where
  dependencies := s.classes.map fun row =>
    (.text row.1, Name.distinct (row.2.dependencies.map .text))
  locations := s.given.map fun entry =>
    (.text entry.1, (landing workingDirectory base entry.2).toOption.getD ⟨""⟩)

theorem toMaps_of_accepted (accepted : Accepted workingDirectory base s) :
    s.toMaps workingDirectory (some base) = .ok (listedMaps workingDirectory base s) := by
  have places : s.given.mapM (placeOf workingDirectory (some base)) =
      .ok (listedMaps workingDirectory base s).locations := by
    refine mapM_eq_ok fun entry member => ?_
    obtain ⟨l, landed⟩ := accepted entry member
    exact placeOf_eq_ok_iff.mpr ⟨l, landed, by rw [landed]; rfl⟩
  rw [toMaps_eq, places]
  rfl

theorem textual_listedMaps : (listedMaps workingDirectory base s).Textual where
  keys entry member := by
    obtain ⟨row, -, rfl⟩ := List.mem_map.mp member
    exact ⟨row.1, rfl⟩
  targets entry member := by
    obtain ⟨row, -, rfl⟩ := List.mem_map.mp member
    have textual : Name.Textual (row.2.dependencies.map .text) := fun name inside => by
      obtain ⟨s, -, rfl⟩ := List.mem_map.mp inside
      exact ⟨s, rfl⟩
    intro name inside
    rw [Name.distinct_eq textual, mem_distinct] at inside
    exact textual name inside
  located entry member := by
    obtain ⟨row, -, rfl⟩ := List.mem_map.mp member
    exact ⟨row.1, rfl⟩

theorem SameAs.given (same : s.SameAs s') : s.given.Perm s'.given :=
  same.rows.order.filterMap _

theorem SameAs.accepted_iff (same : s.SameAs s') :
    Accepted workingDirectory base s ↔ Accepted workingDirectory base s' :=
  forall_congr' fun _ => imp_congr_left same.given.mem_iff

theorem SameAs.listedMaps (same : s.SameAs s') (workingDirectory base : Path) :
    (listedMaps workingDirectory base s).SameAs (listedMaps workingDirectory base s') where
  dependencies := same.rows.order.map _
  locations := same.given.map _
  dependenciesApart := by
    have names := Answers.nodup_map_text same.rows.apart
    simpa only [Snapshot.listedMaps, List.map_map, Function.comp_def] using names
  locationsApart := by
    have names := Answers.nodup_map_text (nodup_given same.rows.apart)
    simpa only [Snapshot.listedMaps, List.map_map, Function.comp_def] using names

/-- The maps of a snapshot are refused for an invalid location. -/
theorem exists_invalid_of_toMaps {fault : Fault}
    (refused : s.toMaps workingDirectory (some base) = .error fault) :
    ∃ issues, fault = .invalid issues := by
  rw [toMaps_eq] at refused
  cases ran : s.given.mapM (placeOf workingDirectory (some base)) with
  | ok places =>
    rw [ran] at refused
    cases refused
  | error other =>
    rw [ran] at refused
    cases refused
    obtain ⟨entry, -, unplaced⟩ := exists_error_of_mapM ran
    have unlocated := placeOf_eq_error_iff.mp unplaced
    rw [Location.of] at unlocated
    cases read : Location.ofText workingDirectory (absolutize (some base) entry.2) with
    | ok l => simp [read] at unlocated
    | error spelling =>
      rw [read] at unlocated
      exact ⟨_, (Except.error.inj unlocated).symm⟩

/-- Snapshots that differ in the order of their classes give maps with one graph, or both have an
invalid location. -/
theorem SameAs.agree (same : s.SameAs s') (workingDirectory base : Path) :
    Agree ((s.toMaps workingDirectory (some base)).mapError .fault)
      ((s'.toMaps workingDirectory (some base)).mapError .fault) := by
  by_cases accepted : Accepted workingDirectory base s
  · rw [toMaps_of_accepted accepted, toMaps_of_accepted (same.accepted_iff.mp accepted)]
    exact .maps ((same.listedMaps _ _).oneGraph textual_listedMaps)
  · have refused : ∀ {t : Snapshot}, ¬Accepted workingDirectory base t →
        ∃ issues, t.toMaps workingDirectory (some base) = .error (.invalid issues) := by
      intro t unaccepted
      cases read : t.toMaps workingDirectory (some base) with
      | ok m => exact absurd (exists_toMaps_iff.mp ⟨m, read⟩) unaccepted
      | error fault =>
        obtain ⟨issues, rfl⟩ := exists_invalid_of_toMaps read
        exact ⟨issues, rfl⟩
    obtain ⟨issues, read⟩ := refused accepted
    obtain ⟨issues', read'⟩ := refused fun other => accepted (same.accepted_iff.mpr other)
    rw [read, read']
    exact .failures .invalid

/-! ## Files -/

variable {files : FileTree} {path other : Path} {document seen d : Value}

/-- What the reader of a format shows of a document. The YAML reader shows it no deeper than it is
looked at, with the entries of its tables in any order. -/
inductive FileFormat.Shows : FileFormat → Value → Value → Prop
  | json (d : Value) : Shows .json d d
  | yaml {d seen : Value} (shown : d.SeenAs depth seen) : Shows .yaml d seen

/-- The file at a path holds a text that stands for a document in the format of the file. -/
def Holds (files : FileTree) (workingDirectory path : Path) (d : Value) : Prop :=
  ∃ data text decoded, files.read workingDirectory path = .ok data ∧ textOf data = .ok text ∧
    (FileFormat.ofPath path).decode text = .ok decoded ∧ (FileFormat.ofPath path).Shows d decoded

theorem find_of_holdsDocument (holds : HoldsDocument files workingDirectory path document) :
    find files workingDirectory path = checked path document := by
  simp only [find, holds.exists?, documentAt_eq_ok_iff.mpr holds, bind, Except.bind,
    Except.mapError, ↓reduceIte]

/-- Documents of which the same snapshots are read are accepted alike. -/
theorem checked_cases (both : Checked.BothRead SameAs (ofValue document) (ofValue seen))
    (path other : Path) :
    (∃ s s', checked path document = .ok s ∧ checked other seen = .ok s' ∧ s.SameAs s') ∨
      ∃ failure failure', checked path document = .error failure ∧
        checked other seen = .error failure' ∧ failure.Akin failure' := by
  unfold checked
  generalize ofValue document = part at both
  generalize ofValue seen = part' at both
  cases both with
  | invalid => exact Or.inr ⟨_, _, rfl, rfl, .graph⟩
  | read same =>
    dsimp only
    rw [← same.version]
    split
    · exact Or.inl ⟨_, _, rfl, rfl, same⟩
    · split
      · exact Or.inr ⟨_, _, rfl, rfl, .same _⟩
      · exact Or.inr ⟨_, _, rfl, rfl, .graph⟩

/-- Two files in one directory with documents of which the same snapshots are read are loaded
alike. -/
theorem load_agrees
    (beside : files.resolved workingDirectory path.parent =
      files.resolved workingDirectory other.parent)
    (holds : HoldsDocument files workingDirectory path document)
    (holds' : HoldsDocument files workingDirectory other seen)
    (both : Checked.BothRead SameAs (ofValue document) (ofValue seen)) :
    Agree (load files workingDirectory path) (load files workingDirectory other) := by
  have found := find_of_holdsDocument holds
  have found' := find_of_holdsDocument holds'
  rcases checked_cases both path other with ⟨s, s', valid, valid', same⟩ |
    ⟨failure, failure', refused, refused', akin⟩
  · rw [load_of_find (found.trans valid), load_of_find (found'.trans valid'), mapsAt, mapsAt,
      beside]
    exact same.agree _ _
  · rw [load_of_refused (found.trans refused), load_of_refused (found'.trans refused')]
    exact .failures akin

theorem holdsDocument_of_json (inJson : FileFormat.ofPath path = .json)
    (holds : Holds files workingDirectory path d) :
    HoldsDocument files workingDirectory path d := by
  obtain ⟨data, text, decoded, reads, decodes, parses, shows⟩ := holds
  rw [inJson] at parses shows
  cases shows
  exact ⟨data, text, reads, decodes, by rw [inJson]; exact parses⟩

theorem exists_holdsDocument_of_yaml (inYaml : FileFormat.ofPath path = .yaml)
    (holds : Holds files workingDirectory path d) :
    ∃ seen, d.SeenAs depth seen ∧
      HoldsDocument files workingDirectory path (if seen.isEmptyLike then .table [] else seen) := by
  obtain ⟨data, text, decoded, reads, decodes, parses, shows⟩ := holds
  rw [inYaml] at parses shows
  cases shows with
  | yaml shown =>
    have read : Yaml.read depth text = .ok decoded := parses
    exact ⟨decoded, shown, data, text, reads, decodes, by rw [inYaml, parse, read]; rfl⟩

/-- Only a table holds a snapshot. -/
theorem ofValue_of_bare (bare : ∀ entries, d ≠ .table entries) :
    ofValue d = Checked.refuse .notRecord := by
  cases d with
  | table entries => exact absurd rfl (bare entries)
  | _ => rfl

/-- A table without entries is a snapshot without classes. -/
theorem load_of_no_entries (holds : HoldsDocument files workingDirectory path (.table [])) :
    load files workingDirectory path = .ok ⟨[], []⟩ := by
  have found : find files workingDirectory path = .ok ⟨currentVersion, []⟩ :=
    find_of_holdsDocument holds
  exact load_of_find found

/-- **A document is loaded alike from JSON and from YAML.** Two files in one directory hold a
document, one as JSON and one as YAML. Both give maps with the same graph, or both are refused with
failures of one class, exactly when the document is not empty or is a table. Any other empty
document is maps without classes as YAML, and as JSON it is refused with a failure that names the
file. -/
theorem load_agrees_iff (isJson : d.IsJson) (inJson : FileFormat.ofPath path = .json)
    (inYaml : FileFormat.ofPath other = .yaml)
    (beside : files.resolved workingDirectory path.parent =
      files.resolved workingDirectory other.parent)
    (holds : Holds files workingDirectory path d) (holds' : Holds files workingDirectory other d) :
    (Agree (load files workingDirectory path) (load files workingDirectory other) ↔
        (d.isEmptyLike = true → ∃ entries, d = .table entries)) ∧
      (d.isEmptyLike = true → (∀ entries, d ≠ .table entries) →
        load files workingDirectory other = .ok ⟨[], []⟩ ∧ ∃ message cause,
          load files workingDirectory path = .error (.graph path.text message cause)) := by
  have document := holdsDocument_of_json inJson holds
  obtain ⟨seen, shown, document'⟩ := exists_holdsDocument_of_yaml inYaml holds'
  have empty_iff : seen.isEmptyLike = d.isEmptyLike := shown.isEmptyLike_eq
  have exceptional : d.isEmptyLike = true → (∀ entries, d ≠ .table entries) →
      load files workingDirectory other = .ok ⟨[], []⟩ ∧ ∃ message cause,
        load files workingDirectory path = .error (.graph path.text message cause) := by
    intro empty bare
    rw [empty_iff, if_pos empty] at document'
    have refused := find_of_holdsDocument document
    rw [checked, ofValue_of_bare bare] at refused
    exact ⟨load_of_no_entries document', _, _, load_of_refused refused⟩
  refine ⟨⟨fun agree empty => ?_, fun whole => ?_⟩, exceptional⟩
  · by_contra bare
    obtain ⟨loaded, message, cause, refused⟩ := exceptional empty (not_exists.mp bare)
    rw [loaded, refused] at agree
    cases agree
  · have kept : (if seen.isEmptyLike then .table [] else seen) = seen := by
      split
      next empty =>
        obtain ⟨entries, rfl⟩ := whole (empty_iff ▸ empty)
        obtain ⟨others, rfl, -⟩ := shown
        rw [List.isEmpty_iff.mp empty]
      next => rfl
    have both : Checked.BothRead SameAs (ofValue d) (ofValue seen) :=
      bothRead_ofValue isJson (show d.SeenAs (1 + 4) seen from shown)
    exact load_agrees beside document (kept ▸ document') both

/-! ## Two files side by side -/

/-- A JSON file and a YAML file at the root. -/
def sideBySide (inJson inYaml : List UInt8) : FileTree :=
  ⟨[(["g.json"], .file (.bytes inJson) 946684800), (["g.yaml"], .file (.bytes inYaml) 946684800)]⟩

theorem textOf_utf8 {text : String} (unbroken : lineFeeds text.toList = text.toList) :
    textOf (Text.utf8 text) = .ok text := by
  rw [textOf, Text.ofUtf8?_utf8]
  simp only [unbroken, String.ofList_toList]

theorem ofPath_json : FileFormat.ofPath ⟨.root, ["g.json"]⟩ = .json := by decide +kernel

theorem ofPath_yaml : FileFormat.ofPath ⟨.root, ["g.yaml"]⟩ = .yaml := by decide +kernel

theorem read_json (inJson inYaml : List UInt8) :
    (sideBySide inJson inYaml).read ⟨.root, []⟩ ⟨.root, ["g.json"]⟩ = .ok inJson := by
  cbv

theorem read_yaml (inJson inYaml : List UInt8) :
    (sideBySide inJson inYaml).read ⟨.root, []⟩ ⟨.root, ["g.yaml"]⟩ = .ok inYaml := by
  cbv

theorem reads_of_identical {text : String} {v : Value}
    (same : (Yaml.read depth text).toOption.any (·.identical v) = true) :
    Yaml.read depth text = .ok v := by
  cases read : Yaml.read depth text with
  | error fault => simp [read, Except.toOption] at same
  | ok w =>
    rw [read] at same
    rw [Value.eq_of_identical same]

theorem holds_json {text : String} (inYaml : List UInt8)
    (unbroken : lineFeeds text.toList = text.toList) (parses : Json.read text = .ok d) :
    Holds (sideBySide (Text.utf8 text) inYaml) ⟨.root, []⟩ ⟨.root, ["g.json"]⟩ d := by
  refine ⟨_, text, d, read_json _ _, textOf_utf8 unbroken, ?_⟩
  rw [ofPath_json]
  exact ⟨parses, .json d⟩

theorem holds_yaml {text : String} (inJson : List UInt8)
    (unbroken : lineFeeds text.toList = text.toList)
    (parses : Yaml.read depth text = .ok seen) (shown : d.SeenAs depth seen) :
    Holds (sideBySide inJson (Text.utf8 text)) ⟨.root, []⟩ ⟨.root, ["g.yaml"]⟩ d := by
  refine ⟨_, text, seen, read_yaml _ _, textOf_utf8 unbroken, ?_⟩
  rw [ofPath_yaml]
  exact ⟨parses, .yaml shown⟩

/-- One document with its two fields in another order in either file: both files list one class and
what it refers to. -/
theorem load_agrees_two_files :
    let inJson :=
      "\x7b\"classes\": \x7b\"A\": \x7b\"dependencies\": [\"B\"]\x7d\x7d, \"version\": 1\x7d"
    let inYaml := "version: 1\nclasses:\n  A:\n    dependencies: [B]\n"
    let files := sideBySide (Text.utf8 inJson) (Text.utf8 inYaml)
    let root : Path := ⟨.root, []⟩
    let path : Path := ⟨.root, ["g.json"]⟩
    let other : Path := ⟨.root, ["g.yaml"]⟩
    let d : Value := .table [
      (.text "classes", .table [(.text "A", .table [(.text "dependencies", .list [.text "B"])])]),
      (.text "version", .int 1)]
    d.IsJson ∧ FileFormat.ofPath path = .json ∧ FileFormat.ofPath other = .yaml ∧
      files.resolved root path.parent = files.resolved root other.parent ∧
        Holds files root path d ∧ Holds files root other d ∧
          load files root path = .ok ⟨[(.text "A", [.text "B"])], []⟩ ∧
            Agree (load files root path) (load files root other) := by
  intro inJson inYaml files root path other d
  have classes : Value.IsJson
      (.table [(.text "A", .table [(.text "dependencies", .list [.text "B"])])]) := by
    refine .table ⟨by simp, by simp⟩ (List.forall_mem_singleton.mpr ?_)
    refine .table ⟨by simp, by simp⟩ (List.forall_mem_singleton.mpr ?_)
    exact .list (List.forall_mem_singleton.mpr (.text "B"))
  have isJson : d.IsJson := by
    refine .table ⟨by simp, by simp⟩ (List.forall_mem_cons.mpr ⟨classes, ?_⟩)
    exact List.forall_mem_singleton.mpr (.int 1)
  have parses : Json.read inJson = .ok d := by cbv
  have parses' : Yaml.read depth inYaml = .ok (.table [(.text "version", .int 1),
      (.text "classes",
        .table [(.text "A", .table [(.text "dependencies", .list [.text "B"])])])]) := by
    exact reads_of_identical (by decide +kernel)
  have shown : d.SeenAs depth (.table [(.text "version", .int 1),
      (.text "classes",
        .table [(.text "A", .table [(.text "dependencies", .list [.text "B"])])])]) := by
    refine ⟨_, rfl, ⟨.swap .., ?_⟩⟩
    simp only [List.mem_cons, Prod.mk.injEq, List.not_mem_nil, or_false]
    rintro key v w (⟨rfl, rfl⟩ | ⟨rfl, rfl⟩) (⟨same, rfl⟩ | ⟨same, rfl⟩)
    · simp at same
    · exact .singleton (.singleton ⟨_, rfl, .cons rfl .nil⟩)
    · rfl
    · simp at same
  have holds : Holds files root path d := holds_json _ (by decide +kernel) parses
  have holds' : Holds files root other d := holds_yaml _ (by decide +kernel) parses' shown
  have beside : files.resolved root path.parent = files.resolved root other.parent := rfl
  have valid : checked path d = .ok ⟨1, [("A", ⟨none, ["B"]⟩)]⟩ := by cbv
  have found := find_of_holdsDocument (holdsDocument_of_json ofPath_json holds)
  have loaded : load files root path = .ok ⟨[(.text "A", [.text "B"])], []⟩ :=
    load_of_find (found.trans valid)
  obtain ⟨agrees, -⟩ := load_agrees_iff isJson ofPath_json ofPath_yaml beside holds holds'
  exact ⟨isJson, ofPath_json, ofPath_yaml, beside, holds, holds', loaded,
    agrees.mpr fun _ => ⟨_, rfl⟩⟩

/-- The empty list in either format is a snapshot without classes as YAML and none as JSON. -/
theorem load_disagrees_list :
    let files := sideBySide (Text.utf8 "[]") (Text.utf8 "[]")
    let root : Path := ⟨.root, []⟩
    let path : Path := ⟨.root, ["g.json"]⟩
    let other : Path := ⟨.root, ["g.yaml"]⟩
    let d : Value := .list []
    d.IsJson ∧ Holds files root path d ∧ Holds files root other d ∧
      load files root other = .ok ⟨[], []⟩ ∧ (∃ failure, load files root path = .error failure) ∧
        ¬ Agree (load files root path) (load files root other) := by
  intro files root path other d
  have unbroken : lineFeeds "[]".toList = "[]".toList := by decide +kernel
  have parses : Json.read "[]" = .ok d := by cbv
  have parses' : Yaml.read depth "[]" = .ok d := reads_of_identical (by decide +kernel)
  have holds : Holds files root path d := holds_json _ unbroken parses
  have holds' : Holds files root other d := holds_yaml _ unbroken parses' ⟨[], rfl, .nil⟩
  have empty : HoldsDocument files root other (.table []) :=
    ⟨_, _, read_yaml _ _, textOf_utf8 unbroken, by rw [ofPath_yaml, parse, parses']; rfl⟩
  have loaded := load_of_no_entries empty
  obtain ⟨failure, refused⟩ : ∃ failure, load files root path = .error failure :=
    ⟨_, load_of_refused (find_of_holdsDocument (holdsDocument_of_json ofPath_json holds))⟩
  refine ⟨.list (List.forall_mem_nil _), holds, holds', loaded, ⟨failure, refused⟩, fun agree => ?_⟩
  rw [loaded, refused] at agree
  cases agree

end Snapshot

end Classpath
