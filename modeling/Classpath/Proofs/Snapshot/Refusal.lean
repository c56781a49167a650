import Classpath.Proofs.Action
import Classpath.Proofs.FileTree.Presence
import Classpath.Snapshot.File
import Mathlib

/-! # How loading a snapshot fails

Loading a snapshot file gives maps or a failure that names the file, and it does so exactly unless
one of four faults comes through as it is (`Classpath.Snapshot.isOwn_load_iff`): the path is too
long to be looked up, the parser refuses the text with a fault that is no complaint, the version is
too long to be written, or a listed location is no location.
-/

namespace Classpath

namespace Snapshot

variable {files : FileTree} {workingDirectory path : Path}

/-- The file at a path holds a document in its format. -/
def HoldsDocument (files : FileTree) (workingDirectory path : Path) (document : Value) : Prop :=
  ∃ data text, files.read workingDirectory path = .ok data ∧ textOf data = .ok text ∧
    parse (.ofPath path) text = .ok document

/-- The file at a path holds a snapshot, in any version. -/
def HoldsSnapshot (files : FileTree) (workingDirectory path : Path) (s : Snapshot) : Prop :=
  ∃ document, HoldsDocument files workingDirectory path document ∧ ofValue document = .ok s

/-- A fault that comes through as it is while the file at a path is loaded. -/
inductive Escapes (files : FileTree) (workingDirectory path : Path) : Fault → Prop
  /-- The path is too long for the file system. -/
  | path (long : files.status workingDirectory path.text = .error .nameTooLong) :
    Escapes files workingDirectory path (.file .nameTooLong path.text)
  /-- The parser refuses the text, but not with a complaint about it. -/
  | parser {data : List UInt8} {text : String} {fault : Fault}
    (reads : files.read workingDirectory path = .ok data) (decodes : textOf data = .ok text)
    (refuses : parse (.ofPath path) text = .error fault) (foreign : isComplaint fault = false) :
    Escapes files workingDirectory path fault
  /-- The version is another one and too long to be written into a complaint. -/
  | version {s : Snapshot} (holds : HoldsSnapshot files workingDirectory path s)
    (other : s.version ≠ currentVersion) (long : Text.isTooLong s.version = true) :
    Escapes files workingDirectory path .longNumber
  /-- A listed location, as seen from the directory of the file, is no location. -/
  | location {s : Snapshot} {name location : String} {record : ClassRecord} {fault : Fault}
    (holds : HoldsSnapshot files workingDirectory path s) (current : s.version = currentVersion)
    (listed : (name, record) ∈ s.classes) (given : record.location = some location)
    (some_location : location ≠ "")
    (refused : Location.of workingDirectory (.value (.text
      (absolutize (some (files.resolved workingDirectory path.parent)) location))) = .error fault) :
    Escapes files workingDirectory path fault

/-- Maps, or a failure that names the path. -/
def IsOwn (path : Path) (outcome : Except Failure Maps) : Prop :=
  (∃ m, outcome = .ok m) ∨ ∃ message cause, outcome = .error (.graph path.text message cause)

/-! ## Documents -/

theorem documentAt_eq_ok_iff {document : Value} :
    documentAt files workingDirectory path = .ok document ↔
      HoldsDocument files workingDirectory path document := by
  unfold documentAt HoldsDocument
  cases reads : files.read workingDirectory path with
  | error fault => simp [bind, Except.bind, Except.mapError]
  | ok data =>
    cases decodes : textOf data with
    | error fault => simp [decodes, bind, Except.bind, Except.mapError]
    | ok text =>
      cases parses : parse (.ofPath path) text <;>
        simp [decodes, parses, bind, Except.bind, Except.mapError]

/-- The document of a file is refused with a complaint about the file, or by the parser. -/
theorem documentAt_eq_error {failure : Failure}
    (refused : documentAt files workingDirectory path = .error failure) :
    (∃ message cause, failure = .graph path.text message cause) ∨
      ∃ fault, failure = .fault fault ∧ Escapes files workingDirectory path fault := by
  have complains : ∀ {fault : Fault}, isComplaint fault = true →
      (if isComplaint fault then
        refusal path ("cannot parse snapshot: " ++ fault.message) (some fault)
      else .fault fault) = failure →
      ∃ message cause, failure = .graph path.text message cause := by
    intro fault complaint same
    rw [if_pos complaint] at same
    exact ⟨_, _, same.symm⟩
  unfold documentAt at refused
  cases reads : files.read workingDirectory path with
  | error fault =>
    rw [reads] at refused
    obtain ⟨reason, rfl⟩ := FileTree.read_eq_error reads
    exact Or.inl (complains rfl (Except.error.inj refused))
  | ok data =>
    cases decodes : textOf data with
    | error fault =>
      simp only [reads, decodes, bind, Except.bind, Except.mapError] at refused
      have malformed : fault = .malformed .utf8 := by
        unfold textOf at decodes
        split at decodes <;> cases decodes
        rfl
      exact Or.inl (complains (malformed ▸ rfl) (Except.error.inj refused))
    | ok text =>
      simp only [reads, decodes, bind, Except.bind] at refused
      cases parses : parse (.ofPath path) text with
      | ok document =>
        rw [parses] at refused
        cases refused
      | error fault =>
        rw [parses] at refused
        cases complaint : isComplaint fault with
        | true => exact Or.inl (complains complaint (Except.error.inj refused))
        | false =>
          refine Or.inr ⟨fault, ?_, .parser reads decodes parses complaint⟩
          simpa [Except.mapError, complaint] using refused.symm

/-- What the parser refuses without a complaint comes through as it is. -/
theorem documentAt_of_foreign {data : List UInt8} {text : String} {fault : Fault}
    (reads : files.read workingDirectory path = .ok data) (decodes : textOf data = .ok text)
    (refuses : parse (.ofPath path) text = .error fault) (foreign : isComplaint fault = false) :
    documentAt files workingDirectory path = .error (.fault fault) := by
  simp [documentAt, reads, decodes, refuses, foreign, bind, Except.bind, Except.mapError]

theorem HoldsDocument.exists? {document : Value}
    (holds : HoldsDocument files workingDirectory path document) :
    files.exists? workingDirectory path = .ok true := by
  obtain ⟨data, text, reads, -⟩ := holds
  exact FileTree.exists?_of_read reads

/-! ## Snapshots -/

theorem find_of_holds {s : Snapshot} (holds : HoldsSnapshot files workingDirectory path s)
    (current : s.version = currentVersion) : find files workingDirectory path = .ok s := by
  obtain ⟨document, holds, valid⟩ := holds
  simp only [find, holds.exists?, documentAt_eq_ok_iff.mpr holds, checked, valid, current, bind,
    Except.bind, Except.mapError, ↓reduceIte]

/-- A snapshot of the version that is read is found, or there is a complaint that names the path, or
a fault comes through as it is. -/
theorem find_cases (files : FileTree) (workingDirectory path : Path) :
    (∃ s, find files workingDirectory path = .ok s ∧ HoldsSnapshot files workingDirectory path s ∧
        s.version = currentVersion) ∨
      (∃ message cause, find files workingDirectory path =
        .error (.graph path.text message cause)) ∨
      ∃ fault, find files workingDirectory path = .error (.fault fault) ∧
        Escapes files workingDirectory path fault := by
  unfold find
  cases asked : files.exists? workingDirectory path with
  | error fault =>
    obtain ⟨long, rfl⟩ := FileTree.exists?_eq_error_iff.mp asked
    exact Or.inr (Or.inr ⟨_, rfl, .path long⟩)
  | ok found =>
    cases found with
    | false => exact Or.inr (Or.inl ⟨_, _, rfl⟩)
    | true =>
      cases document : documentAt files workingDirectory path with
      | error failure =>
        rcases documentAt_eq_error document with ⟨message, cause, rfl⟩ | ⟨fault, rfl, escapes⟩
        · exact Or.inr (Or.inl ⟨message, cause, rfl⟩)
        · exact Or.inr (Or.inr ⟨fault, rfl, escapes⟩)
      | ok document' =>
        have holds := documentAt_eq_ok_iff.mp document
        simp only [bind, Except.bind, Except.mapError, ↓reduceIte, checked]
        cases valid : ofValue document' with
        | error issues => exact Or.inr (Or.inl ⟨_, _, rfl⟩)
        | ok s =>
          dsimp only
          split
          next current => exact Or.inl ⟨s, rfl, ⟨document', holds, valid⟩, current⟩
          split
          next other long =>
            exact Or.inr (Or.inr ⟨.longNumber, rfl, .version ⟨document', holds, valid⟩ other long⟩)
          next other short => exact Or.inr (Or.inl ⟨_, _, rfl⟩)

/-! ## Locations -/

/-- The locations that a snapshot gives, by class. -/
def given (s : Snapshot) : List (String × String) :=
  s.classes.filterMap fun (name, record) =>
    match record.location with
    | some location => if location.isEmpty then none else some (name, location)
    | none => none

theorem mem_given {s : Snapshot} {name location : String} :
    (name, location) ∈ s.given ↔
      ∃ record, (name, record) ∈ s.classes ∧ record.location = some location ∧ location ≠ "" := by
  unfold given
  rw [List.mem_filterMap]
  constructor
  · rintro ⟨⟨other, record⟩, member, found⟩
    dsimp only at found
    split at found
    next text same =>
      split at found
      · cases found
      next some_text =>
        cases found
        exact ⟨record, member, same, by simpa using some_text⟩
    · cases found
  · rintro ⟨record, member, same, some_text⟩
    exact ⟨(name, record), member, by simp [same, some_text]⟩

/-- The place of a class as seen from a base directory. -/
def placeOf (workingDirectory : Path) (base : Option Path) (entry : String × String) :
    Except Fault (Name × Location) := do
  let spelling := Value.text (absolutize base entry.2)
  return (Name.text entry.1, ← Location.of workingDirectory (.value spelling))

theorem placeOf_eq_error_iff {base : Option Path} {entry : String × String} {fault : Fault} :
    placeOf workingDirectory base entry = .error fault ↔
      Location.of workingDirectory (.value (.text (absolutize base entry.2))) = .error fault := by
  unfold placeOf
  dsimp only
  cases Location.of workingDirectory (.value (.text (absolutize base entry.2))) <;>
    simp [bind, Except.bind, pure, Except.pure]

theorem toMaps_eq (base : Option Path) (s : Snapshot) :
    s.toMaps workingDirectory base = (do
      let locations ← s.given.mapM (placeOf workingDirectory base)
      return {
        dependencies := s.classes.map fun (name, record) =>
          (.text name, Name.distinct (record.dependencies.map .text))
        locations }) :=
  rfl

/-- The maps of a snapshot are refused for the location of one of its classes. -/
theorem exists_of_mapsAt {s : Snapshot} {fault : Fault}
    (refused : mapsAt files workingDirectory path s = .error fault) :
    ∃ entry ∈ s.given, placeOf workingDirectory
      (some (files.resolved workingDirectory path.parent)) entry = .error fault := by
  rw [mapsAt, toMaps_eq] at refused
  cases places : s.given.mapM
      (placeOf workingDirectory (some (files.resolved workingDirectory path.parent))) with
  | ok locations =>
    rw [places] at refused
    cases refused
  | error other =>
    rw [places] at refused
    cases refused
    exact exists_error_of_mapM places

/-- A class whose location is refused is in no maps. -/
theorem mapsAt_of_refused {s : Snapshot} {entry : String × String} {fault : Fault}
    (member : entry ∈ s.given) (refused : placeOf workingDirectory
      (some (files.resolved workingDirectory path.parent)) entry = .error fault) :
    ∃ fault', mapsAt files workingDirectory path s = .error fault' := by
  cases found : mapsAt files workingDirectory path s with
  | error fault' => exact ⟨fault', rfl⟩
  | ok m =>
    rw [mapsAt, toMaps_eq] at found
    cases places : s.given.mapM
        (placeOf workingDirectory (some (files.resolved workingDirectory path.parent))) with
    | error other =>
      rw [places] at found
      cases found
    | ok locations =>
      obtain ⟨place, accepted⟩ := exists_ok_of_mapM places entry member
      cases refused.symm.trans accepted

/-! ## Loading -/

theorem load_of_find {s : Snapshot} (found : find files workingDirectory path = .ok s) :
    load files workingDirectory path =
      (mapsAt files workingDirectory path s).mapError Failure.fault := by
  rw [load, found]
  rfl

theorem load_of_refused {failure : Failure}
    (refused : find files workingDirectory path = .error failure) :
    load files workingDirectory path = .error failure := by
  rw [load, refused]
  rfl

/-- What loading a file ends in: maps, a failure that names the path, or a fault that comes
through. -/
theorem load_cases (files : FileTree) (workingDirectory path : Path) :
    IsOwn path (load files workingDirectory path) ∨
      ∃ fault, load files workingDirectory path = .error (.fault fault) ∧
        Escapes files workingDirectory path fault := by
  rcases find_cases files workingDirectory path with
    ⟨s, found, holds, current⟩ | ⟨message, cause, refused⟩ | ⟨fault, refused, escapes⟩
  · rw [load_of_find found]
    cases maps : mapsAt files workingDirectory path s with
    | ok m => exact Or.inl (Or.inl ⟨m, rfl⟩)
    | error fault =>
      obtain ⟨⟨name, location⟩, member, refused⟩ := exists_of_mapsAt maps
      obtain ⟨record, listed, given, some_location⟩ := mem_given.mp member
      have refused := placeOf_eq_error_iff.mp refused
      exact Or.inr ⟨fault, rfl, .location holds current listed given some_location refused⟩
  · exact Or.inl (Or.inr ⟨message, cause, load_of_refused refused⟩)
  · exact Or.inr ⟨fault, load_of_refused refused, escapes⟩

/-- Each of the faults keeps the file from being loaded, and some fault comes through. -/
theorem Escapes.load_eq {fault : Fault} (escapes : Escapes files workingDirectory path fault) :
    ∃ fault', load files workingDirectory path = .error (.fault fault') := by
  cases escapes with
  | path long =>
    have asked := FileTree.exists?_eq_error_iff.mpr ⟨long, rfl⟩
    exact ⟨_, load_of_refused (by rw [find, asked]; rfl)⟩
  | parser reads decodes refuses foreign =>
    have asked := FileTree.exists?_of_read reads
    have document := documentAt_of_foreign reads decodes refuses foreign
    exact ⟨fault, load_of_refused (by rw [find, asked, document]; rfl)⟩
  | @version s holds other long =>
    obtain ⟨document, holds, valid⟩ := holds
    have refused : checked path document = .error (.fault .longNumber) := by
      simp [checked, valid, other, long]
    exact ⟨.longNumber, load_of_refused (by
      rw [find, holds.exists?, documentAt_eq_ok_iff.mpr holds]
      exact refused)⟩
  | location holds current listed given some_location refused =>
    have member := mem_given.mpr ⟨_, listed, given, some_location⟩
    obtain ⟨fault', maps⟩ := mapsAt_of_refused member (placeOf_eq_error_iff.mpr refused)
    exact ⟨fault', by rw [load_of_find (find_of_holds holds current), maps]; rfl⟩

/-- **Loading fails with a failure of its own**, exactly unless a fault comes through as it is. -/
theorem isOwn_load_iff (files : FileTree) (workingDirectory path : Path) :
    IsOwn path (load files workingDirectory path) ↔
      ∀ fault, ¬ Escapes files workingDirectory path fault := by
  constructor
  · intro own fault escapes
    obtain ⟨fault', loaded⟩ := escapes.load_eq
    rcases own with ⟨m, maps⟩ | ⟨message, cause, refused⟩
    · cases maps.symm.trans loaded
    · cases refused.symm.trans loaded
  · intro none
    rcases load_cases files workingDirectory path with own | ⟨fault, -, escapes⟩
    · exact own
    · exact absurd escapes (none fault)

/-- A class in an archive on a host whose bracket is not closed: the complaint about the location
comes through and does not name the file. -/
theorem load_open_bracket :
    let text := "\x7b\"classes\": \x7b\"A\": \x7b\"location\": \"http://[\"\x7d\x7d\x7d"
    let files : FileTree := ⟨[(["g.json"], .file (.bytes (Text.utf8 text)) 946684800)]⟩
    let path : Path := ⟨.root, ["g.json"]⟩
    ¬ IsOwn path (load files ⟨.root, []⟩ path) := by
  intro text files path own
  have json : FileFormat.ofPath path = .json := by decide +kernel
  have reads : files.read ⟨.root, []⟩ path = .ok (Text.utf8 text) := by cbv
  have decodes : textOf (Text.utf8 text) = .ok text := by cbv
  have parses : Json.read text = .ok (.table [(.text "classes",
      .table [(.text "A", .table [(.text "location", .text "http://[")])])]) := by cbv
  have valid : ofValue (.table [(.text "classes",
      .table [(.text "A", .table [(.text "location", .text "http://[")])])]) =
      .ok ⟨1, [("A", ⟨some "http://[", []⟩)]⟩ := by cbv
  have blank : Text.blank "http://[" = false := by decide +kernel
  have host : Uri.hostFault? (Uri.Reference.ofText (Text.trim "http://[")).authority =
      some .brackets := by decide +kernel
  have kept (base : Path) : absolutize (some base) "http://[" = "http://[" := by
    have colon : "http://[".toList.contains ':' = true := by decide +kernel
    simp only [absolutize, colon, Bool.true_or, ↓reduceIte]
  have holds : HoldsSnapshot files ⟨.root, []⟩ path ⟨1, [("A", ⟨some "http://[", []⟩)]⟩ :=
    ⟨_, ⟨_, _, reads, decodes, by rw [json]; exact parses⟩, valid⟩
  have escapes : Escapes files ⟨.root, []⟩ path (Location.refusal (.host .brackets)) := by
    refine .location holds rfl List.mem_cons_self rfl (by decide) ?_
    rw [kept]
    simp only [Location.of, Location.ofText, blank, Location.normalize, host, Bool.false_eq_true,
      ↓reduceIte, Except.map, Except.mapError]
  obtain ⟨fault, loaded⟩ := escapes.load_eq
  rcases own with ⟨m, maps⟩ | ⟨message, cause, refused⟩
  · cases maps.symm.trans loaded
  · cases refused.symm.trans loaded

end Snapshot

end Classpath
