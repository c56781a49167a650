import Classpath.Proofs.Action
import Classpath.Proofs.Distinct
import Classpath.Proofs.FileTree.Presence
import Classpath.Proofs.Value.Order
import Classpath.Settings.Reader
import Mathlib

/-! # How loading settings fails

Loading a settings file gives settings or a failure that names the file, and it does so exactly
unless a fault comes through as it is (`Classpath.Settings.load_complains_iff`): the path is too
long to be looked up, the bytes are no UTF-8, the reader refuses the text with a fault that is no
complaint, the tools of a project file are no table, the part that holds the settings is no table
and has no member to complain about, or the number of workers is infinite.
-/

namespace Classpath.Settings

variable {files : FileTree} {workingDirectory path : Path} {base : Option Path} {fault : Fault}

/-! ## Tables -/

/-- The value of a setting in a table, or else its standard value. -/
def given (entries : List (Value × Value)) (setting : Setting) : Value :=
  (Value.field? entries setting.name).getD (standard.get setting)

/-- A table whose number of workers is infinite and in which every setting that is read before the
number of workers can be read. -/
structure Boundless (entries : List (Value × Value)) : Prop where
  graph : given entries .graph = .null ∨ ∃ s, given entries .graph = .text s
  anchors : ∃ members, (given entries .anchors).members? = some members
  exclusions : ∃ members, (given entries .exclusions).members? = some members
  archiveDirectories : ∃ b, given entries .archiveDirectories = .bool b
  maxWorkers : ∃ negative, given entries .maxWorkers = .float (.infinite negative)

theorem isComplaint_of_graphPath {v : Value} (refused : graphPath base v = .error fault) :
    isComplaint fault = true := by
  unfold graphPath at refused
  split at refused <;> cases refused
  rfl

theorem exists_graphPath_iff (base : Option Path) {v : Value} :
    (∃ graph, graphPath base v = .ok graph) ↔ v = .null ∨ ∃ s, v = .text s := by
  cases v <;> simp [graphPath]

theorem listed_eq_ok_iff {v list : Value} :
    listed v = .ok list ↔ ∃ members, v.members? = some members ∧ list = .list members := by
  unfold listed
  cases v.members? <;> simp [eq_comm]

theorem isComplaint_of_listed {v : Value} (refused : listed v = .error fault) :
    isComplaint fault = true := by
  unfold listed at refused
  split at refused <;> cases refused
  rfl

theorem isComplaint_of_expectTruth {setting : Setting} {v : Value}
    (refused : expectTruth setting v = .error fault) : isComplaint fault = true := by
  unfold expectTruth at refused
  split at refused
  · cases refused
  · split at refused <;> cases refused <;> rfl

theorem exists_expectTruth_iff (setting : Setting) {v : Value} :
    (∃ truth, expectTruth setting v = .ok truth) ↔ ∃ b, v = .bool b := by
  cases v <;> simp [expectTruth]

/-- A number of workers is refused with a complaint unless it is infinite. -/
theorem wholeNumber_eq_error {v : Value} (refused : wholeNumber v = .error fault) :
    isComplaint fault = true ∨
      fault = .infinityToInteger ∧ ∃ negative, v = .float (.infinite negative) := by
  unfold wholeNumber at refused
  split at refused
  · cases refused
  · cases refused
  · split at refused
    · cases refused
    · cases refused
      exact Or.inr ⟨rfl, _, rfl⟩
    · cases refused
      exact Or.inl rfl
  · split at refused <;> cases refused <;> exact Or.inl rfl
  · cases refused
    exact Or.inl rfl

theorem ofTable_eq (entries : List (Value × Value)) :
    ofTable base entries = (do
      let graph ← graphPath base (given entries .graph)
      let anchors ← listed (given entries .anchors)
      let exclusions ← listed (given entries .exclusions)
      let archiveDirectories ← expectTruth .archiveDirectories (given entries .archiveDirectories)
      let maxWorkers ← wholeNumber (given entries .maxWorkers)
      return {
        anchors, exclusions, graph, archiveDirectories, maxWorkers
        archiveSuffix := given entries .archiveSuffix
        archiveExtension := given entries .archiveExtension
        temporaryName := given entries .temporaryName }) :=
  rfl

/-- A table is refused with a complaint unless its number of workers is infinite. -/
theorem ofTable_eq_error {entries : List (Value × Value)}
    (refused : ofTable base entries = .error fault) :
    isComplaint fault = true ∨ fault = .infinityToInteger ∧ Boundless entries := by
  rw [ofTable_eq] at refused
  obtain refused | ⟨graph, graphGiven, refused⟩ := bind_eq_error.mp refused
  · exact Or.inl (isComplaint_of_graphPath refused)
  obtain refused | ⟨anchors, anchorsGiven, refused⟩ := bind_eq_error.mp refused
  · exact Or.inl (isComplaint_of_listed refused)
  obtain refused | ⟨exclusions, exclusionsGiven, refused⟩ := bind_eq_error.mp refused
  · exact Or.inl (isComplaint_of_listed refused)
  obtain refused | ⟨truth, truthGiven, refused⟩ := bind_eq_error.mp refused
  · exact Or.inl (isComplaint_of_expectTruth refused)
  obtain refused | ⟨workers, workersGiven, refused⟩ := bind_eq_error.mp refused
  · refine (wholeNumber_eq_error refused).imp_right fun ⟨kind, infinite⟩ => ⟨kind, ?_⟩
    obtain ⟨anchors, walked, -⟩ := listed_eq_ok_iff.mp anchorsGiven
    obtain ⟨exclusions, walked', -⟩ := listed_eq_ok_iff.mp exclusionsGiven
    exact ⟨(exists_graphPath_iff base).mp ⟨graph, graphGiven⟩, ⟨anchors, walked⟩,
      ⟨exclusions, walked'⟩, (exists_expectTruth_iff .archiveDirectories).mp ⟨truth, truthGiven⟩,
      infinite⟩
  · cases refused

theorem Boundless.ofTable_eq {entries : List (Value × Value)} (boundless : Boundless entries)
    (base : Option Path) : ofTable base entries = .error .infinityToInteger := by
  obtain ⟨graph, graphGiven⟩ := (exists_graphPath_iff base).mpr boundless.graph
  obtain ⟨anchors, walked⟩ := boundless.anchors
  obtain ⟨exclusions, walked'⟩ := boundless.exclusions
  obtain ⟨truth, truthGiven⟩ :=
    (exists_expectTruth_iff .archiveDirectories).mpr boundless.archiveDirectories
  obtain ⟨negative, infinite⟩ := boundless.maxWorkers
  rw [Settings.ofTable_eq, graphGiven, listed_eq_ok_iff.mpr ⟨anchors, walked, rfl⟩,
    listed_eq_ok_iff.mpr ⟨exclusions, walked', rfl⟩, truthGiven, infinite]
  rfl

/-! ## Values -/

theorem isComplaint_of_unknownMembers {data : Value}
    (refused : unknownMembers data = .error fault) : isComplaint fault = true := by
  unfold unknownMembers at refused
  split at refused
  · cases refused
    rfl
  · split at refused <;> cases refused
    rfl

theorem isComplaint_of_unordered (refused : Value.Unordered fault) : isComplaint fault = true := by
  cases refused <;> rfl

theorem isComplaint_unknownFault (unknown : List Value) :
    isComplaint (unknownFault unknown) = true := by
  unfold unknownFault
  split
  next refused => exact isComplaint_of_unordered (Value.unordered_of_sort refused)
  · split <;> rfl

theorem members_named_iff {members : List Value} :
    (distinct (members.filter fun v => !isName v)).isEmpty = true ↔
      ∀ v ∈ members, isName v = true := by
  rw [List.isEmpty_iff, distinct_eq_nil_iff, List.filter_eq_nil_iff]
  simp

/-- Names of settings can be looked up. -/
theorem unhashableItem?_of_named {members : List Value}
    (named : ∀ v ∈ members, isName v = true) : Value.unhashableItem? members = none := by
  induction members with
  | nil => rfl
  | cons v rest ih =>
    have text : Value.unhashable? v = none := by
      have name := named v List.mem_cons_self
      cases v <;> first | rfl | cases name
    rw [Value.unhashableItem?, text, ih fun other member => named other (.tail _ member)]
    rfl

/-- A value with no members but names of settings. -/
def Named (data : Value) : Prop :=
  ∃ members, data.members? = some members ∧ ∀ v ∈ members, isName v = true

theorem unknownMembers_of_named {data : Value} (named : Named data) :
    unknownMembers data = .ok [] := by
  obtain ⟨members, walked, named⟩ := named
  have none_unknown := List.isEmpty_iff.mp (members_named_iff.mpr named)
  simp [unknownMembers, walked, unhashableItem?_of_named named, none_unknown]

theorem named_of_unknownMembers {data : Value} {unknown : List Value}
    (found : unknownMembers data = .ok unknown) (empty : unknown.isEmpty = true) :
    Named data := by
  unfold unknownMembers at found
  split at found
  · cases found
  next members walked =>
    split at found
    · cases found
    · cases found
      exact ⟨members, walked, members_named_iff.mp empty⟩

/-- A fault of a value that holds settings and that is no complaint about its file. -/
inductive Passes (data : Value) : Fault → Prop
  /-- The value is no table, and none of its members is complained about. -/
  | notTable (other : ∀ entries, data ≠ .table entries) (named : Named data) :
    Passes data (.noAttribute data.kind "get")
  /-- The number of workers is infinite. -/
  | infinity {entries : List (Value × Value)} (table : data = .table entries) (named : Named data)
    (boundless : Boundless entries) : Passes data .infinityToInteger

/-- A value is refused with a complaint, or its fault passes. -/
theorem ofValue_eq_error {data : Value} (refused : ofValue base data = .error fault) :
    isComplaint fault = true ∨ Passes data fault := by
  unfold ofValue at refused
  obtain refused | ⟨unknown, found, refused⟩ := bind_eq_error.mp refused
  · exact Or.inl (isComplaint_of_unknownMembers refused)
  split at refused
  · cases refused
    exact Or.inl (isComplaint_unknownFault unknown)
  next none_unknown =>
    have named := named_of_unknownMembers found (by simpa using none_unknown)
    split at refused
    next entries =>
      refine (ofTable_eq_error refused).imp_right ?_
      rintro ⟨rfl, boundless⟩
      exact .infinity rfl named boundless
    next data other =>
      cases refused
      exact Or.inr (.notTable other named)

theorem Passes.ofValue_eq {data : Value} (passes : Passes data fault) (base : Option Path) :
    ofValue base data = .error fault ∧ isComplaint fault = false := by
  cases passes with
  | notTable other named =>
    refine ⟨?_, rfl⟩
    unfold ofValue
    rw [unknownMembers_of_named named]
    cases data <;> first | rfl | exact absurd rfl (other _)
  | infinity table named boundless =>
    subst table
    refine ⟨?_, rfl⟩
    unfold ofValue
    rw [unknownMembers_of_named named]
    exact boundless.ofTable_eq base

/-! ## Files -/

/-- The file at a path holds the text of a TOML document. -/
def HoldsText (files : FileTree) (workingDirectory path : Path) (cs : List Char) : Prop :=
  ∃ data, files.read workingDirectory path = .ok data ∧ Text.ofUtf8? data = some cs

/-- The file at a path holds a TOML document. -/
def HoldsDocument (files : FileTree) (workingDirectory path : Path)
    (document : List (Value × Value)) : Prop :=
  ∃ cs, HoldsText files workingDirectory path cs ∧ Toml.read cs = .ok document

/-- The file at a path holds a value where the settings stand. -/
def HoldsPart (files : FileTree) (workingDirectory path : Path) (data : Value) : Prop :=
  ∃ document, HoldsDocument files workingDirectory path document ∧
    sectionOf path document = .ok data

/-- A fault that comes through as it is while the file at a path is loaded. -/
inductive Escapes (files : FileTree) (workingDirectory path : Path) : Fault → Prop
  /-- The path is too long for the file system. -/
  | path (long : files.status workingDirectory path.text = .error .nameTooLong) :
    Escapes files workingDirectory path (.file .nameTooLong path.text)
  /-- The bytes are no UTF-8. -/
  | undecodable {data : List UInt8} (reads : files.read workingDirectory path = .ok data)
    (garbled : Text.ofUtf8? data = none) : Escapes files workingDirectory path (.malformed .utf8)
  /-- The reader refuses the text, but not with a complaint about it. -/
  | reader {cs : List Char} {fault : Fault} (holds : HoldsText files workingDirectory path cs)
    (refuses : Toml.read cs = .error fault) (foreign : isTextComplaint fault = false) :
    Escapes files workingDirectory path fault
  /-- The tools of a project file are no table. -/
  | tool {document : List (Value × Value)} {v : Value}
    (holds : HoldsDocument files workingDirectory path document)
    (project : path.name = projectFileName) (tool : Value.field? document "tool" = some v)
    (other : ∀ entries, v ≠ .table entries) :
    Escapes files workingDirectory path (.noAttribute v.kind "get")
  /-- The fault of the value that holds the settings passes. -/
  | part {data : Value} {fault : Fault} (holds : HoldsPart files workingDirectory path data)
    (passes : Passes data fault) : Escapes files workingDirectory path fault

/-- Settings, or a failure that names the path. -/
def Complains (path : Path) (outcome : Except Failure Settings) : Prop :=
  (∃ s, outcome = .ok s) ∨ ∃ message cause, outcome = .error (.settings path.text message cause)

theorem documentAt_of_holds {document : List (Value × Value)}
    (holds : HoldsDocument files workingDirectory path document) :
    documentAt files workingDirectory path = .ok document := by
  obtain ⟨cs, ⟨data, reads, decodes⟩, parses⟩ := holds
  simp [documentAt, reads, decodes, parses, bind, Except.bind, Except.mapError]

/-- The document of a file is read, or there is a complaint about the file, or a fault comes through
as it is. -/
theorem documentAt_cases (files : FileTree) (workingDirectory path : Path) :
    (∃ document, documentAt files workingDirectory path = .ok document ∧
        HoldsDocument files workingDirectory path document) ∨
      (∃ message cause, documentAt files workingDirectory path =
        .error (.settings path.text message cause)) ∨
      ∃ fault, documentAt files workingDirectory path = .error (.fault fault) ∧
        Escapes files workingDirectory path fault := by
  unfold documentAt
  cases reads : files.read workingDirectory path with
  | error fault => exact Or.inr (Or.inl ⟨_, _, rfl⟩)
  | ok data =>
    simp only [bind, Except.bind, Except.mapError]
    cases decodes : Text.ofUtf8? data with
    | none => exact Or.inr (Or.inr ⟨_, rfl, .undecodable reads decodes⟩)
    | some cs =>
      have holds : HoldsText files workingDirectory path cs := ⟨data, reads, decodes⟩
      dsimp only
      cases parses : Toml.read cs with
      | ok document => exact Or.inl ⟨document, rfl, cs, holds, parses⟩
      | error fault =>
        cases complaint : isTextComplaint fault with
        | true => exact Or.inr (Or.inl ⟨_, _, by simp only [complaint, ↓reduceIte]; rfl⟩)
        | false =>
          exact Or.inr (Or.inr ⟨fault, by simp [complaint], .reader holds parses complaint⟩)

theorem sectionOf_eq_error_iff {document : List (Value × Value)} :
    sectionOf path document = .error fault ↔
      path.name = projectFileName ∧ ∃ v, Value.field? document "tool" = some v ∧
        (∀ entries, v ≠ .table entries) ∧ fault = .noAttribute v.kind "get" := by
  unfold sectionOf
  split
  next project =>
    cases Value.field? document "tool" with
    | none => simp
    | some v => cases v <;> simp [project, eq_comm]
  next settings => simp [settings]

/-- What loading a file ends in: settings, a failure that names the path, or a fault that comes
through. -/
theorem load_cases (files : FileTree) (workingDirectory path : Path) :
    Complains path (load files workingDirectory path) ∨
      ∃ fault, load files workingDirectory path = .error (.fault fault) ∧
        Escapes files workingDirectory path fault := by
  unfold load
  cases asked : files.exists? workingDirectory path with
  | error fault =>
    obtain ⟨long, rfl⟩ := FileTree.exists?_eq_error_iff.mp asked
    exact Or.inr ⟨_, rfl, .path long⟩
  | ok found =>
    cases found with
    | false => exact Or.inl (Or.inl ⟨standard, rfl⟩)
    | true =>
      simp only [bind, Except.bind, Except.mapError, Bool.not_true, Bool.false_eq_true, ↓reduceIte]
      rcases documentAt_cases files workingDirectory path with
        ⟨document, read, holds⟩ | ⟨message, cause, refused⟩ | ⟨fault, refused, escapes⟩
      · rw [read]
        dsimp only
        cases selected : sectionOf path document with
        | error fault =>
          obtain ⟨project, v, tool, other, rfl⟩ := sectionOf_eq_error_iff.mp selected
          exact Or.inr ⟨_, rfl, .tool holds project tool other⟩
        | ok data =>
          dsimp only
          cases settings : ofValue (some (files.resolved workingDirectory path.parent)) data with
          | ok s => exact Or.inl (Or.inl ⟨s, rfl⟩)
          | error fault =>
            dsimp only
            rcases ofValue_eq_error settings with complaint | passes
            · exact Or.inl (Or.inr ⟨_, _, by rw [if_pos complaint]; rfl⟩)
            · have foreign := passes.ofValue_eq none |>.2
              exact Or.inr ⟨fault, by simp [foreign], .part ⟨document, holds, selected⟩ passes⟩
      · rw [refused]
        exact Or.inl (Or.inr ⟨message, cause, rfl⟩)
      · rw [refused]
        exact Or.inr ⟨fault, rfl, escapes⟩

theorem HoldsText.exists? {cs : List Char} (holds : HoldsText files workingDirectory path cs) :
    files.exists? workingDirectory path = .ok true := by
  obtain ⟨data, reads, -⟩ := holds
  exact FileTree.exists?_of_read reads

theorem load_of_document {document : List (Value × Value)}
    (holds : HoldsDocument files workingDirectory path document) :
    load files workingDirectory path = (do
      let part ← (sectionOf path document).mapError Failure.fault
      (ofValue (some (files.resolved workingDirectory path.parent)) part).mapError fun fault =>
        if isComplaint fault then refusal path fault else .fault fault) := by
  obtain ⟨cs, text, parses⟩ := holds
  simp only [load, text.exists?, documentAt_of_holds ⟨cs, text, parses⟩, bind, Except.bind,
    Except.mapError, Bool.not_true, Bool.false_eq_true, ↓reduceIte]

/-- Each of the faults is what loading ends in. -/
theorem Escapes.load_eq (escapes : Escapes files workingDirectory path fault) :
    load files workingDirectory path = .error (.fault fault) := by
  cases escapes with
  | path long =>
    rw [load, FileTree.exists?_eq_error_iff.mpr ⟨long, rfl⟩]
    rfl
  | undecodable reads garbled =>
    simp [load, documentAt, FileTree.exists?_of_read reads, reads, garbled, bind, Except.bind,
      Except.mapError]
  | reader holds refuses foreign =>
    obtain ⟨data, reads, decodes⟩ := holds
    simp [load, documentAt, FileTree.exists?_of_read reads, reads, decodes, refuses, foreign, bind,
      Except.bind, Except.mapError]
  | tool holds project tool other =>
    rw [load_of_document holds, sectionOf_eq_error_iff.mpr ⟨project, _, tool, other, rfl⟩]
    rfl
  | part holds passes =>
    obtain ⟨document, holds, selected⟩ := holds
    obtain ⟨refused, foreign⟩ :=
      passes.ofValue_eq (some (files.resolved workingDirectory path.parent))
    rw [load_of_document holds, selected]
    simp [refused, foreign, bind, Except.bind, Except.mapError]

end Classpath.Settings
