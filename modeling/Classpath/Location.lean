import Classpath.Fault
import Classpath.Path
import Classpath.Text.Order
import Classpath.Uri.Reference

/-! # Locations of classes

The place that defines a class is an archive, a directory or something remote, and is known by a
normal URI, so that different spellings of one place are one location. A bare path becomes an
absolute `file` URI, a local `file` URI gets its path collapsed, and any other URI is kept apart
from the case of its scheme. The main statements say when a value is no location and that a
location stays itself.
-/

namespace Classpath

/-- A place that defines classes, named by its normal URI. -/
structure Location where
  uri : String
deriving DecidableEq, Repr

namespace Location

/-- The scheme of places in the local file system. -/
def fileScheme : String := "file"

/-- The URI of an absolute path. -/
def fileUri (p : Path) : String :=
  "file://" ++ String.ofList (Uri.encode p.text.toList)

/-- Whether an authority names this machine. -/
def isThisMachine (authority : List Char) : Bool :=
  authority.isEmpty || authority = "localhost".toList

/-- The URI of a path from the working directory. No file name holds half of a surrogate pair,
unless it stands for a byte. -/
def localUri (workingDirectory p : Path) : Except SpellingFault String :=
  let p := Path.absolute workingDirectory p
  match Text.unpaired? 0 p.text.toList with
  | some found => .error (.unpaired found)
  | none => .ok (fileUri p)

/-- The normal URI of a text that has no blanks around it. -/
def normalForm (workingDirectory : Path) (s : String) : Except SpellingFault String :=
  let parts := Uri.Reference.ofText s
  if parts.scheme.length ≤ 1 then localUri workingDirectory (.ofText s)
  else if parts.scheme ≠ fileScheme.toList then
    .ok (String.ofList (parts.scheme ++ s.toList.drop parts.scheme.length))
  else if isThisMachine parts.authority then
    let path := Uri.decode parts.path
    let path := if path.isEmpty then ['/'] else path
    localUri workingDirectory (.ofText (String.ofList path))
  else .ok (fileScheme ++ "://" ++ String.ofList (parts.authority ++ parts.path))

/-- The normal URI of a text. -/
def normalize (workingDirectory : Path) (s : String) : Except SpellingFault String :=
  let s := Text.trim s
  match Uri.hostFault? (Uri.Reference.ofText s).authority with
  | some fault => .error (.host fault)
  | none => normalForm workingDirectory s

/-- The location that a text spells. -/
def ofText (workingDirectory : Path) (s : String) : Except SpellingFault Location :=
  if Text.blank s then .error .blank else (normalize workingDirectory s).map Location.mk

/-- What a location may be given as. -/
inductive Spelling where
  | location (l : Location)
  | path (p : Path)
  | value (v : Value)

/-- The record of a refused location. -/
def refusal (fault : SpellingFault) : Fault :=
  .invalid [⟨[.field "uri"], .spelling fault⟩]

/-- The location that a spelling stands for: a location stands for itself, and no value but a text
stands for one. -/
def of (workingDirectory : Path) : Spelling → Except Fault Location
  | .location l => .ok l
  | .path p => (ofText workingDirectory p.text).mapError refusal
  | .value (.text s) => (ofText workingDirectory s).mapError refusal
  | .value _ => .error (refusal .blank)

/-! ## Views of a location -/

/-- The parts of the URI. -/
def parts (l : Location) : Uri.Reference :=
  .ofText l.uri

/-- The scheme of the URI. -/
def scheme (l : Location) : String :=
  String.ofList l.parts.scheme

/-- Whether a location is in the local file system. -/
def isLocal (l : Location) : Bool :=
  l.scheme == fileScheme

/-- The path of a local location. A host other than this machine comes first, after two slashes. -/
def filePath (l : Location) : Path :=
  let parts := l.parts
  let path := Uri.decode parts.path
  if isThisMachine parts.authority then .ofText (String.ofList path)
  else .ofText (String.ofList ('/' :: '/' :: parts.authority ++ path))

/-- The path of a location, which has one only when it is local. -/
def path (l : Location) : Except Fault Path :=
  if l.isLocal then .ok l.filePath else .error (.notLocal l.uri)

/-- The text of the path of a location. -/
def pathText (l : Location) : Except Fault String :=
  l.path.map Path.text

/-- The last name of the path. -/
def name (l : Location) : String :=
  (Path.ofText (String.ofList (Uri.decode l.parts.pathWithoutParameters))).name

/-- The spellings that an exclusion is looked for in: the URI, and for a local location its path,
and on this machine the URI with a single slash. -/
def forms (l : Location) : List String :=
  if l.isLocal then
    [l.uri, l.filePath.text] ++
      (if isThisMachine l.parts.authority then [fileScheme ++ ":" ++ String.ofList l.parts.path]
      else [])
  else [l.uri]

/-- The form in which a location is shown to a programmer. -/
def written (l : Location) : String :=
  "ArtifactLocation(" ++ Text.quoted l.uri ++ ")"

/-! ## Small facts -/

@[simp] theorem of_location (workingDirectory : Path) (l : Location) :
    of workingDirectory (.location l) = .ok l :=
  rfl

theorem localUri_ne_blank (workingDirectory p : Path) :
    localUri workingDirectory p ≠ .error .blank := by
  unfold localUri
  dsimp only
  split <;> simp

theorem normalize_ne_blank (workingDirectory : Path) (s : String) :
    normalize workingDirectory s ≠ .error .blank := by
  unfold normalize normalForm
  dsimp only
  repeat' split
  all_goals first | exact localUri_ne_blank _ _ | simp

/-- A blank text is no location, and no other text is refused for blanks. -/
theorem ofText_eq_blank_iff (workingDirectory : Path) (s : String) :
    ofText workingDirectory s = .error .blank ↔ Text.blank s = true := by
  unfold ofText
  by_cases blank : Text.blank s = true
  · simp [blank]
  · rw [if_neg blank]
    have kept := normalize_ne_blank workingDirectory s
    cases found : normalize workingDirectory s with
    | ok uri => simp [Except.map, blank]
    | error fault =>
      rw [found] at kept
      simpa [Except.map, blank] using kept

theorem uri_mem_forms (l : Location) : l.uri ∈ l.forms := by
  unfold forms
  split <;> simp

/-- Sort locations by their URIs. -/
def sort (locations : List Location) : List Location :=
  Text.sortOn Location.uri locations

end Location

end Classpath
