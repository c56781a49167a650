import Classpath.Text.Utf8

/-! # Paths as texts name them

A path is where it starts and a list of names. Reading a text drops empty names and single dots, so
two spellings that differ in these only are one path; dots that go up are kept, because they cannot
be dropped without looking at links. `collapse` removes them too and is the form that a location
has. The main statement says that a collapsed absolute path has no dots left.
-/

namespace Classpath

/-- Where a path starts. Exactly two leading slashes are kept apart from one. -/
inductive Path.Start where
  | here
  | root
  | doubleRoot
deriving DecidableEq, Repr

/-- A path: its start and its names in order. -/
structure Path where
  start : Path.Start
  names : List String
deriving DecidableEq, Repr

namespace Path

/-- The names that a text separates by slashes, empty ones included. -/
def segments (s : String) : List String :=
  (s.toList.splitOn '/').map String.ofList

/-- The start that the leading slashes of a text give. -/
def startOf : List Char → Start
  | '/' :: '/' :: '/' :: _ => .root
  | '/' :: '/' :: _ => .doubleRoot
  | '/' :: _ => .root
  | _ => .here

/-- Read a path. -/
def ofText (s : String) : Path :=
  ⟨startOf s.toList, (segments s).filter fun name => name ≠ "" && name ≠ "."⟩

/-- The slashes of a start. -/
def Start.text : Start → String
  | .here => ""
  | .root => "/"
  | .doubleRoot => "//"

/-- The normal spelling of a path; the empty path is a dot. -/
def text (p : Path) : String :=
  if p.start = .here && p.names.isEmpty then "."
  else p.start.text ++ String.intercalate "/" p.names

/-- Whether a path does not depend on the working directory. -/
def isAbsolute (p : Path) : Bool :=
  p.start ≠ .here

/-- The path `q` as seen from `p`. -/
def join (p q : Path) : Path :=
  if q.isAbsolute then q else ⟨p.start, p.names ++ q.names⟩

/-- Append one name. -/
def child (p : Path) (name : String) : Path :=
  ⟨p.start, p.names ++ [name]⟩

/-- All but the last name. -/
def parent (p : Path) : Path :=
  ⟨p.start, p.names.dropLast⟩

/-- The last name, or the empty text. -/
def name (p : Path) : String :=
  p.names.getLast?.getD ""

/-- The last dot of a name and what follows it, unless the dot is the first or last character. -/
def suffix (p : Path) : String :=
  let reversed := p.name.toList.reverse
  let extension := reversed.takeWhile (· ≠ '.')
  match reversed.drop extension.length with
  | [] => ""
  | [_] => ""
  | _ => if extension.isEmpty then "" else String.ofList ('.' :: extension.reverse)

/-- Follow one name from the names above it, given in reverse: two dots go up, or stay where nothing
is above a root, or are kept where nothing is known to be above. -/
def ascend (absolute : Bool) (above : List String) (name : String) : List String :=
  if name ≠ ".." then name :: above
  else
    match above with
    | [] => if absolute then [] else [".."]
    | top :: rest => if top = ".." then ".." :: above else rest

/-- Remove the dots that go up, without regard to links. -/
def collapse (p : Path) : Path :=
  ⟨p.start, (p.names.foldl (ascend p.isAbsolute) []).reverse⟩

/-- The collapsed absolute path of `p` as seen from a working directory. -/
def absolute (workingDirectory p : Path) : Path :=
  (workingDirectory.join p).collapse

/-- Names without dots that go up. -/
def Plain (names : List String) : Prop :=
  ".." ∉ names

theorem plain_ascend {above : List String} (plain : Plain above) (name : String) :
    Plain (ascend true above name) := by
  unfold ascend
  split
  · rename_i other
    intro member
    rcases List.mem_cons.mp member with same | member
    · exact other same.symm
    · exact plain member
  · cases above with
    | nil => simp [Plain]
    | cons top rest =>
      have notUp : top ≠ ".." := fun same => plain (same ▸ List.mem_cons_self)
      have rest_plain : Plain rest := fun member => plain (List.mem_cons_of_mem _ member)
      simpa [notUp] using rest_plain

theorem plain_foldl_ascend (names : List String) {above : List String} (plain : Plain above) :
    Plain (names.foldl (ascend true) above) := by
  induction names generalizing above with
  | nil => exact plain
  | cons name rest ih => exact ih (plain_ascend plain name)

/-- A collapsed absolute path goes up nowhere. -/
theorem plain_collapse {p : Path} (rooted : p.isAbsolute = true) : Plain p.collapse.names := by
  intro member
  unfold collapse at member
  rw [rooted, List.mem_reverse] at member
  have nothing : Plain ([] : List String) := by simp [Plain]
  exact plain_foldl_ascend p.names nothing member

end Path

end Classpath
