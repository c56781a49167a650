import Classpath.Path
import Classpath.Text.Order

/-! # File trees

A file system as a value: what stands at each place below the root. A place is the list of the
names that lead to it, without links or dots. The main statements say what is found after a node
has been put somewhere or a place has been cleared.
-/

namespace Classpath

/-- One file of an archive. -/
structure Entry where
  name : String
  data : List UInt8
deriving DecidableEq, Repr

/-- What a file holds: bytes, or an archive that is known by its entries. -/
inductive Content where
  | bytes (data : List UInt8)
  | archive (entries : List Entry)
deriving DecidableEq, Repr

/-- What a reader of the file sees. An archive that is being written shows nothing yet. -/
def Content.data : Content → List UInt8
  | .bytes data => data
  | .archive _ => []

/-- What stands at a place. A file knows when it was last changed, in seconds since 1970. -/
inductive Node where
  | directory
  | file (content : Content) (modified : Int)
  | link (target : String)
  | pipe
deriving DecidableEq, Repr

/-- Whether a node is a directory itself. -/
def Node.isDirectory : Node → Bool
  | .directory => true
  | _ => false

/-- The names that lead from the root to a place. -/
abbrev Place := List String

/-- What stands at each place below the root. -/
structure FileTree where
  nodes : List (Place × Node)
deriving Repr

namespace FileTree

/-- The tree with nothing but the root. -/
def empty : FileTree := ⟨[]⟩

/-- What stands at a place; the root is a directory. -/
def node? (t : FileTree) (place : Place) : Option Node :=
  if place.isEmpty then some .directory
  else (t.nodes.find? fun entry => entry.1 = place).map (·.2)

/-- Take away what stands at a place, and nothing else. -/
def erase (t : FileTree) (place : Place) : FileTree :=
  ⟨t.nodes.filter fun entry => !decide (entry.1 = place)⟩

/-- Put a node at a place, instead of what stood there. -/
def put (t : FileTree) (place : Place) (node : Node) : FileTree :=
  ⟨(place, node) :: (t.erase place).nodes⟩

/-- Take away what stands at a place and all that is below. -/
def clear (t : FileTree) (place : Place) : FileTree :=
  ⟨t.nodes.filter fun entry => !place.isPrefixOf entry.1⟩

/-- The sorted names of what stands directly below a place. -/
def namesIn (t : FileTree) (place : Place) : List String :=
  Text.sort <| distinct <| t.nodes.filterMap fun entry =>
    if entry.1.dropLast = place then entry.1.getLast? else none

theorem find?_filter_of_imp {α : Type} {p q : α → Bool} {xs : List α}
    (keeps : ∀ x, p x = true → q x = true) : (xs.filter q).find? p = xs.find? p := by
  induction xs with
  | nil => rfl
  | cons x rest ih =>
    by_cases found : p x = true
    · simp [keeps x found, found]
    · by_cases kept : q x = true <;> simp [kept, found, ih]

/-- At the place itself the new node is found. -/
theorem node?_put_self (t : FileTree) {place : Place} (node : Node) (below : place ≠ []) :
    (t.put place node).node? place = some node := by
  simp [node?, put, List.isEmpty_iff, below]

/-- At any other place nothing changes. -/
theorem node?_put_of_ne (t : FileTree) {place other : Place} (node : Node)
    (apart : other ≠ place) : (t.put place node).node? other = t.node? other := by
  unfold node?
  split
  · rfl
  · have skipped : ¬ place = other := fun same => apart same.symm
    simp only [put, erase, List.find?_cons, skipped, decide_false]
    rw [find?_filter_of_imp]
    intro entry found
    have here : entry.1 = other := by simpa using found
    simp [here, apart]

/-- Clearing a place leaves alone what is not below it. -/
theorem node?_clear_of_not_below (t : FileTree) {place other : Place}
    (apart : place.isPrefixOf other = false) : (t.clear place).node? other = t.node? other := by
  unfold node?
  split
  · rfl
  · simp only [clear]
    rw [find?_filter_of_imp]
    intro entry found
    have here : entry.1 = other := by simpa using found
    simp [here, apart]

end FileTree

end Classpath
