import Classpath.FileTree.Lookup

/-! # The files below a directory

The walk over a directory lists its files in code point order and then, in the same order, the files
of each of its subdirectories. A link to a directory is neither a file nor followed. The walk ends
because each step down leaves fewer nodes below.
-/

namespace Classpath.FileTree

/-- The number of nodes strictly below a place. -/
def countBelow (t : FileTree) (place : Place) : Nat :=
  t.nodes.countP fun entry => place.isPrefixOf entry.1 && decide (place.length < entry.1.length)

/-- Whether a place leads to a directory, through links. -/
def leadsToDirectory (t : FileTree) (place : Place) : Bool :=
  match t.statusAt place with
  | .ok node => node.isDirectory
  | .error _ => false

/-- The subdirectories of a place, not through links. -/
def directoriesIn (t : FileTree) (place : Place) : List String :=
  (t.namesIn place).filter fun name => ((t.node? (place ++ [name])).map Node.isDirectory).getD false

/-- The names at a place that lead to no directory. -/
def leavesIn (t : FileTree) (place : Place) : List String :=
  (t.namesIn place).filter fun name => !t.leadsToDirectory (place ++ [name])

theorem countP_lt_of_imp {α : Type} {p q : α → Bool} {xs : List α}
    (narrower : ∀ x, p x = true → q x = true) {x : α} (member : x ∈ xs) (outside : p x = false)
    (inside : q x = true) : xs.countP p < xs.countP q := by
  induction xs with
  | nil => cases member
  | cons y rest ih =>
    have weak : ∀ ys : List α, ys.countP p ≤ ys.countP q := fun ys =>
      List.countP_mono_left fun z _ => narrower z
    rw [List.countP_cons, List.countP_cons]
    rcases List.mem_cons.mp member with rfl | deeper
    · rw [outside, inside]
      have := weak rest
      simp only [Bool.false_eq_true, ↓reduceIte]
      omega
    · have := ih deeper
      by_cases first : p y = true
      · rw [first, narrower y first]
        omega
      · simp only [first, Bool.false_eq_true, ↓reduceIte]
        split <;> omega

/-- Fewer nodes are below a node than below the place above it. -/
theorem countBelow_child_lt (t : FileTree) {place : Place} {name : String} {node : Node}
    (stands : t.node? (place ++ [name]) = some node) :
    t.countBelow (place ++ [name]) < t.countBelow place := by
  have notRoot : (place ++ [name]).isEmpty = false := by simp
  rw [node?, notRoot] at stands
  simp only [Bool.false_eq_true, ↓reduceIte] at stands
  obtain ⟨entry, found, -⟩ := Option.map_eq_some_iff.mp stands
  have same : entry.1 = place ++ [name] := by simpa using List.find?_some found
  refine countP_lt_of_imp ?_ (List.mem_of_find?_eq_some found) ?_ ?_
  · intro other below
    simp only [Bool.and_eq_true, List.isPrefixOf_iff_prefix, decide_eq_true_eq] at below ⊢
    obtain ⟨⟨suffix, continues⟩, longer⟩ := below
    refine ⟨⟨name :: suffix, ?_⟩, ?_⟩
    · rw [← continues]
      simp
    · simp only [List.length_append, List.length_cons, List.length_nil] at longer
      omega
  · simp [same]
  · rw [same]
    simp

/-- The places below a directory that may be files, in the order of the walk. -/
def leavesBelow (t : FileTree) (place : Place) : List Place :=
  (t.leavesIn place).map (fun name => place ++ [name]) ++
    (t.directoriesIn place).attach.flatMap fun name => t.leavesBelow (place ++ [name.1])
termination_by t.countBelow place
decreasing_by
  obtain ⟨node, stands, -⟩ : ∃ node, t.node? (place ++ [name.1]) = some node ∧
      node.isDirectory = true := by
    have kept := (List.mem_filter.mp name.2).2
    cases found : t.node? (place ++ [name.1]) with
    | none => simp [found] at kept
    | some node => exact ⟨node, rfl, by simpa [found] using kept⟩
  exact t.countBelow_child_lt stands

/-- A regular file below a directory: its path, the names that lead to it from the directory, its
content and the time of its last change. -/
structure Listed where
  path : Path
  names : List String
  content : Content
  modified : Int

/-- The name of a file inside an archive. -/
def Listed.entryName (f : Listed) : String :=
  String.intercalate "/" f.names

/-- The regular files among some places below a directory. What is not a regular file is left out; a
place whose kind cannot be told is refused. -/
def regular (t : FileTree) (directory : Path) (depth : Nat) :
    List Place → List Listed × Option Fault
  | [] => ([], none)
  | place :: rest =>
    let names := place.drop depth
    let path := directory.join ⟨.here, names⟩
    match t.statusAt place with
    | .ok (.file content modified) =>
      let (files, fault) := t.regular directory depth rest
      (⟨path, names, content, modified⟩ :: files, fault)
    | .ok _ => t.regular directory depth rest
    | .error fault =>
      if absent fault then t.regular directory depth rest else ([], some (.file fault path.text))

/-- The regular files below a directory in the order of the walk, up to the first fault. -/
def files (t : FileTree) (workingDirectory directory : Path) : List Listed × Option Fault :=
  match t.status workingDirectory directory.text with
  | .error fault => ([], some (.file fault directory.text))
  | .ok (place, node) =>
    if node.isDirectory then t.regular directory place.length (t.leavesBelow place)
    else ([], some (.file .notDirectory directory.text))

/-- All that is below a place: the names that lead to it, and whether it leads to a directory. -/
def outline (t : FileTree) (place : Place) : List (List String × Bool) :=
  (t.nodes.filter fun entry =>
      place.isPrefixOf entry.1 && decide (place.length < entry.1.length)).map fun entry =>
    (entry.1.drop place.length, t.leadsToDirectory entry.1)

end Classpath.FileTree
