import Classpath.Proofs.FileTree.Listing
import Classpath.Proofs.FileTree.Spelling

/-! # Walking down to a file

A place whose path goes through directories only is found under its own names, unless a name or the
path is too long (`Classpath.FileTree.Reached.statusAt`). A walk over a directory above it comes to
it (`Classpath.FileTree.Reached.mem_leavesBelow`).
-/

namespace Classpath.FileTree

/-- A place where something other than a link stands, below nothing but directories. -/
structure Reached (t : FileTree) (place : Place) (node : Node) : Prop where
  canonical : (⟨.root, place⟩ : Path).Canonical
  stands : t.node? place = some node
  noLink : ∀ target, node ≠ .link target
  above : ∀ front back, place = front ++ back → back ≠ [] → t.node? front = some .directory

section Reached

variable {t : FileTree} {place : Place} {node : Node}

/-- Names that go through directories are followed to their end unless one is too long. -/
theorem Reached.follow (reached : t.Reached place node) {front back : Place}
    (split : place = front ++ back) (links : Nat) :
    t.follow .target links front back = .ok place ∨
      t.follow .target links front back = .error .nameTooLong := by
  induction back generalizing front with
  | nil =>
    rw [List.append_nil] at split
    rw [FileTree.follow, split]
    exact Or.inl rfl
  | cons name rest ih =>
    have member : name ∈ place := by simp [split]
    have named := reached.canonical.normal name member
    have notUp : name ≠ ".." := fun up => reached.canonical.plain (up ▸ member)
    have stands := reached.above front _ split (by simp)
    have notDot : ¬ (name = "" || name = ".") := by simp [named.1, named.2.1]
    by_cases long : nameLimit < name.utf8ByteSize
    · exact Or.inr (follow_cons_long stands notDot notUp (by simp) long)
    · have next : ∃ node, t.node? (front ++ [name]) = some node ∧
          ∀ target, node ≠ .link target := by
        by_cases last : rest = []
        · exact ⟨node, by rw [← reached.stands, split, last], reached.noLink⟩
        · exact ⟨.directory, reached.above _ rest (by simp [split]) last, by simp⟩
      obtain ⟨next, there, noLink⟩ := next
      rw [follow_cons_node stands ⟨notDot, notUp, by simp, long⟩ there noLink]
      exact ih (by simp [split])

/-- What stands at a place is found there unless its path is too long. -/
theorem Reached.statusAt (reached : t.Reached place node) :
    t.statusAt place = .ok node ∨ t.statusAt place = .error .nameTooLong := by
  have text : "/" ++ String.intercalate "/" place = (⟨.root, place⟩ : Path).text := by
    simp [Path.text, Path.Start.text]
  rw [FileTree.statusAt, status, text, locate_text t reached.canonical]
  split
  · exact Or.inr rfl
  · rcases reached.follow (List.nil_append place).symm linkLimit with found | long
    · rw [found]
      simp only [bind, Except.bind, reached.stands]
      exact Or.inl rfl
    · rw [long]
      exact Or.inr rfl

end Reached

/-! ## Where look-ups lead -/

variable {t : FileTree}

/-- Names that lead to a place where nothing stands lead to a directory first. -/
theorem directory_of_follow (sound : t.Sound) {aim : Aim} {links : Nat} {place found : Place}
    {names : List String} (followed : t.follow aim links place names = .ok found)
    (stands : t.node? place ≠ none) (absent : t.node? found = none) :
    t.node? found.dropLast = some .directory := by
  rw [follow_eq_ok_iff] at followed
  induction followed with
  | here => exact absurd absent stands
  | dot here dot onward ih => exact ih stands absent
  | up here onward ih =>
    refine ih ?_ absent
    rw [sound.node?_dropLast here]
    simp
  | link here passes link goesOn onward ih =>
    refine ih ?_ absent
    split
    · exact stands
    · simp
  | down here passes next onward ih => exact ih (by simp [next]) absent
  | last here passes stops => rwa [List.dropLast_concat]

theorem slash_not_mem_segments {s name : String} (member : name ∈ Path.segments s) :
    '/' ∉ name.toList := by
  obtain ⟨part, inside, rfl⟩ := List.mem_map.mp member
  rw [String.toList_ofList]
  exact Path.not_mem_of_mem_splitOn inside

/-- Names of a path lead to places with such names. -/
theorem named_of_follow {aim : Aim} {links : Nat} {place found : Place} {names : List String}
    (followed : t.follow aim links place names = .ok found)
    (whole : ∀ name ∈ names, '/' ∉ name.toList)
    (named : ∀ name ∈ place, Path.IsName name ∧ name ≠ "..") :
    ∀ name ∈ found, Path.IsName name ∧ name ≠ ".." := by
  have concat : ∀ {place : Place} {name : String} {rest : List String},
      (∀ other ∈ place, Path.IsName other ∧ other ≠ "..") → Passes aim name rest →
      '/' ∉ name.toList → ∀ other ∈ place ++ [name], Path.IsName other ∧ other ≠ ".." := by
    intro place name rest named passes whole other member
    have notDot := passes.notDot
    simp only [Bool.or_eq_true, decide_eq_true_eq, not_or] at notDot
    rcases List.mem_append.mp member with before | last
    · exact named other before
    · rw [List.mem_singleton.mp last]
      exact ⟨⟨notDot.1, notDot.2, whole⟩, passes.notUp⟩
  have later : ∀ {name : String} {rest : List String},
      (∀ other ∈ name :: rest, '/' ∉ other.toList) → ∀ other ∈ rest, '/' ∉ other.toList :=
    fun whole other member => whole other (List.mem_cons_of_mem _ member)
  rw [follow_eq_ok_iff] at followed
  induction followed with
  | here => exact named
  | dot here dot onward ih => exact ih (later whole) named
  | up here onward ih =>
    exact ih (later whole) fun name member => named name (List.dropLast_subset _ member)
  | link here passes link goesOn onward ih =>
    refine ih (fun other member => ?_) fun other member => ?_
    · rcases List.mem_append.mp member with inside | after
      · exact slash_not_mem_segments inside
      · exact later whole other after
    · split at member
      · exact named other member
      · cases member
  | down here passes next onward ih =>
    exact ih (later whole) (concat named passes (whole _ List.mem_cons_self))
  | last here passes stops => exact concat named passes (whole _ List.mem_cons_self)

end Classpath.FileTree
