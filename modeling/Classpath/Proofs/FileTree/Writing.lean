import Classpath.Proofs.FileTree.Way
import Mathlib.Data.List.Induction

/-! # Finding what has been written

In a file tree whatever stands somewhere stands in a directory (`Classpath.FileTree.Sound`). A file
that has been written is found under the path that it was written to
(`Classpath.FileTree.status_put`), also where links lead to it.
-/

namespace Classpath

/-- Where a look-up of a path starts. -/
def Path.origin (p workingDirectory : Path) : Place :=
  if p.start = .here then workingDirectory.names else []

namespace FileTree

/-- Whatever stands somewhere stands in a directory. -/
def Sound (t : FileTree) : Prop :=
  ∀ place name node, t.node? (place ++ [name]) = some node → t.node? place = some .directory

variable {t : FileTree}

@[simp] theorem node?_nil (t : FileTree) : t.node? [] = some .directory :=
  rfl

/-- A tree is sound when each of its entries stands in a directory. -/
theorem sound_of_entries {t : FileTree}
    (entries : ∀ entry ∈ t.nodes, t.node? entry.1.dropLast = some .directory) : t.Sound := by
  intro place name node stands
  have below : (place ++ [name]).isEmpty = false := by simp
  rw [node?, below] at stands
  simp only [Bool.false_eq_true, ↓reduceIte] at stands
  obtain ⟨entry, found, -⟩ := Option.map_eq_some_iff.mp stands
  have same : entry.1 = place ++ [name] := by simpa using List.find?_some found
  have above := entries entry (List.mem_of_find?_eq_some found)
  rwa [same, List.dropLast_concat] at above

theorem Sound.node?_dropLast (sound : t.Sound) {place : Place} {node : Node}
    (stands : t.node? place = some node) : t.node? place.dropLast = some .directory := by
  rcases List.eq_nil_or_concat place with rfl | ⟨above, name, rfl⟩
  · rfl
  · rw [List.concat_eq_append] at stands ⊢
    rw [List.dropLast_concat]
    exact sound above name node stands

/-- Above what stands there are directories. -/
theorem Sound.directory_above (sound : t.Sound) {front back : Place}
    (stands : t.node? (front ++ back) ≠ none) (below : back ≠ []) :
    t.node? front = some .directory := by
  induction back using List.reverseRecOn with
  | nil => exact absurd rfl below
  | append_singleton more name ih =>
    rw [← List.append_assoc] at stands
    obtain ⟨node, stands⟩ := Option.ne_none_iff_exists'.mp stands
    have directory := sound _ _ _ stands
    by_cases last : more = []
    · rwa [last, List.append_nil] at directory
    · exact ih (by simp [directory]) last

/-- What stands does not vanish when something is put somewhere. -/
theorem node?_put_ne_none (t : FileTree) {place other : Place} (node : Node) (below : place ≠ [])
    (stands : t.node? other ≠ none) : (t.put place node).node? other ≠ none := by
  by_cases here : other = place
  · rw [here, node?_put_self t node below]
    simp
  · rwa [node?_put_of_ne t node here]

/-- Nothing stands where something has been taken away. -/
theorem node?_erase_self (t : FileTree) {place : Place} (below : place ≠ []) :
    (t.erase place).node? place = none := by
  simp [node?, erase, List.isEmpty_iff, below]

/-- What is put at a place later takes the place of what was put there before. -/
theorem put_put (t : FileTree) (place : Place) (first second : Node) :
    (t.put place first).put place second = t.put place second := by
  simp [put, erase]

/-- At any other place nothing changes. -/
theorem node?_erase_of_ne (t : FileTree) {place other : Place} (apart : other ≠ place) :
    (t.erase place).node? other = t.node? other := by
  unfold node?
  split
  · rfl
  · simp only [erase]
    rw [find?_filter_of_imp]
    intro entry found
    have here : entry.1 = other := by simpa using found
    simp [here, apart]

/-! ## Following names -/

/-- A look-up after a place to write to does not end at a link. -/
theorem follow_newFile_ne_link (sound : t.Sound) {links : Nat} {place found : Place}
    {names : List String} (followed : t.follow .newFile links place names = .ok found)
    (start : ∀ target, t.node? place ≠ some (.link target)) :
    ∀ target, t.node? found ≠ some (.link target) := by
  have noLink : ∀ {place}, t.node? place = some .directory →
      ∀ target, t.node? place ≠ some (.link target) := by
    simp +contextual
  rw [follow_eq_ok_iff] at followed
  induction followed with
  | here => exact start
  | dot stands dot onward ih => exact ih start
  | up stands onward ih => exact ih (noLink (sound.node?_dropLast stands))
  | link stands passes link goesOn onward ih =>
    apply ih
    split
    · exact noLink stands
    · exact noLink rfl
  | down stands passes next onward ih => exact ih (noLink next)
  | last stands passes stops => exact fun target link => absurd (stops target link) (by simp)

/-- Names that lead to what is no link lead there whatever they are looked up for. -/
theorem follow_target {aim : Aim} {links : Nat} {place found : Place} {names : List String}
    (followed : t.follow aim links place names = .ok found)
    (noLink : ∀ target, t.node? found ≠ some (.link target)) :
    t.follow .target links place names = .ok found := by
  rw [follow_eq_ok_iff] at followed ⊢
  induction followed with
  | here => exact .here
  | dot stands dot onward ih => exact .dot stands dot (ih noLink)
  | up stands onward ih => exact .up stands (ih noLink)
  | link stands passes link goesOn onward ih =>
    exact .link stands (passes.of_ne_newFile (by simp) _) link (by simp) (ih noLink)
  | down stands passes next onward ih =>
    exact .down stands (passes.of_ne_newFile (by simp) _) next (ih noLink)
  | last stands passes stops =>
    exact .last stands (passes.of_ne_newFile (by simp) _) fun target link =>
      absurd link (noLink target)

/-- The place of a file that has been written is found by the names that led there before. Nothing
on the way has changed, because every step but the last was taken from a directory. -/
theorem follow_put {node : Node} (notLink : ∀ target, node ≠ .link target) {aim : Aim}
    {links : Nat} {place found : Place} {names : List String}
    (followed : t.follow aim links place names = .ok found)
    (notDirectory : t.node? found ≠ some .directory)
    (noLink : ∀ target, t.node? found ≠ some (.link target)) :
    (t.put found node).follow aim links place names = .ok found := by
  have below : found ≠ [] := by
    rintro rfl
    exact notDirectory rfl
  have kept : ∀ {place other}, t.node? found ≠ some other → t.node? place = some other →
      (t.put found node).node? place = some other := by
    intro place other apart stands
    rwa [node?_put_of_ne t node]
    rintro rfl
    exact apart stands
  refine ((Way.of_follow followed).transfer (fun _ => kept notDirectory)
    (fun _ target => kept (noLink target)) ?_).follow
  intro target link
  rw [node?_put_self t node below] at link
  exact absurd (Option.some.inj link) (notLink target)

/-! ## Files -/

section Text

variable {aim : Aim} {workingDirectory : Path} {s : String} {place : Place}

/-- The look-up of a text follows its segments. -/
theorem locate_eq_ok_iff : t.locate aim workingDirectory s = .ok place ↔
    s.isEmpty = false ∧ s.utf8ByteSize < pathLimit ∧
      t.follow aim linkLimit ((Path.ofText s).origin workingDirectory) (Path.segments s) =
        .ok place := by
  unfold locate
  split
  next empty => simp [empty]
  next some_text =>
    split
    next long =>
      refine iff_of_false (by simp) fun found => ?_
      omega
    next short => simp [some_text, Path.origin, Path.ofText, Nat.lt_of_not_le short]

/-- What has been put where a text leads is looked up there. -/
theorem locate_put {node : Node} (notLink : ∀ target, node ≠ .link target)
    (located : t.locate aim workingDirectory s = .ok place)
    (notDirectory : t.node? place ≠ some .directory)
    (noLink : ∀ target, t.node? place ≠ some (.link target)) :
    (t.put place node).locate aim workingDirectory s = .ok place := by
  obtain ⟨some_text, short, followed⟩ := locate_eq_ok_iff.mp located
  exact locate_eq_ok_iff.mpr
    ⟨some_text, short, follow_put notLink followed notDirectory noLink⟩

/-- What a path leads to stands where the look-up of its target ends. -/
theorem status_eq_ok_iff {node : Node} : t.status workingDirectory s = .ok (place, node) ↔
    t.locate .target workingDirectory s = .ok place ∧ t.node? place = some node := by
  unfold status
  cases t.locate .target workingDirectory s with
  | error fault => simp [bind, Except.bind]
  | ok found =>
    simp only [bind, Except.bind]
    constructor
    · intro leads
      split at leads
      next other stands =>
        cases leads
        exact ⟨rfl, stands⟩
      · cases leads
    · rintro ⟨⟨⟩, stands⟩
      rw [stands]

/-- A file may be written where the look-up of a place for it ends, unless that is a directory. -/
theorem writable_eq_ok_iff : t.writable workingDirectory s = .ok place ↔
    t.locate .newFile workingDirectory s = .ok place ∧ t.node? place ≠ some .directory := by
  unfold FileTree.writable
  cases t.locate .newFile workingDirectory s with
  | error fault => simp [bind, Except.bind]
  | ok found =>
    simp only [bind, Except.bind]
    split
    next directory =>
      refine iff_of_false (by simp) ?_
      rintro ⟨⟨⟩, other⟩
      exact other directory
    next other =>
      constructor
      · rintro ⟨⟩
        exact ⟨rfl, other⟩
      · rintro ⟨⟨⟩, -⟩
        rfl

/-- A text leads to what stands where it is looked up, unless that is a link. -/
theorem status_of_locate {node : Node} (located : t.locate aim workingDirectory s = .ok place)
    (stands : t.node? place = some node) (notLink : ∀ target, node ≠ .link target) :
    t.status workingDirectory s = .ok (place, node) := by
  obtain ⟨some_text, short, followed⟩ := locate_eq_ok_iff.mp located
  have noLink : ∀ target, t.node? place ≠ some (.link target) := fun target link =>
    notLink target (Option.some.inj (stands.symm.trans link))
  have led := locate_eq_ok_iff.mpr ⟨some_text, short, follow_target followed noLink⟩
  exact status_eq_ok_iff.mpr ⟨led, stands⟩

/-- Where a file may be written stands neither a directory nor a link. -/
theorem writable_spec (sound : t.Sound) (writable : t.writable workingDirectory s = .ok place) :
    t.locate .newFile workingDirectory s = .ok place ∧ t.node? place ≠ some .directory ∧
      ∀ target, t.node? place ≠ some (.link target) := by
  obtain ⟨located, notDirectory⟩ := writable_eq_ok_iff.mp writable
  refine ⟨located, notDirectory, ?_⟩
  have followed := (locate_eq_ok_iff.mp located).2.2
  apply follow_newFile_ne_link sound followed
  intro target link
  have nothing := (eq_nil_of_follow followed (by simp [link])).1
  simp [Path.segments, List.splitOn_ne_nil] at nothing

theorem ne_nil_of_writable (sound : t.Sound)
    (writable : t.writable workingDirectory s = .ok place) : place ≠ [] := by
  rintro rfl
  exact (writable_spec sound writable).2.1 rfl

theorem locate_written (sound : t.Sound) (writable : t.writable workingDirectory s = .ok place)
    (content : Content) (modified : Int) :
    (t.put place (.file content modified)).locate .newFile workingDirectory s = .ok place := by
  obtain ⟨located, notDirectory, noLink⟩ := writable_spec sound writable
  exact locate_put (by simp) located notDirectory noLink

/-- A file that has been written is found under the path that it was written to. -/
theorem status_put (sound : t.Sound) (writable : t.writable workingDirectory s = .ok place)
    (content : Content) (modified : Int) :
    (t.put place (.file content modified)).status workingDirectory s =
      .ok (place, .file content modified) :=
  status_of_locate (locate_written sound writable content modified)
    (node?_put_self t _ (ne_nil_of_writable sound writable)) (by simp)

/-- A file that has been written can be written again. -/
theorem writable_put (sound : t.Sound) (writable : t.writable workingDirectory s = .ok place)
    (content : Content) (modified : Int) :
    (t.put place (.file content modified)).writable workingDirectory s = .ok place := by
  rw [writable_eq_ok_iff, node?_put_self t _ (ne_nil_of_writable sound writable)]
  exact ⟨locate_written sound writable content modified, by simp⟩

/-- Writing puts the file where it may be written. -/
theorem exists_of_write {p : Path} {content : Content} {modified : Int} {written : FileTree}
    (wrote : t.write workingDirectory p content modified = .ok written) :
    ∃ place, t.writable workingDirectory p.text = .ok place ∧
      written = t.put place (.file content modified) := by
  unfold FileTree.write at wrote
  split at wrote
  next place writable =>
    cases wrote
    exact ⟨place, writable, rfl⟩
  · cases wrote

end Text

theorem stands_of_status {workingDirectory : Path} {s : String} {place : Place} {node : Node}
    (found : t.status workingDirectory s = .ok (place, node)) : t.node? place = some node :=
  (status_eq_ok_iff.mp found).2

end FileTree

end Classpath
