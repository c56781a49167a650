import Classpath.Proofs.FileTree.Listing
import Classpath.Proofs.Packing.Temporary

/-! # Files of the fresh directory

While jobs are run, the file tree stays as it was except below the fresh directory, where nothing
but archives stand (`Classpath.Packing.Made`). What the path of an archive leads to there does not
depend on the archives that stand already (`Classpath.Packing.Made.locate_eq`), so that writing it
and taking it away comes down to one place (`Classpath.Packing.Made.write_eq`,
`Classpath.Packing.Made.unlink_eq`).
-/

namespace Classpath

namespace Path

/-- A path that goes on from another one, and not to the directory above. -/
def Below (p q : Path) : Prop :=
  ∃ first rest, first ≠ ".." ∧ q = ⟨p.start, p.names ++ first :: rest⟩

theorem below_child (p : Path) {name : String} (notUp : name ≠ "..") : p.Below (p.child name) :=
  ⟨name, [], notUp, rfl⟩

theorem append_ne_dots {front : String} (named : IsName front) (notUp : front ≠ "..")
    (more : List Char) :
    front.toList ++ more ≠ [] ∧ front.toList ++ more ≠ ['.'] ∧
      front.toList ++ more ≠ ['.', '.'] := by
  obtain ⟨some_char, notDot, -⟩ := named
  have some_char : front.toList ≠ [] := by simpa using some_char
  have notDot : front.toList ≠ ['.'] := fun same => notDot (String.toList_inj.mp same)
  have notUp : front.toList ≠ ['.', '.'] := fun same => notUp (String.toList_inj.mp same)
  refine ⟨by simp [some_char], fun same => ?_, fun same => ?_⟩
  · rcases List.append_eq_cons_iff.mp same with ⟨empty, -⟩ | ⟨rest, front, none⟩
    · exact some_char empty
    · rw [(List.nil_eq_append_iff.mp none).1] at front
      exact notDot front
  · rcases List.append_eq_cons_iff.mp same with ⟨empty, -⟩ | ⟨rest, front, one⟩
    · exact some_char empty
    · rcases List.append_eq_cons_iff.mp one.symm with ⟨rfl, -⟩ | ⟨more, rfl, none⟩
      · exact notDot front
      · rw [(List.nil_eq_append_iff.mp none).1] at front
        exact notUp front

/-- A text that begins with a name leads below, whatever follows. -/
theorem below_join (p : Path) {front : String} (named : IsName front) (notUp : front ≠ "..")
    (rest : String) : p.Below (p.join (.ofText (front ++ rest))) := by
  obtain ⟨part, later, split⟩ := List.exists_cons_of_ne_nil
    (List.splitOn_ne_nil '/' rest.toList)
  obtain ⟨some_char, notDot, notUp⟩ := append_ne_dots named notUp part
  have start := startOf_name named rest.toList
  have names : namesIn (front.toList ++ rest.toList) =
      String.ofList (front.toList ++ part) ::
        (later.map String.ofList).filter fun name => name ≠ "" && name ≠ "." := by
    rw [namesIn, splitOn_append_of_not_mem named.2.2, split, List.modifyHead_cons, List.map_cons,
      List.filter_cons_of_pos]
    simp only [ne_eq, ← String.toList_inj, String.toList_ofList, decide_not, Bool.and_eq_true,
      Bool.not_eq_eq_eq_not, Bool.not_true, decide_eq_false_iff_not]
    exact ⟨some_char, notDot⟩
  have read := ofText_ofList (front.toList ++ rest.toList)
  rw [start, names, ← String.toList_append, String.ofList_toList] at read
  rw [read]
  refine ⟨_, _, fun up => notUp ?_, rfl⟩
  rw [← String.toList_ofList (l := front.toList ++ part), up]
  rfl

end Path

namespace Packing

/-- A tree in which the fresh directory has been made, with nothing but archives below it, and which
differs from the tree before at most there and below. -/
structure Made (before : FileTree) (fresh : Place) (t : FileTree) : Prop where
  agree : before.Agree fresh t
  directory : t.node? fresh = some .directory
  archives : ∀ place node, fresh <+: place → place ≠ fresh → t.node? place = some node →
    ∃ stored modified, node = .file (.archive stored) modified

/-- A path and its last name that are not too long for the file system. -/
def Short (p : Path) : Prop :=
  p.text.utf8ByteSize < FileTree.pathLimit ∧ p.name.utf8ByteSize ≤ FileTree.nameLimit

theorem name_child (p : Path) (name : String) : (p.child name).name = name := by
  simp [Path.name, Path.child]

/-- Where a path below the temporary directory leads while nothing but files stand there: a single
name leads to its place, and several names lead nowhere. -/
def slot (fresh : Place) (temporary target : Path) : Except FileFault Place :=
  if FileTree.pathLimit ≤ target.text.utf8ByteSize then .error .nameTooLong
  else
    match target.names.drop temporary.names.length with
    | [] => .error .noEntry
    | name :: rest =>
      if FileTree.nameLimit < name.utf8ByteSize then .error .nameTooLong
      else if rest.isEmpty then .ok (fresh ++ [name])
      else .error .noEntry

/-- Nothing stands on the way from the fresh directory to a path below it. -/
def Vacant (t : FileTree) (fresh : Place) (temporary target : Path) : Prop :=
  ∀ name rest, target.names.drop temporary.names.length = name :: rest → rest ≠ [] →
    t.node? (fresh ++ [name]) = none

/-- A path that goes on by several names from the temporary directory. -/
def Deep (temporary target : Path) : Prop :=
  temporary.names.length + 1 < target.names.length

/-- A path below the temporary directory, which is made at a place where nothing stands. -/
structure IsTarget (w : Workspace) (temporary : Path) (fresh : Place) (target : Path) : Prop where
  found : Packer.FreshAt w temporary fresh
  normal : target.Normal
  below : temporary.Below target

section Target

variable {w : Workspace} {temporary target : Path} {fresh place : Place} {t : FileTree}
  {name : String}

theorem IsTarget.exists_names (inside : IsTarget w temporary fresh target) :
    ∃ first rest, first ≠ ".." ∧ target.names.drop temporary.names.length = first :: rest := by
  obtain ⟨-, -, first, rest, notUp, rfl⟩ := inside
  exact ⟨first, rest, notUp, List.drop_left⟩

theorem vacant_child : Vacant t fresh temporary (temporary.child name) := by
  intro first rest names some_name
  simp only [Path.child, List.drop_left, List.cons.injEq] at names
  exact absurd names.2.symm some_name

theorem slot_child : slot fresh temporary (temporary.child name) =
    if FileTree.pathLimit ≤ (temporary.child name).text.utf8ByteSize then .error .nameTooLong
    else if FileTree.nameLimit < name.utf8ByteSize then .error .nameTooLong
    else .ok (fresh ++ [name]) := by
  simp only [slot, Path.child, List.drop_left]
  rfl

theorem slot_child_eq_ok_iff : slot fresh temporary (temporary.child name) = .ok place ↔
    Short (temporary.child name) ∧ place = fresh ++ [name] := by
  rw [slot_child, Short, name_child]
  by_cases longPath : FileTree.pathLimit ≤ (temporary.child name).text.utf8ByteSize
  · simp [longPath, Nat.not_lt.mpr longPath]
  by_cases longName : FileTree.nameLimit < name.utf8ByteSize
  · simp [longPath, longName, Nat.not_le.mpr longName]
  · simp [longPath, longName, Nat.not_le.mp longPath, Nat.not_lt.mp longName, eq_comm]

/-- Only a single name leads to a place. -/
theorem exists_child_of_slot (below : temporary.Below target)
    (aims : slot fresh temporary target = .ok place) :
    ∃ name, name ≠ ".." ∧ target = temporary.child name ∧ place = fresh ++ [name] := by
  obtain ⟨first, rest, notUp, rfl⟩ := below
  unfold slot at aims
  split at aims
  · cases aims
  simp only [List.drop_left] at aims
  split at aims
  · cases aims
  split at aims
  next last =>
    cases aims
    rw [List.isEmpty_iff.mp last]
    exact ⟨first, notUp, rfl, rfl⟩
  · cases aims

theorem exists_child_of_not_deep (below : temporary.Below target)
    (flat : ¬ Deep temporary target) : ∃ name, name ≠ ".." ∧ target = temporary.child name := by
  obtain ⟨first, rest, notUp, rfl⟩ := below
  have last : rest = [] := by
    apply List.eq_nil_of_length_eq_zero
    simp only [Deep, List.length_append, List.length_cons] at flat
    omega
  exact ⟨first, notUp, by rw [last]; rfl⟩

/-- A file of the fresh directory may become an archive. -/
theorem Made.of_archive {t' : FileTree} (made : Made w.files fresh t) {stored : List Entry}
    {modified : Int} (stands : t'.node? (fresh ++ [name]) = some (.file (.archive stored) modified))
    (others : ∀ place, place ≠ fresh ++ [name] → t'.node? place = t.node? place) :
    Made w.files fresh t' where
  agree place outside := by
    rw [← made.agree place outside]
    apply others place
    rintro rfl
    exact outside (List.prefix_append _ _)
  directory := by
    rw [← made.directory]
    exact others fresh (by simp)
  archives place node below other found := by
    by_cases here : place = fresh ++ [name]
    · rw [here, stands] at found
      cases found
      exact ⟨stored, modified, rfl⟩
    · exact made.archives place node below other ((others place here).symm.trans found)

theorem Made.put (made : Made w.files fresh t) (name : String) (stored : List Entry)
    (modified : Int) :
    Made w.files fresh (t.put (fresh ++ [name]) (.file (.archive stored) modified)) :=
  made.of_archive (FileTree.node?_put_self _ _ (by simp)) fun _ other =>
    FileTree.node?_put_of_ne _ _ other

/-- A file of the fresh directory may be taken away. -/
theorem Made.erase (made : Made w.files fresh t) (name : String) :
    Made w.files fresh (t.erase (fresh ++ [name])) where
  agree place outside := by
    rw [← made.agree place outside]
    apply FileTree.node?_erase_of_ne
    rintro rfl
    exact outside (List.prefix_append _ _)
  directory := by
    rw [← made.directory]
    exact FileTree.node?_erase_of_ne _ (by simp)
  archives place node below other found := by
    by_cases here : place = fresh ++ [name]
    · rw [here, FileTree.node?_erase_self _ (by simp)] at found
      cases found
    · rw [FileTree.node?_erase_of_ne _ here] at found
      exact made.archives place node below other found

theorem Made.no_link (made : Made w.files fresh t) (name link : String) :
    t.node? (fresh ++ [name]) ≠ some (.link link) := by
  intro stands
  obtain ⟨stored, modified, file⟩ :=
    made.archives _ _ (List.prefix_append fresh [name]) (by simp) stands
  cases file

/-- The path of an archive is followed to the fresh directory and on from there. -/
theorem Made.exists_locate_eq (made : Made w.files fresh t)
    (inside : IsTarget w temporary fresh target) (aim : FileTree.Aim) {workingDirectory : Path}
    (same : temporary.origin workingDirectory = temporary.origin w.workingDirectory) :
    ∃ links, t.locate aim workingDirectory target.text =
      if FileTree.pathLimit ≤ target.text.utf8ByteSize then .error .nameTooLong
      else t.follow aim links fresh (target.names.drop temporary.names.length) := by
  obtain ⟨found, normal, first, rest, -, rfl⟩ := inside
  have named : first ≠ "" := (normal first (List.mem_append_right _ List.mem_cons_self)).1
  have start : (⟨temporary.start, temporary.names ++ first :: rest⟩ : Path).origin
      workingDirectory = temporary.origin w.workingDirectory := same
  obtain ⟨links, gone⟩ := FileTree.follow_into made.agree found.absent made.directory aim
    found.apart found.followed (first :: rest) (by simp [named])
  refine ⟨links, ?_⟩
  rw [FileTree.locate_names t normal (by simp), start, gone, List.drop_left]

/-- Several names go on from the fresh directory only through what the first of them leads to. -/
theorem Made.follow_several (made : Made w.files fresh t)
    (inside : IsTarget w temporary fresh target) {first : String} {rest : List String}
    (names : target.names.drop temporary.names.length = first :: rest) (several : rest ≠ [])
    (aim : FileTree.Aim) (links : Nat) :
    t.follow aim links fresh (first :: rest) =
      if FileTree.nameLimit < first.utf8ByteSize then .error .nameTooLong
      else if t.node? (fresh ++ [first]) = none then .error .noEntry
      else .error .notDirectory := by
  obtain ⟨found, normal, first, rest, notUp, rfl⟩ := inside
  rw [List.drop_left, List.cons.injEq] at names
  obtain ⟨rfl, rfl⟩ := names
  have named : ∀ name ∈ first :: rest, Path.IsName name := fun name member =>
    normal name (List.mem_append_right _ member)
  have named_first := named first List.mem_cons_self
  obtain ⟨second, more, rfl⟩ := List.exists_cons_of_ne_nil several
  have noSlash : ¬ (aim = .newFile && !(second :: more).isEmpty &&
      (second :: more).all String.isEmpty) = true := by
    simp [(named second (by simp)).1]
  have notDot : ¬ (first = "" || first = ".") := by simp [named_first.1, named_first.2.1]
  by_cases long : FileTree.nameLimit < first.utf8ByteSize
  · rw [if_pos long, FileTree.follow_cons_long made.directory notDot notUp noSlash long]
  rw [if_neg long, FileTree.follow_cons_plain made.directory notDot notUp noSlash long]
  cases stands : t.node? (fresh ++ [first]) with
  | none => rfl
  | some node =>
    obtain ⟨stored, modified, rfl⟩ :=
      made.archives _ _ (List.prefix_append fresh [first]) (by simp) stands
    simp [FileTree.follow, stands, Node.isDirectory]

/-- What the path of an archive leads to does not depend on the archives that stand already. -/
theorem Made.locate_eq (made : Made w.files fresh t) (inside : IsTarget w temporary fresh target)
    (vacant : Vacant t fresh temporary target) (aim : FileTree.Aim) {workingDirectory : Path}
    (same : temporary.origin workingDirectory = temporary.origin w.workingDirectory) :
    t.locate aim workingDirectory target.text = slot fresh temporary target := by
  obtain ⟨links, located⟩ := made.exists_locate_eq inside aim same
  rw [located, slot]
  obtain ⟨first, rest, notUp, names⟩ := inside.exists_names
  rw [names]
  dsimp only
  by_cases last : rest = []
  · have named := inside.normal first (List.mem_of_mem_drop (names ▸ List.mem_cons_self))
    rw [last, FileTree.follow_child made.directory named notUp (made.no_link first)]
    rfl
  · rw [made.follow_several inside names last, vacant first rest names last]
    simp [last]

/-- The path of an archive that goes on by several names leads nowhere. -/
theorem Made.exists_locate_error (made : Made w.files fresh t)
    (inside : IsTarget w temporary fresh target) (deep : Deep temporary target)
    (aim : FileTree.Aim) {workingDirectory : Path}
    (same : temporary.origin workingDirectory = temporary.origin w.workingDirectory) :
    ∃ fault, t.locate aim workingDirectory target.text = .error fault := by
  obtain ⟨links, located⟩ := made.exists_locate_eq inside aim same
  obtain ⟨first, rest, -, names⟩ := inside.exists_names
  have several : rest ≠ [] := by
    rintro rfl
    have size := congrArg List.length names
    rw [List.length_drop, List.length_singleton] at size
    unfold Deep at deep
    omega
  rw [located, names, made.follow_several inside names several]
  split
  · exact ⟨_, rfl⟩
  split
  · exact ⟨_, rfl⟩
  split <;> exact ⟨_, rfl⟩

/-- Writing an archive puts it at its place. -/
theorem Made.write_eq (made : Made w.files fresh t) (inside : IsTarget w temporary fresh target)
    (vacant : Vacant t fresh temporary target) {workingDirectory : Path}
    (same : temporary.origin workingDirectory = temporary.origin w.workingDirectory)
    (content : Content) (modified : Int) :
    t.write workingDirectory target content modified =
      match slot fresh temporary target with
      | .ok place => .ok (t.put place (.file content modified))
      | .error fault => .error (.file fault target.text) := by
  rw [FileTree.write, FileTree.writable,
    made.locate_eq inside vacant .newFile same]
  cases aims : slot fresh temporary target with
  | error fault => rfl
  | ok place =>
    obtain ⟨name, -, -, rfl⟩ := exists_child_of_slot inside.below aims
    simp only [bind, Except.bind]
    cases stands : t.node? (fresh ++ [name]) with
    | none => rfl
    | some node =>
      obtain ⟨stored, changed, rfl⟩ :=
        made.archives _ _ (List.prefix_append fresh [name]) (by simp) stands
      rfl

/-- Taking an archive away clears its place. -/
theorem Made.unlink_eq (made : Made w.files fresh t) (inside : IsTarget w temporary fresh target)
    (vacant : Vacant t fresh temporary target) {workingDirectory : Path}
    (same : temporary.origin workingDirectory = temporary.origin w.workingDirectory) :
    t.unlink workingDirectory target.text =
      match slot fresh temporary target with
      | .ok place => if t.node? place = none then .error .noEntry else .ok (t.erase place)
      | .error fault => .error fault := by
  rw [FileTree.unlink, made.locate_eq inside vacant .name same]
  cases aims : slot fresh temporary target with
  | error fault => rfl
  | ok place =>
    obtain ⟨name, -, -, rfl⟩ := exists_child_of_slot inside.below aims
    simp only [bind, Except.bind]
    cases stands : t.node? (fresh ++ [name]) with
    | none => rfl
    | some node =>
      obtain ⟨stored, changed, rfl⟩ :=
        made.archives _ _ (List.prefix_append fresh [name]) (by simp) stands
      rfl

end Target

end Packing

end Classpath
