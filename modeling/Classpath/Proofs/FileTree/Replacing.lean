import Classpath.Proofs.FileTree.WalkOrder

/-! # Trees that differ in one file

When a file is written, nothing changes for a look-up but where it ends
(`Classpath.FileTree.SameBut.follow`). So a walk over a directory that does not contain the file
lists what it listed before, and the file itself where a link leads to it
(`Classpath.FileTree.packs_iff_receives`).
-/

namespace Classpath.FileTree

/-- A place from which no look-up goes on: neither a directory stands there nor a link. -/
structure Ends (t : FileTree) (place : Place) : Prop where
  notDirectory : t.node? place ≠ some .directory
  noLink : ∀ target, t.node? place ≠ some (.link target)

/-- Two trees that differ at most in a place from which no look-up goes on. -/
structure SameBut (t t' : FileTree) (place : Place) : Prop where
  same : ∀ other, other ≠ place → t'.node? other = t.node? other
  ends : t.Ends place
  ends' : t'.Ends place

variable {t t' : FileTree} {place : Place}

namespace SameBut

protected theorem symm (same : t.SameBut t' place) : t'.SameBut t place :=
  ⟨fun other apart => (same.same other apart).symm, same.ends', same.ends⟩

/-- Writing a file changes the place to which it is written. -/
theorem of_put (ends : t.Ends place) (content : Content) (modified : Int) :
    t.SameBut (t.put place (.file content modified)) place where
  same _ apart := node?_put_of_ne _ _ apart
  ends := ends
  ends' := by
    have below : place ≠ [] := by
      rintro rfl
      exact ends.notDirectory rfl
    constructor <;> simp [node?_put_self _ _ below]

variable (same : t.SameBut t' place)

include same

protected theorem directory {other : Place} (stands : t.node? other = some .directory) :
    t'.node? other = some .directory := by
  rw [same.same other, stands]
  rintro rfl
  exact same.ends.notDirectory stands

protected theorem link {other : Place} {target : String}
    (stands : t.node? other = some (.link target)) : t'.node? other = some (.link target) := by
  rw [same.same other, stands]
  rintro rfl
  exact same.ends.noLink target stands

/-- A look-up that leads somewhere in one of the trees leads there in the other, too. -/
protected theorem follow {aim : Aim} {links : Nat} {start found : Place} {names : List String}
    (followed : t.follow aim links start names = .ok found) :
    t'.follow aim links start names = .ok found := by
  refine ((Way.of_follow followed).transfer (fun _ => same.directory)
    (fun _ _ => same.link) ?_).follow
  intro target link
  rwa [← same.same]
  rintro rfl
  exact same.ends'.noLink target link

protected theorem locate {aim : Aim} {workingDirectory : Path} {s : String} {found : Place}
    (located : t.locate aim workingDirectory s = .ok found) :
    t'.locate aim workingDirectory s = .ok found := by
  obtain ⟨some_text, short, followed⟩ := locate_eq_ok_iff.mp located
  exact locate_eq_ok_iff.mpr ⟨some_text, short, same.follow followed⟩

/-- What a text leads to in one of the trees it leads to in the other, unless that is the file in
which they differ. -/
protected theorem status {workingDirectory : Path} {s : String} {found : Place} {node : Node}
    (leads : t.status workingDirectory s = .ok (found, node)) (apart : found ≠ place) :
    t'.status workingDirectory s = .ok (found, node) := by
  obtain ⟨located, stands⟩ := status_eq_ok_iff.mp leads
  exact status_eq_ok_iff.mpr ⟨same.locate located, (same.same found apart).trans stands⟩

end SameBut

/-! ## Where a file is written -/

section Written

variable {workingDirectory : Path} {s : String}

theorem ends_of_writable (sound : t.Sound) (writable : t.writable workingDirectory s = .ok place) :
    t.Ends place :=
  let ⟨_, notDirectory, noLink⟩ := writable_spec sound writable
  ⟨notDirectory, noLink⟩

/-- A look-up that leads somewhere starts in a directory. -/
theorem directory_of_locate {aim : Aim} (located : t.locate aim workingDirectory s = .ok place) :
    t.node? ((Path.ofText s).origin workingDirectory) = some .directory := by
  by_contra other
  have followed := (locate_eq_ok_iff.mp located).2.2
  have nothing := (eq_nil_of_follow followed other).1
  simp [Path.segments, List.splitOn_ne_nil] at nothing

/-- A file is written in a directory. -/
theorem directory_of_writable (sound : t.Sound)
    (writable : t.writable workingDirectory s = .ok place) :
    t.node? place.dropLast = some .directory := by
  have located := (writable_eq_ok_iff.mp writable).1
  cases stands : t.node? place with
  | some node => exact sound.node?_dropLast stands
  | none =>
    apply directory_of_follow sound (locate_eq_ok_iff.mp located).2.2 _ stands
    rw [directory_of_locate located]
    simp

theorem canonical_of_writable (named : t.Named)
    (writable : t.writable workingDirectory s = .ok place) :
    (⟨.root, place⟩ : Path).Canonical := by
  have located := (writable_eq_ok_iff.mp writable).1
  have start : (⟨.root, (Path.ofText s).origin workingDirectory⟩ : Path).Canonical := by
    apply named.canonical
    rw [directory_of_locate located]
    simp
  have names := named_of_follow (locate_eq_ok_iff.mp located).2.2
    (fun name member => slash_not_mem_segments member)
    fun name member => ⟨start.normal name member, fun up => start.plain (up ▸ member)⟩
  exact ⟨rfl, fun name member => (names name member).1,
    fun member => (names ".." member).2 rfl⟩

/-- A tree in which a file has been written is sound again. -/
theorem Sound.written (sound : t.Sound) (writable : t.writable workingDirectory s = .ok place)
    (content : Content) (modified : Int) :
    (t.put place (.file content modified)).Sound := by
  have same := SameBut.of_put (ends_of_writable sound writable) content modified
  intro above name node stands
  apply same.directory
  by_cases here : above ++ [name] = place
  · have directory := directory_of_writable sound writable
    rwa [← here, List.dropLast_concat] at directory
  · rw [same.same _ here] at stands
    exact sound above name node stands

theorem Named.written (named : t.Named)
    (writable : t.writable workingDirectory s = .ok place) (content : Content) (modified : Int) :
    (t.put place (.file content modified)).Named := by
  intro entry member
  rcases List.mem_cons.mp member with rfl | old
  · exact canonical_of_writable named writable
  · exact named entry (List.mem_filter.mp old).1

end Written

/-! ## What a walk lists while a file stands open -/

variable {root : Place} {names : List String} {data : List UInt8}

section Open

variable (same : t.SameBut t' place)

include same

/-- What leads elsewhere has the status that it had. -/
theorem SameBut.statusAt {other : Place} {node : Node} (found : t.statusAt other = .ok node)
    (apart : t.locate .target ⟨.root, []⟩ ("/" ++ String.intercalate "/" other) ≠ .ok place) :
    t'.statusAt other = .ok node := by
  unfold FileTree.statusAt at found
  cases status : t.status ⟨.root, []⟩ ("/" ++ String.intercalate "/" other) with
  | error fault =>
    rw [status] at found
    cases found
  | ok led =>
    rw [status] at found
    cases found
    have elsewhere : led.1 ≠ place := by
      rintro rfl
      exact apart (status_eq_ok_iff.mp status).1
    rw [FileTree.statusAt, same.status status elsewhere]
    rfl

variable (outside : ¬ root <+: place)

include outside

theorem SameBut.below (names : List String) :
    t'.node? (root ++ names) = t.node? (root ++ names) :=
  same.same _ fun here => outside (here ▸ List.prefix_append root names)

end Open

theorem Shows.unique {content other : Content} (shows : t.Shows place content)
    (shows' : t.Shows place other) : content = other := by
  cases shows with
  | file stands =>
    cases shows' with
    | file stands' =>
      cases stands.symm.trans stands'
      rfl
    | link stands' => cases stands.symm.trans stands'
  | link stands found =>
    cases shows' with
    | file stands' => cases stands.symm.trans stands'
    | link _ found' =>
      cases found.symm.trans found'
      rfl

end Classpath.FileTree
