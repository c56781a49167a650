import Classpath.Proofs.FileTree.Writing

/-! # Taking a file away

A file that stands under a path can be taken away under it, unless a link stands there, which is
taken away instead (`Classpath.FileTree.exists_unlink_put`). Either way nothing is left under the
path (`Classpath.FileTree.free_of_unlink`), because whoever follows the names again comes to a place
where nothing stands any more. A path that leads nowhere and leaves nothing to be taken away is free
already, or it goes astray: its names cannot even be followed
(`Classpath.FileTree.unlink_eq_error_iff`).
-/

namespace Classpath.FileTree

variable {t : FileTree}

/-! ## Following names with another aim -/

/-- Where names lead to a place, they name that place or a link that leads there. -/
theorem exists_follow_name {aim : Aim} {links : Nat} {place found : Place} {names : List String}
    (followed : t.follow aim links place names = .ok found) :
    ∃ named, t.follow .name links place names = .ok named ∧
      (named = found ∨ ∃ target, t.node? named = some (.link target)) := by
  have named : ∀ {name : String} {rest : List String}, Passes aim name rest →
      Passes .name name rest := fun passes => passes.of_ne_newFile (by simp) _
  simp only [follow_eq_ok_iff] at followed ⊢
  induction followed with
  | here => exact ⟨_, .here, Or.inl rfl⟩
  | dot stands dot onward ih =>
    obtain ⟨other, way, kind⟩ := ih
    exact ⟨other, .dot stands dot way, kind⟩
  | up stands onward ih =>
    obtain ⟨other, way, kind⟩ := ih
    exact ⟨other, .up stands way, kind⟩
  | @link links place found name target rest stands passes link goesOn onward ih =>
    cases rest with
    | nil => exact ⟨_, .last stands (named passes) fun _ _ => rfl, Or.inr ⟨target, link⟩⟩
    | cons next rest =>
      obtain ⟨other, way, kind⟩ := ih
      exact ⟨other, .link stands (named passes) link (by simp) way, kind⟩
  | down stands passes next onward ih =>
    obtain ⟨other, way, kind⟩ := ih
    exact ⟨other, .down stands (named passes) next way, kind⟩
  | last stands passes stops =>
    exact ⟨_, .last stands (named passes) fun _ _ => rfl, Or.inl rfl⟩

/-- Where a file has been taken away, the names that named it lead to its place or nowhere. They
cannot lead past it, because only a link can be passed, and the link is gone. -/
theorem follow_erase {gone : Place} (notDirectory : t.node? gone ≠ some .directory) {aim : Aim}
    {links : Nat} {place found : Place} {names : List String}
    (named : t.follow .name links place names = .ok gone)
    (followed : (t.erase gone).follow aim links place names = .ok found) : found = gone := by
  have below : gone ≠ [] := by
    rintro rfl
    exact notDirectory rfl
  have vacant := node?_erase_self t below
  have within : ∀ place node, (t.erase gone).node? place = some node →
      t.node? place = some node := by
    intro place node stands
    rwa [node?_erase_of_ne] at stands
    rintro rfl
    cases vacant.symm.trans stands
  obtain ⟨other, names', kind⟩ := exists_follow_name followed
  by_cases here : other = gone
  · subst here
    rcases kind with rfl | ⟨target, link⟩
    · rfl
    · cases vacant.symm.trans link
  · -- What the names name now they named before, so that has been taken away.
    have before := (Way.of_follow names').transfer (fun _ => within _ _) (fun _ _ => within _ _)
      fun target link => (node?_erase_of_ne t here).trans link
    exact absurd (Except.ok.inj (before.follow.symm.trans named)) here

/-- Taking away what is no directory changes no directory. -/
theorem node?_erase_eq_directory_iff {gone : Place} (notDirectory : t.node? gone ≠ some .directory)
    {place : Place} : (t.erase gone).node? place = some .directory ↔
      t.node? place = some .directory := by
  by_cases here : place = gone
  · subst here
    have below : place ≠ [] := by
      rintro rfl
      exact notDirectory rfl
    simp [node?_erase_self t below, notDirectory]
  · rw [node?_erase_of_ne t here]

theorem Sound.erase (sound : t.Sound) {gone : Place}
    (notDirectory : t.node? gone ≠ some .directory) : (t.erase gone).Sound := by
  intro place name node stands
  rw [node?_erase_eq_directory_iff notDirectory]
  by_cases here : place ++ [name] = gone
  · subst here
    rw [node?_erase_self t (by simp)] at stands
    cases stands
  · rw [node?_erase_of_ne t here] at stands
    exact sound _ _ _ stands

/-! ## Texts -/

section Text

variable {aim : Aim} {workingDirectory : Path} {s : String} {place : Place}

/-- Nothing is left under a text: it leads to nothing, and it names nothing either. -/
def Free (t : FileTree) (workingDirectory : Path) (s : String) : Prop :=
  (∀ found, t.status workingDirectory s ≠ .ok found) ∧
    ∀ place, t.locate .name workingDirectory s = .ok place → t.node? place = none

/-- A link stands under a text. -/
def NamesLink (t : FileTree) (workingDirectory : Path) (s : String) : Prop :=
  ∃ named target, t.locate .name workingDirectory s = .ok named ∧
    t.node? named = some (.link target)

/-- The names of a text cannot even be followed, for another reason than that nothing is there. -/
def Astray (t : FileTree) (workingDirectory : Path) (s : String) (fault : FileFault) : Prop :=
  t.locate .name workingDirectory s = .error fault ∧ fault ≠ .noEntry

/-- What is taken away under a text is what the text names, and no directory. -/
theorem unlink_eq_ok_iff {left : FileTree} : t.unlink workingDirectory s = .ok left ↔
    ∃ gone node, t.locate .name workingDirectory s = .ok gone ∧ t.node? gone = some node ∧
      node ≠ .directory ∧ left = t.erase gone := by
  unfold unlink
  cases t.locate .name workingDirectory s with
  | error fault => simp [bind, Except.bind]
  | ok gone =>
    simp only [bind, Except.bind]
    constructor
    · intro removed
      split at removed
      · cases removed
      · cases removed
      next node other stands =>
        cases removed
        exact ⟨gone, node, rfl, stands, other, rfl⟩
    · rintro ⟨_, node, ⟨⟩, stands, other, rfl⟩
      rw [stands]
      cases node with
      | directory => exact absurd rfl other
      | link target => rfl
      | file content modified => rfl
      | pipe => rfl

/-- When a file has been taken away under a text, nothing is left under it. -/
theorem free_of_unlink {left : FileTree} (removed : t.unlink workingDirectory s = .ok left) :
    left.Free workingDirectory s := by
  obtain ⟨gone, node, named, stands, other, rfl⟩ := unlink_eq_ok_iff.mp removed
  have notDirectory : t.node? gone ≠ some .directory := fun directory =>
    other (Option.some.inj (stands.symm.trans directory))
  have below : gone ≠ [] := by
    rintro rfl
    exact notDirectory rfl
  have leads : ∀ aim place, (t.erase gone).locate aim workingDirectory s = .ok place →
      (t.erase gone).node? place = none := by
    intro aim place located
    have again := follow_erase notDirectory (locate_eq_ok_iff.mp named).2.2
      (locate_eq_ok_iff.mp located).2.2
    rw [again, node?_erase_self t below]
  refine ⟨fun found stood => ?_, leads .name⟩
  obtain ⟨located, stands'⟩ := status_eq_ok_iff.mp stood
  cases (leads .target _ located).symm.trans stands'

theorem Astray.unlink {fault : FileFault} (astray : t.Astray workingDirectory s fault) :
    t.unlink workingDirectory s = .error fault := by
  rw [FileTree.unlink, astray.1]
  rfl

/-- A file that has been written can be taken away, or the link that leads to it. -/
theorem exists_unlink_put (sound : t.Sound) (writable : t.writable workingDirectory s = .ok place)
    (content : Content) (modified : Int) :
    ∃ left, (t.put place (.file content modified)).unlink workingDirectory s = .ok left := by
  have stands := node?_put_self t (.file content modified) (ne_nil_of_writable sound writable)
  obtain ⟨some_text, short, followed⟩ :=
    locate_eq_ok_iff.mp (locate_written sound writable content modified)
  obtain ⟨named, names, kind⟩ := exists_follow_name followed
  have located := locate_eq_ok_iff.mpr ⟨some_text, short, names⟩
  refine ⟨(t.put place (.file content modified)).erase named, unlink_eq_ok_iff.mpr ?_⟩
  rcases kind with rfl | ⟨target, link⟩
  · exact ⟨_, _, located, stands, by simp, rfl⟩
  · exact ⟨_, _, located, link, by simp, rfl⟩

/-- The place of a file is the one that its text names where no link stands under the text. -/
theorem locate_name_of_newFile (located : t.locate .newFile workingDirectory s = .ok place)
    (noLink : ¬ t.NamesLink workingDirectory s) :
    t.locate .name workingDirectory s = .ok place := by
  obtain ⟨some_text, short, followed⟩ := locate_eq_ok_iff.mp located
  obtain ⟨named, names, kind⟩ := exists_follow_name followed
  have named_by := locate_eq_ok_iff.mpr ⟨some_text, short, names⟩
  rcases kind with rfl | ⟨target, link⟩
  · exact named_by
  · exact absurd ⟨named, target, named_by, link⟩ noLink

/-- A file that has been written where nothing stood is taken away again without a trace, unless a
link stands under its text. -/
theorem node?_unlink_put (sound : t.Sound)
    (missing : ∀ found, t.status workingDirectory s ≠ .ok found)
    (noLink : ¬ t.NamesLink workingDirectory s)
    (writable : t.writable workingDirectory s = .ok place) {content : Content} {modified : Int}
    {left : FileTree}
    (removed : (t.put place (.file content modified)).unlink workingDirectory s = .ok left)
    (other : Place) : left.node? other = t.node? other := by
  obtain ⟨located, notDirectory, notLink⟩ := writable_spec sound writable
  have below := ne_nil_of_writable sound writable
  have named := locate_name_of_newFile located noLink
  have absent : t.node? place = none := by
    cases stands : t.node? place with
    | none => rfl
    | some node =>
      refine absurd (status_of_locate named stands fun target link => notLink target ?_) (missing _)
      rw [stands, link]
  have file : ∀ target, Node.file content modified ≠ .link target := by simp
  have again := locate_put file named notDirectory notLink
  obtain ⟨gone, node, named', -, -, rfl⟩ := unlink_eq_ok_iff.mp removed
  cases again.symm.trans named'
  by_cases here : other = place
  · rw [here, node?_erase_self _ below, absent]
  · rw [node?_erase_of_ne _ here, node?_put_of_ne t _ here]

end Text

end Classpath.FileTree
