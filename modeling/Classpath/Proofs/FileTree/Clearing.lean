import Classpath.Proofs.FileTree.Fresh
import Classpath.Proofs.FileTree.Removal

/-! # Directories that are taken away

Taking a directory away leaves nothing at it or below it and changes nothing else
(`Classpath.FileTree.node?_clear`). A look-up that comes to a place where something stands comes
there in a tree that has more, too (`Classpath.FileTree.Within.locate`), and without each of two
directories it comes there without both (`Classpath.FileTree.locate_clear_clear`).
-/

namespace Classpath.FileTree

variable {t t' : FileTree}

/-! ## Trees that have more -/

/-- A tree all of which is in another tree, too. -/
def Within (t t' : FileTree) : Prop :=
  ∀ place node, t.node? place = some node → t'.node? place = some node

/-- A tree grows at a place where nothing stood. -/
theorem Agree.within (sound : t.Sound) {fresh : Place} (agree : t.Agree fresh t')
    (absent : t.node? fresh = none) : t.Within t' := by
  intro place node stands
  rw [agree place, stands]
  intro below
  cases (sound.absent_below absent below).symm.trans stands

/-- What is put into a tree is in a tree that has it already. -/
theorem Within.put (within : t.Within t') {place : Place} {node : Node} (some_name : place ≠ [])
    (stands : t'.node? place = some node) : (t.put place node).Within t' := by
  intro other node' there
  by_cases here : other = place
  · rw [here, node?_put_self t node some_name] at there
    rw [here, stands, there]
  · rw [node?_put_of_ne t node here] at there
    exact within _ _ there

/-- Where both trees have the same, names that lead there in the one lead there in the other. -/
protected theorem Within.follow (within : t.Within t') {aim : Aim} {links : Nat}
    {place found : Place} {names : List String} (same : t'.node? found = t.node? found)
    (followed : t.follow aim links place names = .ok found) :
    t'.follow aim links place names = .ok found := by
  refine ((Way.of_follow followed).transfer (fun _ => within _ _) (fun _ _ => within _ _) ?_).follow
  intro target link
  rwa [← same]

protected theorem Within.locate (within : t.Within t') {aim : Aim} {workingDirectory : Path}
    {s : String} {place : Place} (same : t'.node? place = t.node? place)
    (located : t.locate aim workingDirectory s = .ok place) :
    t'.locate aim workingDirectory s = .ok place := by
  obtain ⟨some_text, short, followed⟩ := locate_eq_ok_iff.mp located
  exact locate_eq_ok_iff.mpr ⟨some_text, short, within.follow same followed⟩

/-! ## Clearing -/

section Clear

variable {gone other : Place}

/-- Nothing is left at a place that has been cleared or below it. -/
theorem node?_clear (some_name : gone ≠ []) :
    (t.clear gone).node? other = if gone <+: other then none else t.node? other := by
  split
  next below =>
    have some_other : other ≠ [] := by
      rintro rfl
      exact some_name (List.prefix_nil.mp below)
    have skipped : ∀ entry ∈ (t.clear gone).nodes, ¬ decide (entry.1 = other) = true := by
      intro entry member
      have outside := (List.mem_filter.mp member).2
      rw [decide_eq_true_eq]
      rintro rfl
      rw [List.isPrefixOf_iff_prefix.mpr below] at outside
      cases outside
    rw [node?, List.isEmpty_eq_false_iff.mpr some_other, List.find?_eq_none.mpr skipped]
    rfl
  next outside =>
    apply node?_clear_of_not_below
    rwa [Bool.eq_false_iff, ne_eq, List.isPrefixOf_iff_prefix]

/-- What stands after a place has been cleared stands outside of it. -/
theorem node?_clear_eq_some_iff (some_name : gone ≠ []) {node : Node} :
    (t.clear gone).node? other = some node ↔ ¬ gone <+: other ∧ t.node? other = some node := by
  rw [node?_clear some_name]
  split <;> simp_all

theorem clear_within (some_name : gone ≠ []) : (t.clear gone).Within t :=
  fun _ _ stands => ((node?_clear_eq_some_iff some_name).mp stands).2

theorem Within.clear (within : t.Within t') (some_name : gone ≠ []) :
    (t.clear gone).Within (t'.clear gone) := by
  intro place node stands
  rw [node?_clear_eq_some_iff some_name] at stands ⊢
  exact ⟨stands.1, within _ _ stands.2⟩

/-- Nothing is left at or below the places that have been cleared, and nothing else has changed. -/
theorem node?_foldl_clear {places : List Place} (some_names : [] ∉ places) :
    (places.foldl clear t).node? other =
      if ∃ gone ∈ places, gone <+: other then none else t.node? other := by
  induction places generalizing t with
  | nil => simp
  | cons gone rest ih =>
    obtain ⟨some_name, others⟩ := not_or.mp (mt List.mem_cons.mpr some_names)
    rw [List.foldl_cons, ih others, node?_clear (Ne.symm some_name)]
    by_cases below : gone <+: other <;> simp [below]

/-- A tree in which a directory has been taken away is sound again. -/
theorem Sound.clear (sound : t.Sound) (some_name : gone ≠ []) : (t.clear gone).Sound := by
  intro place name node stands
  rw [node?_clear_eq_some_iff some_name] at stands ⊢
  exact ⟨fun below => stands.1 (below.trans (List.prefix_append _ _)), sound _ _ _ stands.2⟩

/-- What removing a directory does: it clears the place that the path names, if a directory stands
there, and nothing otherwise. -/
theorem removeTree_cases (t : FileTree) (workingDirectory p : Path) :
    t.removeTree workingDirectory p = t ∨
      ∃ gone, gone ≠ [] ∧ t.removeTree workingDirectory p = t.clear gone := by
  unfold removeTree
  split
  next gone located =>
    split
    next stands =>
      refine .inr ⟨gone, ?_, rfl⟩
      rintro rfl
      simp at stands
    · exact .inl rfl
  · exact .inl rfl

theorem Sound.removeTree (sound : t.Sound) (workingDirectory p : Path) :
    (t.removeTree workingDirectory p).Sound := by
  rcases t.removeTree_cases workingDirectory p with same | ⟨gone, some_name, same⟩ <;> rw [same]
  · exact sound
  · exact sound.clear some_name

theorem removeTree_eq_clear {workingDirectory p : Path} (some_name : gone ≠ [])
    (located : t.locate .name workingDirectory p.text = .ok gone)
    (stands : t.node? gone = some .directory) :
    t.removeTree workingDirectory p = t.clear gone := by
  rw [FileTree.removeTree, located]
  simp [stands, some_name]

end Clear

/-! ## Two trees with a common part -/

section Both

variable {t₁ t₂ : FileTree}

/-- Names that lead to the same in two parts of a tree lead there in what both parts have. -/
theorem follow_of_both (within₁ : t₁.Within t) (within₂ : t₂.Within t)
    (both : ∀ place node, t₁.node? place = some node → t₂.node? place = some node →
      t'.node? place = some node) {aim : Aim} {links : Nat} {place found : Place}
    {names : List String} (stands₁ : t₁.node? found ≠ none) (stands₂ : t₂.node? found ≠ none)
    (followed₁ : t₁.follow aim links place names = .ok found)
    (followed₂ : t₂.follow aim links place names = .ok found) :
    t'.follow aim links place names = .ok found := by
  -- What stands next in the first part stands next in the second part, since the look-up would have
  -- ended there otherwise.
  have next₂ : ∀ {links place name rest node found}, t₂.node? found ≠ none →
      t₂.follow aim links place (name :: rest) = .ok found → Passes aim name rest →
      t₁.node? (place ++ [name]) = some node → t₂.node? (place ++ [name]) = some node := by
    intro links place name rest node found stands₂ followed passes there
    obtain ⟨other, there₂⟩ :=
      Option.ne_none_iff_exists'.mp ((Way.of_follow followed).next_stands passes stands₂)
    rw [there₂]
    exact (within₂ _ _ there₂).symm.trans (within₁ _ _ there)
  rw [follow_eq_ok_iff] at followed₁ ⊢
  induction followed₁ with
  | here => exact .here
  | dot stands dot onward ih =>
    have here := (Way.of_follow followed₂).directory
    rw [follow_cons_dot here dot] at followed₂
    exact .dot (both _ _ stands here) dot (ih stands₁ stands₂ followed₂)
  | up stands onward ih =>
    have here := (Way.of_follow followed₂).directory
    rw [follow_cons_up here] at followed₂
    exact .up (both _ _ stands here) (ih stands₁ stands₂ followed₂)
  | link stands passes link goesOn onward ih =>
    have here := (Way.of_follow followed₂).directory
    have link₂ := next₂ stands₂ followed₂ passes link
    rw [follow_cons_link here passes link₂ goesOn] at followed₂
    exact .link (both _ _ stands here) passes (both _ _ link link₂) goesOn
      (ih stands₁ stands₂ followed₂)
  | down stands passes next onward ih =>
    have here := (Way.of_follow followed₂).directory
    have there := next₂ stands₂ followed₂ passes next
    rw [follow_cons_node here passes there (by simp)] at followed₂
    exact .down (both _ _ stands here) passes (both _ _ next there) (ih stands₁ stands₂ followed₂)
  | last stands passes stops =>
    have here := (Way.of_follow followed₂).directory
    obtain ⟨node, there⟩ := Option.ne_none_iff_exists'.mp stands₁
    refine .last (both _ _ stands here) passes fun target link => stops target ?_
    rw [← link, both _ _ there (next₂ stands₂ followed₂ passes there), there]

/-- What is found without each of two directories is found without both. -/
theorem locate_clear_clear {gone gone' place : Place} (some_name : gone ≠ [])
    (some_name' : gone' ≠ []) {aim : Aim} {workingDirectory : Path} {s : String}
    (stands : (t.clear gone).node? place ≠ none) (stands' : (t.clear gone').node? place ≠ none)
    (located : (t.clear gone).locate aim workingDirectory s = .ok place)
    (located' : (t.clear gone').locate aim workingDirectory s = .ok place) :
    ((t.clear gone).clear gone').locate aim workingDirectory s = .ok place := by
  obtain ⟨some_text, short, followed⟩ := locate_eq_ok_iff.mp located
  have followed' := (locate_eq_ok_iff.mp located').2.2
  refine locate_eq_ok_iff.mpr ⟨some_text, short, follow_of_both (clear_within some_name)
    (clear_within some_name') ?_ stands stands' followed followed'⟩
  intro place node here here'
  rw [node?_clear_eq_some_iff some_name'] at here' ⊢
  exact ⟨here'.1, here⟩

end Both

end Classpath.FileTree
