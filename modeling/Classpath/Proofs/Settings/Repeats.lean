import Classpath.Proofs.Settings.Layers

/-! # Repeats in layered lists

A layer adds to a list what the list did not hold before the layer, and does not look at what it has
added itself. So a list without repeats stays one exactly when no layer brings a member twice
(`Classpath.Settings.unrepeated_foldl_extended_iff`), and two layers do the same as one layer with
the members of both exactly when the second names nothing that the first has brought
(`Classpath.Settings.extended_append_iff`).
-/

namespace Classpath.Settings

variable {s t u : Settings} {os : List Overrides} {setting : Setting} {items more : List Value}

/-! ## Lists -/

/-- No member is the same as one before it. -/
def Unrepeated (items : List Value) : Prop :=
  items.Pairwise fun earlier later => (later == earlier) = false

/-- Texts are without repeats when they are different. -/
theorem unrepeated_texts (texts : List String) : Unrepeated (texts.map .text) ↔ texts.Nodup := by
  rw [Unrepeated, List.pairwise_map, List.Nodup]
  refine Iff.of_eq (congrArg (List.Pairwise · texts) (funext₂ fun x y => propext ?_))
  rw [Bool.eq_false_iff, ne_eq, text_beq_iff, Value.text.injEq, eq_comm]

/-- What each of some parts brings to a list that has been extended by those before it. -/
def brings (items : List Value) : List (List Value) → List (List Value)
  | [] => []
  | part :: rest => brought items part :: brings (extended items part) rest

theorem unrepeated_extended_iff (apart : Unrepeated items) :
    Unrepeated (extended items more) ↔ Unrepeated (brought items more) := by
  unfold Unrepeated extended
  rw [List.pairwise_append]
  refine ⟨fun whole => whole.2.1, fun new => ⟨apart, new, fun old member v fresh => ?_⟩⟩
  have unknown := (mem_brought.mp fresh).2
  rw [Bool.eq_false_iff]
  exact fun same => Bool.eq_false_iff.mp unknown
    (List.contains_iff_exists_mem_beq.mpr ⟨old, member, same⟩)

/-- **A list without repeats stays one** exactly when no part brings a member twice. -/
theorem unrepeated_foldl_extended_iff (apart : Unrepeated items) (parts : List (List Value)) :
    Unrepeated (parts.foldl extended items) ↔ ∀ part ∈ brings items parts, Unrepeated part := by
  induction parts generalizing items with
  | nil => simpa [brings] using apart
  | cons part rest ih =>
    rw [List.foldl_cons, brings, List.forall_mem_cons]
    constructor
    · intro whole
      have first : Unrepeated (extended items part) :=
        whole.sublist (prefix_foldl_extended (extended items part) rest).sublist
      exact ⟨(unrepeated_extended_iff apart).mp first, (ih first).mp whole⟩
    · rintro ⟨first, later⟩
      exact (ih ((unrepeated_extended_iff apart).mpr first)).mpr later

theorem contains_append {before after : List Value} {v : Value} :
    (before ++ after).contains v = (before.contains v || after.contains v) := by
  rw [List.contains_eq_any_beq, List.contains_eq_any_beq, List.contains_eq_any_beq, List.any_append]

/-- Two parts extend a list as both together do exactly when the second names nothing that the first
has brought. -/
theorem extended_append_iff (items first second : List Value) :
    extended (extended items first) second = extended items (first ++ second) ↔
      ∀ v ∈ second, (brought items first).contains v = true → items.contains v = true := by
  have whole : extended items (first ++ second) =
      extended items first ++ brought items second := by
    rw [extended, extended, brought, List.filter_append, List.append_assoc]
    rfl
  rw [whole, extended, List.append_cancel_left_eq]
  constructor
  · intro same v member again
    by_contra unknown
    have new : v ∈ brought items second := mem_brought.mpr ⟨member, by simpa using unknown⟩
    rw [← same] at new
    have absent := (mem_brought.mp new).2
    rw [extended, contains_append, again, Bool.or_true] at absent
    cases absent
  · intro known
    refine List.filter_congr fun v member => ?_
    rw [extended, contains_append]
    cases again : (brought items first).contains v with
    | true => rw [known v member again, Bool.true_or]
    | false => rw [Bool.or_false]

/-! ## Settings -/

/-- A layer asks for lists only. -/
def Overrides.OfLists (o : Overrides) : Prop :=
  ∀ entry ∈ o, ∃ items, entry.2 = .list items

theorem exists_merge_of_lists {o : Overrides} (layer : o.OfSettings) (lists : o.OfLists)
    (s : Settings) : ∃ t, s.merge o = .ok t := by
  refine (exists_merge_iff layer).mpr fun setting items _ given => ?_
  cases found : o.lookup setting.name with
  | none =>
    rw [Overrides.asked, found] at given
    exact absurd rfl given
  | some v =>
    obtain ⟨before, after, split, -⟩ := List.lookup_eq_some_iff.mp found
    obtain ⟨more, rfl⟩ : ∃ more, v = .list more := lists (setting.name, v) (split ▸ by simp)
    rw [Overrides.asked, found]
    exact ⟨more, rfl⟩

theorem exists_layers_of_lists (layers : ∀ o ∈ os, o.OfSettings) (lists : ∀ o ∈ os, o.OfLists)
    (s : Settings) : ∃ t, os.foldlM merge s = .ok t := by
  induction os generalizing s with
  | nil => exact ⟨s, rfl⟩
  | cons o rest ih =>
    obtain ⟨next, first⟩ := exists_merge_of_lists (layers o List.mem_cons_self)
      (lists o List.mem_cons_self) s
    obtain ⟨t, merged⟩ := ih (fun other member => layers other (List.mem_cons_of_mem _ member))
      (fun other member => lists other (List.mem_cons_of_mem _ member)) next
    exact ⟨t, bind_eq_ok.mpr ⟨next, first, merged⟩⟩

/-- **Repeats in layered lists.** Layers of lists are never refused. After any layers a list that
had no repeats has none exactly when no layer brings a member twice; and two layers leave the list
that one layer with the members of both leaves exactly when the second names nothing that the first
has brought. -/
theorem merge_unrepeated_iff (holds : s.get setting = .list items) (apart : Unrepeated items) :
    (∀ os : List Overrides, (∀ o ∈ os, o.OfSettings) → (∀ o ∈ os, o.OfLists) →
      ∃ t, os.foldlM merge s = .ok t) ∧
    (∀ (os : List Overrides) (t : Settings), (∀ o ∈ os, o.OfSettings) →
      os.foldlM merge s = .ok t → ∃ result, t.get setting = .list result ∧
        (Unrepeated result ↔
          ∀ part ∈ brings items (os.map (·.membersOf setting)), Unrepeated part)) ∧
    ∀ (first second both : Overrides) (t u : Settings),
      first.OfSettings → second.OfSettings → both.OfSettings →
      both.membersOf setting = first.membersOf setting ++ second.membersOf setting →
      [first, second].foldlM merge s = .ok t → s.merge both = .ok u →
        (t.get setting = u.get setting ↔ ∀ v ∈ second.membersOf setting,
          (brought items (first.membersOf setting)).contains v = true →
            items.contains v = true) := by
  refine ⟨fun os layers lists => exists_layers_of_lists layers lists s, ?_, ?_⟩
  · intro os t layers merged
    exact ⟨_, get_list_of_layers layers merged holds, unrepeated_foldl_extended_iff apart _⟩
  · intro first second both t u layer layer' whole joined merged once
    have layers : ∀ o ∈ [first, second], o.OfSettings := by simp [layer, layer']
    have twice := get_list_of_layers layers merged holds
    have together := (merge_eq_ok_iff whole).mp once setting
    rw [holds] at together
    rw [twice, together.list_eq, Value.list.injEq]
    change extended (extended items _) _ = extended items (both.membersOf setting) ↔ _
    rw [joined]
    exact extended_append_iff ..

/-- Anchors in three layers of which none names an anchor twice. -/
theorem merge_unrepeated_thrice :
    let layer (names : List String) : Overrides := [("anchors", .list (names.map .text))]
    let os := [layer ["a", "b"], layer ["b", "c"], layer ["a"]]
    Unrepeated [] ∧ ∃ t result, os.foldlM merge standard = .ok t ∧ t.anchors = .list result ∧
      result = ["a", "b", "c"].map .text ∧ Unrepeated result := by
  intro layer os
  have layers : ∀ o ∈ os, o.OfSettings := by
    have each : ∀ names, (layer names).OfSettings := fun names =>
      ⟨List.nodup_singleton _, by simp [layer, Setting.all, Setting.name]⟩
    simp [os, each]
  have merged : os.foldlM merge standard =
      .ok { standard with anchors := .list (["a", "b", "c"].map .text) } := by cbv
  have none : Unrepeated [] := .nil
  have empty : standard.get .anchors = .list [] := rfl
  obtain ⟨result, list, apart⟩ := (merge_unrepeated_iff empty none).2.1 os _ layers merged
  refine ⟨none, _, result, merged, list, (Value.list.inj list).symm, apart.mpr ?_⟩
  have parts : brings [] (os.map (·.membersOf .anchors)) =
      [["a", "b"].map .text, ["c"].map .text, []] := by cbv
  rw [parts]
  simp only [List.forall_mem_cons, unrepeated_texts]
  exact ⟨by decide, by decide, .nil, List.forall_mem_nil _⟩

/-- An anchor that one layer names twice is there twice. -/
theorem merge_repeats :
    let once : Overrides := [("anchors", .list [.text "a"])]
    let twice : Overrides := [("anchors", .list [.text "a", .text "a"])]
    once.OfSettings ∧ twice.OfSettings ∧
      ∃ t u, [once, once].foldlM merge standard = .ok t ∧ t.anchors = .list [.text "a"] ∧
        standard.merge twice = .ok u ∧ u.anchors = .list [.text "a", .text "a"] ∧
          Unrepeated [] ∧ ¬ Unrepeated [.text "a", .text "a"] := by
  intro once twice
  have layered : [once, once].foldlM merge standard =
      .ok { standard with anchors := .list [.text "a"] } := by cbv
  have merged : standard.merge twice =
      .ok { standard with anchors := .list [.text "a", .text "a"] } := by cbv
  refine ⟨⟨by decide, by decide⟩, ⟨by decide, by decide⟩, _, _, layered, rfl, merged, rfl, .nil, ?_⟩
  exact fun apart => absurd ((unrepeated_texts ["a", "a"]).mp apart) (by decide)

end Classpath.Settings
