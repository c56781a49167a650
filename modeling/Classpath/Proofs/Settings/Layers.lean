import Classpath.Proofs.Action
import Classpath.Settings.Reader
import Mathlib

/-! # Layers of settings

A layer of overrides acts on each setting alone (`Classpath.Settings.merge_eq_ok_iff`): a setting
that is not asked for stays, a setting that holds a list is extended by what the list does not hold
yet, and any other setting is replaced. Whether a setting is extended depends on what it holds and
not on which setting it is, so a suffix that is a list is extended too. Laying the same overrides
over the result changes nothing, and of several layers a list setting gets the members of all and
any other setting the last value that is given (`Classpath.Settings.merge_lays`).
-/

namespace Classpath.Settings

variable {s t : Settings} {o : Overrides} {os : List Overrides} {setting : Setting}
  {items more : List Value} {current override result v : Value}

/-! ## What a layer asks for -/

namespace Overrides

/-- What a layer asks for a setting, or nothing. -/
def asked (o : Overrides) (setting : Setting) : Value :=
  (o.lookup setting.name).getD .null

/-- The members of what a layer asks for a setting. -/
def membersOf (o : Overrides) (setting : Setting) : List Value :=
  (o.asked setting).members?.getD []

/-- A layer names settings only, and none of them twice. -/
structure OfSettings (o : Overrides) : Prop where
  apart : (o.map (·.1)).Nodup
  named : ∀ entry ∈ o, entry.1 ∈ Setting.all.map Setting.name

/-- A look-up finds each member of what a layer asks for. It would not find what is no number. -/
def Findable (o : Overrides) : Prop :=
  ∀ setting, ∀ v ∈ o.membersOf setting, (v == v) = true

theorem OfSettings.tail {entry : String × Value} (layer : OfSettings (entry :: o)) :
    o.OfSettings where
  apart := (List.nodup_cons.mp layer.apart).2
  named other member := layer.named other (List.mem_cons_of_mem _ member)

theorem OfSettings.exists_setting (layer : o.OfSettings) {entry : String × Value}
    (member : entry ∈ o) : ∃ setting : Setting, entry.1 = setting.name := by
  obtain ⟨setting, -, name⟩ := List.mem_map.mp (layer.named entry member)
  exact ⟨setting, name.symm⟩

theorem name_injective : Function.Injective Setting.name := fun first second same => by
  have found := Setting.ofName?_name first
  rw [same, Setting.ofName?_name] at found
  exact (Option.some.inj found).symm

theorem asked_cons (name : Setting) (v : Value) :
    asked ((name.name, v) :: o) setting = if setting = name then v else o.asked setting := by
  unfold asked
  by_cases same : setting = name
  · rw [if_pos same, same, List.lookup_cons_self]
    rfl
  · have other : (setting.name == name.name) = false :=
      beq_eq_false_iff_ne.mpr fun equal => same (name_injective equal)
    rw [if_neg same, List.lookup_cons, other]

theorem asked_eq_null (absent : setting.name ∉ o.map (·.1)) : o.asked setting = .null := by
  have none : o.lookup setting.name = none := by
    refine List.lookup_eq_none_iff.mpr fun entry member => ?_
    exact bne_iff_ne.mpr fun same => absent (List.mem_map.mpr ⟨entry, member, same.symm⟩)
  rw [asked, none]
  rfl

end Overrides

open Overrides

/-- A text is the same as itself alone. -/
theorem text_beq_iff {x : String} : (Value.text x == v) = true ↔ Value.text x = v := by
  cases v <;> simp [BEq.beq, Value.same, Value.sameScalar, Value.asInt?]

theorem findable_of_texts (texts : ∀ setting, ∀ v ∈ o.membersOf setting, v.asText?.isSome = true) :
    o.Findable := by
  intro setting v member
  have text := texts setting v member
  cases v <;> first | exact text_beq_iff.mpr rfl | cases text

/-! ## One setting -/

/-- What some values bring to a list: those that it does not hold, in their order. -/
def brought (items more : List Value) : List Value :=
  more.filter fun v => !items.contains v

/-- A list with what some values bring to it. -/
def extended (items more : List Value) : List Value :=
  items ++ brought items more

/-- What a setting becomes under an override. -/
inductive Layered : Value → Value → Value → Prop
  /-- Nothing is asked for. -/
  | kept (current : Value) : Layered current .null current
  | replaced {current override : Value} (given : override ≠ .null)
      (single : ∀ items, current ≠ .list items) : Layered current override override
  | extended {override : Value} {items more : List Value}
      (walked : override.members? = some more) :
      Layered (.list items) override (.list (extended items more))

theorem layered_iff_of_ne_null (given : override ≠ .null) :
    Layered current override result ↔ overridden current override = .ok result := by
  constructor
  · intro layered
    cases layered with
    | kept => exact absurd rfl given
    | replaced _ single =>
      unfold overridden
      split
      next items => exact absurd rfl (single items)
      next => rfl
    | extended walked =>
      simp only [overridden, walked]
      rfl
  · intro changed
    unfold overridden at changed
    split at changed
    next items =>
      split at changed
      next more walked =>
        cases changed
        exact .extended walked
      next => cases changed
    next single =>
      cases changed
      exact .replaced given single

/-- A setting becomes one value only. -/
theorem Layered.unique {other : Value} (layered : Layered current override result)
    (layered' : Layered current override other) : result = other := by
  by_cases null : override = .null
  · subst null
    cases layered with
    | kept =>
      cases layered' with
      | kept => rfl
      | replaced given => exact absurd rfl given
      | extended walked => cases walked
    | replaced given => exact absurd rfl given
    | extended walked => cases walked
  · have changed := (layered_iff_of_ne_null null).mp layered
    exact Except.ok.inj (changed.symm.trans ((layered_iff_of_ne_null null).mp layered'))

/-- An override is refused only where a list is asked to take what can not be walked over. -/
theorem exists_layered_iff : (∃ result, Layered current override result) ↔
    ∀ items, current = .list items → override ≠ .null → ∃ more, override.members? = some more := by
  constructor
  · rintro ⟨result, layered⟩ items rfl given
    cases layered with
    | kept => exact absurd rfl given
    | replaced _ single => exact absurd rfl (single items)
    | extended walked => exact ⟨_, walked⟩
  · intro walks
    by_cases null : override = .null
    · exact ⟨current, null ▸ .kept current⟩
    · by_cases list : ∃ items, current = .list items
      · obtain ⟨items, rfl⟩ := list
        obtain ⟨more, walked⟩ := walks items rfl null
        exact ⟨_, .extended walked⟩
      · exact ⟨override, .replaced null (not_exists.mp list)⟩

/-- A list is extended by what is asked for. -/
theorem Layered.list_eq (layered : Layered (.list items) override result) :
    result = .list (Settings.extended items (override.members?.getD [])) := by
  cases layered with
  | kept => simp [Value.members?, Settings.extended, brought]
  | replaced _ single => exact absurd rfl (single items)
  | extended walked => rw [walked, Option.getD_some]

/-! ## All settings -/

theorem ext_get (same : ∀ setting, s.get setting = t.get setting) : s = t := by
  cases s
  cases t
  have anchors := same .anchors
  have exclusions := same .exclusions
  have graph := same .graph
  have archiveDirectories := same .archiveDirectories
  have archiveSuffix := same .archiveSuffix
  have archiveExtension := same .archiveExtension
  have temporaryName := same .temporaryName
  have maxWorkers := same .maxWorkers
  simp only [get] at *
  subst_vars
  rfl

/-- The changes of different settings, made one after another, each show in the end. -/
theorem get_foldl_set {changed : List (Setting × Value)} (apart : (changed.map (·.1)).Nodup)
    (s : Settings) (setting : Setting) :
    (changed.foldl (fun settings change => settings.set change.1 change.2) s).get setting =
      (changed.lookup setting).getD (s.get setting) := by
  induction changed generalizing s with
  | nil => rfl
  | cons change rest ih =>
    obtain ⟨here, later⟩ := List.nodup_cons.mp apart
    rw [List.foldl_cons, ih later]
    by_cases same : setting = change.1
    · have none : rest.lookup setting = none := by
        refine List.lookup_eq_none_iff.mpr fun entry member => bne_iff_ne.mpr fun equal => ?_
        exact here (List.mem_map.mpr ⟨entry, member, (same.symm.trans equal).symm⟩)
      subst same
      rw [none, List.lookup_cons_self, get_set_self]
      rfl
    · have other : (setting == change.1) = false := beq_eq_false_iff_ne.mpr same
      rw [List.lookup_cons, other, get_set_of_ne s _ same]

theorem changes_null (name : String) : s.changes ((name, .null) :: o) = s.changes o := by
  rw [changes]

theorem changes_setting (given : v ≠ .null) (setting : Setting) :
    s.changes ((setting.name, v) :: o) = (do
      let changed ← overridden (s.get setting) v
      let others ← s.changes o
      return { others with settings := (setting, changed) :: others.settings }) := by
  rw [changes]
  · rw [Setting.ofName?_name]
  · exact given

/-- The changes that a layer asks for: no name is misused, no setting is changed twice, and each
setting becomes what the layer makes of it. -/
theorem of_changes (layer : o.OfSettings) {changed : Changes} (asks : s.changes o = .ok changed) :
    changed.misused = [] ∧
      (changed.settings.map (·.1.name)).Sublist (o.map (·.1)) ∧
      ∀ setting, Layered (s.get setting) (o.asked setting)
        ((changed.settings.lookup setting).getD (s.get setting)) := by
  induction o generalizing changed with
  | nil =>
    cases asks
    exact ⟨rfl, .slnil, fun setting => .kept _⟩
  | cons entry rest ih =>
    obtain ⟨name, v⟩ := entry
    obtain ⟨named, rfl⟩ := layer.exists_setting List.mem_cons_self
    have absent := asked_eq_null (List.nodup_cons.mp layer.apart).1
    by_cases null : v = .null
    · subst null
      rw [changes_null] at asks
      obtain ⟨used, names, become⟩ := ih layer.tail asks
      refine ⟨used, names.cons _, fun setting => ?_⟩
      rw [asked_cons]
      split
      next same =>
        subst same
        exact absent ▸ become setting
      next => exact become setting
    · rw [changes_setting null] at asks
      obtain ⟨here, overrides, asks⟩ := bind_eq_ok.mp asks
      obtain ⟨others, later, asks⟩ := bind_eq_ok.mp asks
      cases asks
      obtain ⟨used, names, become⟩ := ih layer.tail later
      refine ⟨used, names.cons_cons _, fun setting => ?_⟩
      rw [asked_cons]
      split
      next same =>
        subst same
        rw [List.lookup_cons_self]
        exact (layered_iff_of_ne_null null).mpr overrides
      next other =>
        have apart : (setting == named) = false := beq_eq_false_iff_ne.mpr other
        rw [List.lookup_cons, apart]
        exact become setting

theorem exists_changes (layer : o.OfSettings)
    (become : ∀ setting, ∃ result, Layered (s.get setting) (o.asked setting) result) :
    ∃ changed, s.changes o = .ok changed := by
  induction o with
  | nil => exact ⟨_, rfl⟩
  | cons entry rest ih =>
    obtain ⟨name, v⟩ := entry
    obtain ⟨named, rfl⟩ := layer.exists_setting List.mem_cons_self
    have absent := asked_eq_null (List.nodup_cons.mp layer.apart).1
    obtain ⟨others, later⟩ := ih layer.tail fun setting => by
      by_cases same : setting = named
      · rw [same, absent]
        exact ⟨_, .kept _⟩
      · have here := become setting
        rwa [asked_cons, if_neg same] at here
    by_cases null : v = .null
    · exact ⟨others, by rw [null, changes_null, later]⟩
    · obtain ⟨changed, here⟩ := become named
      rw [asked_cons, if_pos rfl, layered_iff_of_ne_null null] at here
      exact ⟨_, by rw [changes_setting null, here, later]; rfl⟩

theorem merge_of_settings (layer : o.OfSettings) :
    s.merge o = (s.changes o).map fun changed =>
      changed.settings.foldl (fun settings change => settings.set change.1 change.2) s := by
  have named : o.any (fun override => override.1 = ownName) = false := by
    refine List.any_eq_false.mpr fun entry member own => ?_
    obtain ⟨setting, name⟩ := layer.exists_setting member
    have different : setting.name ≠ ownName := by cases setting <;> decide
    exact different (name ▸ of_decide_eq_true own)
  rw [merge, named, if_neg Bool.false_ne_true]
  cases asks : s.changes o with
  | error fault => rfl
  | ok changed =>
    obtain ⟨settings, misused⟩ := changed
    obtain ⟨none, -⟩ := of_changes layer asks
    cases none
    rfl

/-- **A layer acts on each setting alone.** -/
theorem merge_eq_ok_iff (layer : o.OfSettings) :
    s.merge o = .ok t ↔ ∀ setting, Layered (s.get setting) (o.asked setting) (t.get setting) := by
  have merged : ∀ changed, s.changes o = .ok changed → ∀ setting,
      Layered (s.get setting) (o.asked setting) ((changed.settings.foldl
        (fun settings change => settings.set change.1 change.2) s).get setting) := by
    intro changed asks setting
    obtain ⟨-, names, become⟩ := of_changes layer asks
    have apart : (changed.settings.map (·.1)).Nodup := by
      have apart := layer.apart.sublist names
      rw [← Function.comp_def Setting.name, ← List.map_map] at apart
      exact apart.of_map
    rw [get_foldl_set apart]
    exact become setting
  rw [merge_of_settings layer]
  constructor
  · intro outcome
    cases asks : s.changes o with
    | error fault =>
      rw [asks] at outcome
      cases outcome
    | ok changed =>
      rw [asks] at outcome
      cases outcome
      exact merged changed asks
  · intro become
    obtain ⟨changed, asks⟩ := exists_changes layer fun setting => ⟨_, become setting⟩
    rw [asks]
    exact congrArg Except.ok (ext_get fun setting =>
      (merged changed asks setting).unique (become setting))

/-! ## The same layer again -/

theorem mem_brought : v ∈ brought items more ↔ v ∈ more ∧ items.contains v = false := by
  rw [brought, List.mem_filter, Bool.not_eq_true']

theorem mem_of_mem_extended (member : v ∈ extended items more) : v ∈ items ∨ v ∈ more :=
  (List.mem_append.mp member).imp_right fun new => (mem_brought.mp new).1

theorem prefix_extended (items more : List Value) : items <+: extended items more :=
  List.prefix_append ..

/-- What a look-up finds among some members it finds among more of them. -/
theorem contains_of_subset {before after : List Value} (subset : before ⊆ after)
    (found : before.contains v = true) : after.contains v = true := by
  obtain ⟨w, member, same⟩ := List.contains_iff_exists_mem_beq.mp found
  exact List.contains_iff_exists_mem_beq.mpr ⟨w, subset member, same⟩

theorem contains_of_mem (findable : (v == v) = true) (member : v ∈ items) :
    items.contains v = true :=
  List.contains_iff_exists_mem_beq.mpr ⟨v, member, findable⟩

theorem contains_text_iff {x : String} : items.contains (.text x) = true ↔ .text x ∈ items := by
  simp [List.contains_iff_exists_mem_beq, text_beq_iff]

/-- What is to be added is added, or the list holds the same already. -/
theorem mem_extended_or_contains (member : v ∈ more) :
    v ∈ extended items more ∨ items.contains v = true := by
  cases known : items.contains v with
  | true => exact Or.inr rfl
  | false => exact Or.inl (List.mem_append_right _ (mem_brought.mpr ⟨member, known⟩))

theorem contains_extended (findable : (v == v) = true) (member : v ∈ more) :
    (extended items more).contains v = true :=
  (mem_extended_or_contains member).elim (contains_of_mem findable)
    (contains_of_subset (prefix_extended items more).subset)

theorem extended_of_contains (known : ∀ v ∈ more, items.contains v = true) :
    extended items more = items := by
  have none : brought items more = [] :=
    List.filter_eq_nil_iff.mpr fun v member => by rw [known v member, Bool.not_true]; decide
  rw [extended, none, List.append_nil]

/-- An override changes nothing where it has been laid before. -/
theorem Layered.again (layered : Layered current override result)
    (findable : ∀ more, override.members? = some more → ∀ v ∈ more, (v == v) = true) :
    Layered result override result := by
  cases layered with
  | kept => exact .kept _
  | replaced given single =>
    by_cases list : ∃ items, override = .list items
    · obtain ⟨items, rfl⟩ := list
      have same : Settings.extended items items = items := extended_of_contains fun v member =>
        contains_of_mem (findable items rfl v member) member
      have again : Layered (.list items) (.list items) (.list (Settings.extended items items)) :=
        .extended rfl
      rwa [same] at again
    · exact .replaced given (not_exists.mp list)
  | @extended override items more walked =>
    have same : Settings.extended (Settings.extended items more) more =
        Settings.extended items more :=
      extended_of_contains fun v member => contains_extended (findable more walked v member) member
    have again : Layered (.list (Settings.extended items more)) override
        (.list (Settings.extended (Settings.extended items more) more)) := .extended walked
    rwa [same] at again

/-! ## Several layers -/

/-- What is left of a value when another may be given for it. -/
def latest (current override : Value) : Value :=
  match override with
  | .null => current
  | v => v

theorem Layered.eq_latest (layered : Layered current override result)
    (single : ∀ items, current ≠ .list items) : result = latest current override := by
  cases layered with
  | kept => rfl
  | replaced given =>
    unfold latest
    split
    next => exact absurd rfl given
    next => rfl
  | extended => exact absurd rfl (single _)

theorem latest_ne_list (single : ∀ items, current ≠ .list items)
    (other : ∀ items, override ≠ .list items) (items : List Value) :
    latest current override ≠ .list items := by
  unfold latest
  split
  · exact single items
  · exact other items

/-- A list is extended by every layer. -/
theorem get_list_of_layers (layers : ∀ o ∈ os, o.OfSettings) (merged : os.foldlM merge s = .ok t)
    (holds : s.get setting = .list items) :
    t.get setting = .list ((os.map (·.membersOf setting)).foldl extended items) := by
  induction os generalizing s items with
  | nil =>
    cases merged
    exact holds
  | cons o rest ih =>
    obtain ⟨next, first, merged⟩ := bind_eq_ok.mp merged
    have layered := (merge_eq_ok_iff (layers o List.mem_cons_self)).mp first setting
    rw [holds] at layered
    exact ih (fun other member => layers other (List.mem_cons_of_mem _ member)) merged
      layered.list_eq

/-- Where there is no list and none is given, the last value that is given stays. -/
theorem get_latest_of_layers (layers : ∀ o ∈ os, o.OfSettings) (merged : os.foldlM merge s = .ok t)
    (single : ∀ items, s.get setting ≠ .list items)
    (others : ∀ o ∈ os, ∀ items, o.asked setting ≠ .list items) :
    t.get setting = (os.map (·.asked setting)).foldl latest (s.get setting) := by
  induction os generalizing s with
  | nil =>
    cases merged
    rfl
  | cons o rest ih =>
    obtain ⟨next, first, merged⟩ := bind_eq_ok.mp merged
    have layered := (merge_eq_ok_iff (layers o List.mem_cons_self)).mp first setting
    have here := layered.eq_latest single
    rw [List.map_cons, List.foldl_cons, ← here]
    refine ih (fun other member => layers other (List.mem_cons_of_mem _ member)) merged ?_
      fun other member => others other (List.mem_cons_of_mem _ member)
    exact here ▸ latest_ne_list single (others o List.mem_cons_self)

theorem prefix_foldl_extended (items : List Value) (parts : List (List Value)) :
    items <+: parts.foldl extended items := by
  induction parts generalizing items with
  | nil => exact List.prefix_rfl
  | cons part rest ih => exact (prefix_extended items part).trans (ih (extended items part))

theorem mem_of_mem_foldl_extended {parts : List (List Value)}
    (member : v ∈ parts.foldl extended items) : v ∈ items ∨ ∃ part ∈ parts, v ∈ part := by
  induction parts generalizing items with
  | nil => exact Or.inl member
  | cons part rest ih =>
    rcases ih member with before | ⟨other, inside, here⟩
    · rcases mem_of_mem_extended before with old | new
      · exact Or.inl old
      · exact Or.inr ⟨part, List.mem_cons_self, new⟩
    · exact Or.inr ⟨other, List.mem_cons_of_mem _ inside, here⟩

theorem mem_foldl_extended_or_contains {parts : List (List Value)} {part : List Value}
    (inside : part ∈ parts) (member : v ∈ part) :
    v ∈ parts.foldl extended items ∨ (parts.foldl extended items).contains v = true := by
  induction parts generalizing items with
  | nil => cases inside
  | cons first rest ih =>
    rcases List.mem_cons.mp inside with rfl | later
    · have whole := (prefix_foldl_extended (extended items part) rest).subset
      have added : v ∈ extended items part ∨ items.contains v = true :=
        mem_extended_or_contains member
      rcases added with here | known
      · exact Or.inl (whole here)
      · exact Or.inr (contains_of_subset whole
          (contains_of_subset (prefix_extended items part).subset known))
    · exact ih later

/-! ## Laws of layers -/

/-- A list has been extended by some parts: it comes first, and the members of all are all there
is. A member may be left out where the same one is there, and only itself is the same as a text. -/
structure Unites (items : List Value) (parts : List (List Value)) (result : List Value) :
    Prop where
  old : items <+: result
  within : ∀ v ∈ result, v ∈ items ∨ ∃ part ∈ parts, v ∈ part
  covers : ∀ part ∈ parts, ∀ v ∈ part, v ∈ result ∨ result.contains v = true
  texts : ∀ x : String, .text x ∈ result ↔ .text x ∈ items ∨ ∃ part ∈ parts, .text x ∈ part

theorem unites_foldl_extended (items : List Value) (parts : List (List Value)) :
    Unites items parts (parts.foldl extended items) where
  old := prefix_foldl_extended items parts
  within _ := mem_of_mem_foldl_extended
  covers _ inside _ := mem_foldl_extended_or_contains inside
  texts x := by
    refine ⟨mem_of_mem_foldl_extended, ?_⟩
    rintro (old | ⟨part, inside, here⟩)
    · exact (prefix_foldl_extended items parts).subset old
    · exact (mem_foldl_extended_or_contains inside here).elim id contains_text_iff.mp

/-- What a layer makes of settings. -/
structure LaidOver (s : Settings) (o : Overrides) (t : Settings) : Prop where
  kept : ∀ setting, o.asked setting = .null → t.get setting = s.get setting
  replaced : ∀ setting, o.asked setting ≠ .null → (∀ items, s.get setting ≠ .list items) →
    t.get setting = o.asked setting
  /-- What the list did not hold follows it in the order of the layer. -/
  extended : ∀ setting items, s.get setting = .list items → ∃ result,
    t.get setting = .list result ∧ Unites items [o.membersOf setting] result ∧
      result.drop items.length = brought items (o.membersOf setting)
  again : o.Findable → t.merge o = .ok t

/-- What several layers make of settings, one after another. -/
structure LaidInTurn (s : Settings) (os : List Overrides) (t : Settings) : Prop where
  lists : ∀ setting items, s.get setting = .list items → ∃ result,
    t.get setting = .list result ∧ Unites items (os.map (·.membersOf setting)) result
  /-- Where no list is met, the last value that is given stays. -/
  others : ∀ setting, (∀ items, s.get setting ≠ .list items) →
    (∀ o ∈ os, ∀ items, o.asked setting ≠ .list items) →
      t.get setting = (os.map (·.asked setting)).foldl latest (s.get setting)

theorem laidOver_of_merge (layer : o.OfSettings) (merged : s.merge o = .ok t) : LaidOver s o t := by
  have become := (merge_eq_ok_iff layer).mp merged
  refine ⟨fun setting none => ?_, fun setting given single => ?_, fun setting items holds => ?_,
    fun findable => ?_⟩
  · have layered := become setting
    rw [none] at layered
    exact layered.unique (.kept _)
  · exact (become setting).unique (.replaced given single)
  · have layered := become setting
    rw [holds] at layered
    exact ⟨_, layered.list_eq, unites_foldl_extended items [o.membersOf setting], List.drop_left⟩
  · refine (merge_eq_ok_iff layer).mpr fun setting => (become setting).again ?_
    intro more walked v member
    refine findable setting v ?_
    rw [membersOf, walked, Option.getD_some]
    exact member

theorem exists_merge_iff (layer : o.OfSettings) :
    (∃ t, s.merge o = .ok t) ↔ ∀ setting items, s.get setting = .list items →
      o.asked setting ≠ .null → ∃ more, (o.asked setting).members? = some more := by
  constructor
  · rintro ⟨t, merged⟩ setting
    exact exists_layered_iff.mp ⟨_, (merge_eq_ok_iff layer).mp merged setting⟩
  · intro walks
    obtain ⟨changed, asks⟩ := exists_changes layer fun setting =>
      exists_layered_iff.mpr (walks setting)
    rw [merge_of_settings layer, asks]
    exact ⟨_, rfl⟩

/-- **Layers of settings.** A layer is refused only where a setting that holds a list is asked to
take what can not be walked over. A setting that is not asked for stays, one that holds no list is
replaced, and a list is extended; laying the layer over the result changes nothing. Of any layers a
list gets the members of all, and where no list is met the last value that is given stays. -/
theorem merge_lays (s : Settings) :
    (∀ o : Overrides, o.OfSettings →
      ((∃ t, s.merge o = .ok t) ↔ ∀ setting items, s.get setting = .list items →
        o.asked setting ≠ .null → ∃ more, (o.asked setting).members? = some more) ∧
      ∀ t, s.merge o = .ok t → LaidOver s o t) ∧
    ∀ (os : List Overrides) (t : Settings), (∀ o ∈ os, o.OfSettings) →
      os.foldlM merge s = .ok t → LaidInTurn s os t := by
  refine ⟨fun o layer => ⟨exists_merge_iff layer, fun t => laidOver_of_merge layer⟩,
    fun os t layers merged => ⟨fun setting items holds => ?_, fun setting single others => ?_⟩⟩
  · exact ⟨_, get_list_of_layers layers merged holds, unites_foldl_extended ..⟩
  · exact get_latest_of_layers layers merged single others

/-- Two layers over settings with an anchor: the anchors are those of all three, the suffix is the
last one, and the first layer changes nothing when it is laid again. -/
theorem merge_lays_twice :
    let s : Settings := { standard with anchors := .list [.text "a"] }
    let first : Overrides :=
      [("anchors", .list [.text "b", .text "a"]), ("archive_suffix", .text "-x"), ("graph", .null)]
    let second : Overrides := [("archive_suffix", .text "-y"), ("anchors", .list [.text "c"])]
    first.OfSettings ∧ second.OfSettings ∧ ∃ t u, s.merge first = .ok t ∧ LaidOver s first t ∧
      t.merge first = .ok t ∧ [first, second].foldlM merge s = .ok u ∧
        LaidInTurn s [first, second] u ∧
          u.anchors = .list [.text "a", .text "b", .text "c"] ∧ u.archiveSuffix = .text "-y" := by
  intro s first second
  have layer : first.OfSettings := ⟨by decide, by decide⟩
  have layer' : second.OfSettings := ⟨by decide, by decide⟩
  have findable : first.Findable := findable_of_texts fun setting => by cases setting <;> decide
  have merged : s.merge first = .ok
      { s with anchors := .list [.text "a", .text "b"], archiveSuffix := .text "-x" } := by cbv
  have both : [first, second].foldlM merge s = .ok
      { s with
        anchors := .list [.text "a", .text "b", .text "c"]
        archiveSuffix := .text "-y" } := by cbv
  obtain ⟨one, several⟩ := merge_lays s
  have laid := (one first layer).2 _ merged
  have layers : ∀ o ∈ [first, second], o.OfSettings := by simp [layer, layer']
  exact ⟨layer, layer', _, _, merged, laid, laid.again findable, both, several _ _ layers both, rfl,
    rfl⟩

/-- A suffix that has been read as a list of texts and is asked to be a text: it is not replaced by
the text, but extended by its characters. -/
theorem suffix_not_replaced :
    let entries : List (Value × Value) := [(.text "archive_suffix", .list [.text "a"])]
    let o : Overrides := [("archive_suffix", .text "b")]
    ∃ s t, ofValue none (.table entries) = .ok s ∧ o.OfSettings ∧ s.merge o = .ok t ∧
      o.asked .archiveSuffix = .text "b" ∧ t.get .archiveSuffix = .list [.text "a", .text "b"] ∧
        t.get .archiveSuffix ≠ o.asked .archiveSuffix := by
  intro entries o
  have layer : o.OfSettings := ⟨by decide, by decide⟩
  have read : ofValue none (.table entries) =
      .ok { standard with archiveSuffix := .list [.text "a"] } := by cbv
  have merged : ({ standard with archiveSuffix := .list [.text "a"] } : Settings).merge o =
      .ok { standard with archiveSuffix := .list [.text "a", .text "b"] } := by cbv
  refine ⟨_, _, read, layer, merged, rfl, rfl, fun same => ?_⟩
  cases same

end Classpath.Settings
