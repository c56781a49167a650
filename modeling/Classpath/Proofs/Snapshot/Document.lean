import Classpath.Proofs.Action
import Classpath.Proofs.Distinct
import Classpath.Proofs.Graph.Sources
import Classpath.Proofs.Text.Order
import Classpath.Snapshot.Basic

/-! # Snapshots of answers

A source that keeps what it answers, two maps or a graph, has a snapshot that is told from its
answers alone (`Classpath.Source.Stored.ofSource_eq`), and the document of a snapshot is read as
that snapshot (`Classpath.Snapshot.ofValue_toDocument`).
-/

namespace Classpath

/-! ## Documents -/

namespace Snapshot

theorem all_eq_ok {α β : Type} {read : α → Checked β} {result : α → β} {xs : List α}
    (each : ∀ x ∈ xs, read x = .ok (result x)) : Checked.all read xs = .ok (xs.map result) := by
  induction xs with
  | nil => rfl
  | cons x rest ih =>
    rw [Checked.all, each x List.mem_cons_self,
      ih fun y member => each y (List.mem_cons_of_mem _ member)]
    rfl

theorem all_map {α β γ : Type} (read : β → Checked γ) (f : α → β) (xs : List α) :
    Checked.all read (xs.map f) = Checked.all (fun x => read (f x)) xs := by
  induction xs with
  | nil => rfl
  | cons x rest ih => rw [List.map_cons, Checked.all, Checked.all, ih]

theorem list_texts (texts : List String) :
    Schema.list Schema.text (.list (texts.map .text)) = .ok texts := by
  have read : ∀ n, Checked.all
      (fun x => Checked.under (.item ((x.2 : Nat) : Int)) (Schema.text x.1))
      ((texts.map Value.text).zipIdx n) = .ok texts := by
    induction texts with
    | nil => exact fun _ => rfl
    | cons s rest ih =>
      intro n
      rw [List.map_cons, List.zipIdx_cons, Checked.all, ih]
      rfl
  exact read 0

theorem same_texts (s t : String) : Value.same (.text s) (.text t) = (s == t) := by
  simp [Value.same, Value.sameScalar]

theorem foldl_put {α : Type} {entries : List (String × α)} (kept : List (String × α))
    (apart : ((kept ++ entries).map (·.1)).Nodup) : entries.foldl put kept = kept ++ entries := by
  induction entries generalizing kept with
  | nil => simp
  | cons entry rest ih =>
    have fresh : kept.any (·.1 == entry.1) = false := by
      rw [List.any_eq_false]
      intro old member same
      rw [List.map_append, List.nodup_append] at apart
      exact apart.2.2 old.1 (List.mem_map_of_mem member) entry.1 (by simp) (by simpa using same)
    have step : put kept entry = kept ++ [entry] := by
      rw [put, fresh]
      rfl
    rw [List.foldl_cons, step, ih _ (by simpa using apart)]
    simp

end Snapshot

/-! ## Snapshots of answers -/

namespace Answers

/-- Answers without repeats that enumerate every class they know. -/
structure Tidy (a : Answers) : Prop where
  apart : a.classes.Nodup
  dependenciesApart : ∀ name, (a.dependencies name).Nodup
  closed : a.Closed

/-- The record of a class, with its dependencies in order. -/
def recordOf (a : Answers) (name : String) : ClassRecord :=
  ⟨(a.location name).map Location.uri, Text.sort (a.dependencies name)⟩

/-- The snapshot of the answers, with the classes in order. -/
def snapshot (a : Answers) : Snapshot :=
  ⟨Snapshot.currentVersion, (Text.sort a.classes).map fun name => (name, a.recordOf name)⟩

/-- The same classes with the same dependencies and locations, in any order. -/
structure Alike (a b : Answers) : Prop where
  classes : ∀ name, name ∈ a.classes ↔ name ∈ b.classes
  dependencies : ∀ source ∈ a.classes, ∀ target,
    target ∈ a.dependencies source ↔ target ∈ b.dependencies source
  location : ∀ name ∈ a.classes, a.location name = b.location name

theorem map_fst_snapshot (a : Answers) : a.snapshot.classes.map (·.1) = Text.sort a.classes := by
  simp [snapshot, Function.comp_def]

theorem Tidy.nodup_snapshot {a : Answers} (tidy : a.Tidy) :
    (a.snapshot.classes.map (·.1)).Nodup := by
  rw [map_fst_snapshot, (Text.perm_sort _).nodup_iff]
  exact tidy.apart

end Answers

/-! ## Sources that keep their answers -/

/-- Two maps or a graph, with what they answer. The classes go by texts, and no class of the maps
lists a dependency twice. -/
inductive Source.Stored : Source → Answers → Prop
  | maps {m : Maps} (textual : m.Textual) (apart : ∀ entry ∈ m.dependencies, entry.2.Nodup) :
    Stored m.toSource m.answers
  | graph {g : Graph} (formed : g.WellFormed) : Stored g.toSource g.answers

theorem Maps.nodup_dependenciesOf {m : Maps} (apart : ∀ entry ∈ m.dependencies, entry.2.Nodup)
    (name : String) : (m.dependenciesOf (.text name)).Nodup := by
  rw [Maps.dependenciesOf_eq]
  cases found : m.dependencies.lookup (.text name) with
  | none => exact List.nodup_nil
  | some targets =>
    obtain ⟨before, after, split, -⟩ := List.lookup_eq_some_iff.mp found
    exact apart (.text name, targets) (by simp [split])

namespace Source.Stored

variable {s : Source} {a : Answers}

theorem gives (stored : s.Stored a) (workingDirectory : Path) : s.Gives workingDirectory a := by
  cases stored with
  | maps textual apart => exact Maps.gives_toSource textual workingDirectory
  | graph formed => exact Graph.gives_toSource formed workingDirectory

theorem tidy (stored : s.Stored a) : a.Tidy := by
  cases stored with
  | @maps m textual apart =>
    refine ⟨Name.nodup_texts (Maps.textual_known textual) ?_, fun name => ?_,
      Maps.closed_answers textual⟩
    · rw [Maps.known, Name.distinct_eq (Maps.textual_mentioned textual)]
      exact nodup_distinct _
    · exact Name.nodup_texts (Maps.textual_dependenciesOf textual name)
        (Maps.nodup_dependenciesOf apart name)
  | @graph g formed =>
    refine ⟨Name.nodup_texts formed.texts formed.numbered.named, fun name => ?_,
      Graph.closed_answers formed⟩
    exact Name.nodup_texts (Graph.textual_dependencies formed name)
      (Graph.nodup_dependencies formed _)

theorem classes_eq (stored : s.Stored a) : s.classes = .ok (.list (a.classes.map .text)) := by
  cases stored with
  | maps textual apart =>
    exact congrArg (fun values => Except.ok (Value.list values))
      (Name.map_toValue (Maps.textual_known textual))
  | graph formed =>
    exact congrArg (fun values => Except.ok (Value.list values)) (Name.map_toValue formed.texts)

theorem location_eq (stored : s.Stored a) (name : String) :
    s.location (.text name) = .ok ((a.location name).map .location) := by
  cases stored <;> rfl

theorem dependencies_eq (stored : s.Stored a) (name : String) :
    s.dependencies (.text name) = .ok (.list ((a.dependencies name).map .text)) := by
  cases stored with
  | maps textual apart =>
    exact congrArg (fun values => Except.ok (Value.list values))
      (Name.map_toValue (Maps.textual_dependenciesOf textual name))
  | graph formed =>
    exact congrArg (fun values => Except.ok (Value.list values))
      (Name.map_toValue (Graph.textual_dependencies formed name))

theorem sorted_texts (texts : List String) :
    Snapshot.sorted (.list (texts.map .text)) = .ok ((Text.sort texts).map .text) := by
  have all : (texts.map Value.text).mapM Value.asText? = some texts := by
    induction texts with
    | nil => rfl
    | cons s rest ih =>
      rw [List.map_cons, List.mapM_cons, ih]
      rfl
  simp only [Snapshot.sorted, Value.members?, Value.sort, all]

theorem recordOf_eq (stored : s.Stored a) (name : String) :
    Snapshot.recordOf s (.text name) = .ok (a.recordOf name) := by
  have place : (a.location name).map (Snapshot.listedLocation ∘ .location) =
      (a.location name).map Location.uri := rfl
  simp only [Snapshot.recordOf, stored.location_eq, stored.dependencies_eq, bind, Except.bind,
    sorted_texts, asked, Action.mapError_ok, Snapshot.list_texts, Checked.under, Option.map_map,
    place]
  rfl

theorem foldl_putRecord (records : List (String × ClassRecord))
    (kept : List (String × ClassRecord)) (apart : ((kept ++ records).map (·.1)).Nodup) :
    (records.map fun entry => (Name.text entry.1, entry.2)).foldl Snapshot.putRecord
      (kept.map fun entry => (.text entry.1, entry.2)) =
        (kept ++ records).map fun entry => (.text entry.1, entry.2) := by
  induction records generalizing kept with
  | nil => simp
  | cons entry rest ih =>
    have fresh : (kept.map fun entry => (Name.text entry.1, entry.2)).any
        (fun old => Name.same (.text entry.1) old.1) = false := by
      rw [List.any_eq_false]
      rintro _ member same
      obtain ⟨old, inside, rfl⟩ := List.mem_map.mp member
      rw [List.map_append, List.nodup_append] at apart
      apply apart.2.2 old.1 (List.mem_map_of_mem inside) entry.1 (by simp)
      exact (Name.text.inj (Name.same_text_iff.mp same)).symm
    have step : Snapshot.putRecord (kept.map fun entry => (.text entry.1, entry.2))
        (.text entry.1, entry.2) =
          (kept ++ [entry]).map fun entry => (.text entry.1, entry.2) := by
      rw [Snapshot.putRecord, fresh, List.map_append]
      rfl
    rw [List.map_cons, List.foldl_cons, step, ih _ (by simpa using apart)]
    simp

theorem named_texts (records : List (String × ClassRecord)) :
    Snapshot.named (records.map fun entry => (.text entry.1, entry.2)) = .ok records := by
  have each : ∀ entry ∈ records, (Checked.under (Snapshot.stepTo (Value.text entry.1))
      (Checked.under (.field "[key]") (Schema.text (.text entry.1)))).map (·, entry.2) =
        .ok (id entry) := fun _ _ => rfl
  rw [Snapshot.named, Snapshot.all_map]
  have read := Snapshot.all_eq_ok each
  rw [List.map_id] at read
  exact congrArg (Checked.under (.field "classes")) read

/-- The snapshot of a source that keeps its answers is told from them. -/
theorem ofSource_eq (stored : s.Stored a) : Snapshot.ofSource s = .ok a.snapshot := by
  have records : ((Text.sort a.classes).map Value.text).mapM (fun name => do
      let record ← Snapshot.recordOf s name
      return (← asked name.asName, record)) =
        .ok (a.snapshot.classes.map fun entry => (Name.text entry.1, entry.2)) := by
    rw [List.mapM_map, Answers.snapshot, List.map_map]
    apply mapM_eq_ok
    intro name _
    simp only [Function.comp_apply, stored.recordOf_eq]
    rfl
  have kept := foldl_putRecord a.snapshot.classes [] stored.tidy.nodup_snapshot
  rw [List.map_nil, List.nil_append] at kept
  simp only [Snapshot.ofSource, stored.classes_eq, bind, Except.bind, sorted_texts, asked,
    Except.mapError] at records ⊢
  rw [records]
  simp only [kept, named_texts]
  rfl

end Source.Stored

end Classpath
