import Classpath.Proofs.Snapshot.Document
import Classpath.Snapshot.File
import Mathlib.Data.List.Perm.Basic

/-! # Documents that are seen to a depth

A JSON document is a value whose tables have distinct texts for keys (`Classpath.Value.IsJson`). A
reader may show it to some depth only, and with the entries of its tables in another order
(`Classpath.Value.SeenAs`). The snapshot that is read from it is then the same but for the order of
the classes, and what is refused is refused all the same
(`Classpath.Snapshot.bothRead_ofValue`).
-/

namespace Classpath

namespace Value

/-- The keys of a table are texts, each given once. -/
structure Keyed (entries : List (Value × Value)) : Prop where
  texts : ∀ entry ∈ entries, ∃ s : String, entry.1 = .text s
  apart : (entries.map Prod.fst).Nodup

/-- A value that a JSON text can stand for. -/
inductive IsJson : Value → Prop
  | null : IsJson .null
  | bool (b : Bool) : IsJson (.bool b)
  | int (n : Int) : IsJson (.int n)
  | float (x : Binary64) : IsJson (.float x)
  | text (s : String) : IsJson (.text s)
  | list {items : List Value} (each : ∀ v ∈ items, IsJson v) : IsJson (.list items)
  | table {entries : List (Value × Value)} (keyed : Keyed entries)
      (each : ∀ entry ∈ entries, IsJson entry.2) : IsJson (.table entries)

/-- Two tables have the same keys, in any order, and the values of a key are related. -/
structure Matched (related : Value → Value → Prop) (entries others : List (Value × Value)) :
    Prop where
  keys : (entries.map Prod.fst).Perm (others.map Prod.fst)
  values : ∀ key v w, (key, v) ∈ entries → (key, w) ∈ others → related v w

/-- A value is seen to some depth as another one: below the depth a list or table is empty, and
above it the entries of a table come in any order. -/
def SeenAs : Nat → Value → Value → Prop
  | 0, .list _, seen => seen = .list []
  | 0, .table _, seen => seen = .table []
  | depth + 1, .list items, seen =>
    ∃ others, seen = .list others ∧ List.Forall₂ (SeenAs depth) items others
  | depth + 1, .table entries, seen =>
    ∃ others, seen = .table others ∧ Matched (SeenAs depth) entries others
  | _, v, seen => seen = v

variable {entries others : List (Value × Value)} {depth : Nat} {v w : Value} {name : String}

theorem SeenAs.singleton {key : Value} (seen : v.SeenAs depth w) :
    (table [(key, v)]).SeenAs (depth + 1) (.table [(key, w)]) := by
  refine ⟨_, rfl, ⟨.refl _, fun key v' w' member member' => ?_⟩⟩
  cases List.mem_singleton.mp member
  cases List.mem_singleton.mp member'
  exact seen

/-- What is seen of a value is the value itself, or both are lists or tables. -/
theorem SeenAs.shape (seen : v.SeenAs depth w) :
    w = v ∨ (∃ items others, v = .list items ∧ w = .list others) ∨
      ∃ entries others, v = .table entries ∧ w = .table others := by
  cases v with
  | list items =>
    refine Or.inr (Or.inl ?_)
    cases depth with
    | zero => exact ⟨items, [], rfl, seen⟩
    | succ depth => exact ⟨items, seen.choose, rfl, seen.choose_spec.1⟩
  | table entries =>
    refine Or.inr (Or.inr ?_)
    cases depth with
    | zero => exact ⟨entries, [], rfl, seen⟩
    | succ depth => exact ⟨entries, seen.choose, rfl, seen.choose_spec.1⟩
  | _ => cases depth <;> exact Or.inl seen

/-- What is seen of a value is empty just when the value is. -/
theorem SeenAs.isEmptyLike_eq (seen : v.SeenAs (depth + 1) w) : w.isEmptyLike = v.isEmptyLike := by
  cases v with
  | list items =>
    obtain ⟨others, rfl, each⟩ := seen
    cases each <;> rfl
  | table entries =>
    obtain ⟨others, rfl, matched⟩ := seen
    have long := matched.keys.length_eq
    simp only [List.length_map] at long
    rw [isEmptyLike, isEmptyLike, Bool.eq_iff_iff, List.isEmpty_iff_length_eq_zero,
      List.isEmpty_iff_length_eq_zero, long]
  | _ => rw [show w = _ from seen]

/-! ## Look-ups -/

theorem Keyed.of_matched {related : Value → Value → Prop} (keyed : Keyed entries)
    (matched : Matched related entries others) : Keyed others where
  texts entry member := by
    obtain ⟨old, inside, same⟩ :=
      List.mem_map.mp (matched.keys.mem_iff.mpr (List.mem_map_of_mem member))
    exact same ▸ keyed.texts old inside
  apart := matched.keys.nodup_iff.mp keyed.apart

/-- In a table whose keys are distinct texts a look-up finds the entry of a name. -/
theorem Keyed.field?_eq_some_iff (keyed : Keyed entries) :
    field? entries name = some v ↔ (.text name, v) ∈ entries := by
  have here : ∀ entry ∈ entries, same entry.1 (.text name) = true ↔ entry.1 = .text name := by
    intro entry member
    obtain ⟨s, text⟩ := keyed.texts entry member
    rw [text, Snapshot.same_texts, beq_iff_eq, Value.text.injEq]
  rw [field?, find?, List.findRev?_eq_find?_reverse, Option.map_eq_some_iff]
  constructor
  · rintro ⟨entry, found, rfl⟩
    have member := List.mem_reverse.mp (List.mem_of_find?_eq_some found)
    have key := (here entry member).mp (by simpa using List.find?_some found)
    exact key ▸ member
  · intro member
    cases found : entries.reverse.find? fun entry => same entry.1 (.text name) with
    | none =>
      have none := List.find?_eq_none.mp found _ (List.mem_reverse.mpr member)
      exact absurd ((here _ member).mpr rfl) none
    | some entry =>
      have inside := List.mem_reverse.mp (List.mem_of_find?_eq_some found)
      have key := (here entry inside).mp (by simpa using List.find?_some found)
      have single : entry = (.text name, v) :=
        List.inj_on_of_nodup_map keyed.apart inside member key
      exact ⟨entry, rfl, congrArg Prod.snd single⟩

theorem Keyed.exists_field?_iff (keyed : Keyed entries) :
    (∃ v, field? entries name = some v) ↔ .text name ∈ entries.map Prod.fst := by
  simp only [keyed.field?_eq_some_iff, List.mem_map, Prod.exists, exists_and_right, exists_eq_right]

/-- Two matched tables are matched entry by entry once one of them is put in the order of the
other. -/
theorem Matched.exists_forall₂ {related : Value → Value → Prop}
    (matched : Matched related entries others) :
    ∃ between : List (Value × Value), entries.Perm between ∧
      List.Forall₂ (fun x y => x ∈ entries ∧ x.1 = y.1 ∧ related x.2 y.2) between others := by
  have turned :
      Relation.Comp (· = List.map Prod.fst ·) List.Perm (others.map Prod.fst) entries := by
    rw [List.eq_map_comp_perm]
    exact matched.keys.symm
  obtain ⟨between, same, order⟩ := turned
  have keys : List.Forall₂ (fun x y : Value × Value => x.1 = y.1) between others := by
    have equal := List.forall₂_eq_eq_eq ▸ same.symm
    exact List.forall₂_map_right_iff.mp (List.forall₂_map_left_iff.mp equal)
  refine ⟨between, order.symm, List.forall₂_iff_zip.mpr ⟨keys.length_eq, ?_⟩⟩
  rintro ⟨key, v⟩ ⟨key', w⟩ member
  obtain rfl : key = key' := List.forall₂_zip keys member
  obtain ⟨inside, inside'⟩ := List.of_mem_zip member
  have known := order.mem_iff.mp inside
  exact ⟨known, rfl, matched.values key v w known inside'⟩

/-- A field is missing in both of two matched tables, or it is in both. -/
theorem Matched.field?_cases {related : Value → Value → Prop} (keyed : Keyed entries)
    (matched : Matched related entries others) (name : String) :
    (field? entries name = none ∧ field? others name = none) ∨
      ∃ v w, (.text name, v) ∈ entries ∧ field? entries name = some v ∧
        field? others name = some w ∧ related v w := by
  have keyed' := keyed.of_matched matched
  have known : (∃ v, field? entries name = some v) ↔ ∃ w, field? others name = some w :=
    keyed.exists_field?_iff.trans (matched.keys.mem_iff.trans keyed'.exists_field?_iff.symm)
  cases here : field? entries name with
  | none =>
    simp only [here, reduceCtorEq, exists_false, false_iff, not_exists] at known
    exact Or.inl ⟨rfl, Option.eq_none_iff_forall_ne_some.mpr known⟩
  | some v =>
    obtain ⟨w, there⟩ := known.mp ⟨v, here⟩
    have member := keyed.field?_eq_some_iff.mp here
    have member' := keyed'.field?_eq_some_iff.mp there
    exact Or.inr ⟨v, w, member, rfl, there, matched.values _ v w member member'⟩

end Value

/-! ## Parts -/

namespace Checked

variable {α β : Type}

theorem both_eq_ok {part : Checked α} {other : Checked β} {pair : α × β} :
    both part other = .ok pair ↔ part = .ok pair.1 ∧ other = .ok pair.2 := by
  cases part <;> cases other <;> simp [both, Prod.ext_iff]

theorem all_cons_eq_ok {read : α → Checked β} {x : α} {rest : List α} {ys : List β} :
    all read (x :: rest) = .ok ys ↔
      ∃ y others, read x = .ok y ∧ all read rest = .ok others ∧ ys = y :: others := by
  rw [all]
  cases read x <;> cases all read rest <;> simp [both, Except.map, eq_comm]

/-- Two parts are both read, and what is read of them is related, or neither is. -/
inductive BothRead (related : α → β → Prop) : Checked α → Checked β → Prop
  | read {a : α} {b : β} (holds : related a b) : BothRead related (.ok a) (.ok b)
  | invalid {issues issues' : List Issue} : BothRead related (.error issues) (.error issues')

namespace BothRead

variable {γ δ : Type} {related : α → β → Prop} {part : Checked α} {part' : Checked β}

theorem of_eq {part part' : Checked α} (same : part' = part) : BothRead Eq part part' := by
  subst same
  cases part' with
  | ok a => exact .read rfl
  | error issues => exact .invalid

theorem map {related' : γ → δ → Prop} (both : BothRead related part part') {f : α → γ} {g : β → δ}
    (keeps : ∀ a b, part = .ok a → part' = .ok b → related a b → related' (f a) (g b)) :
    BothRead related' (part.map f) (part'.map g) := by
  cases both with
  | read holds => exact .read (keeps _ _ rfl rfl holds)
  | invalid => exact .invalid

theorem imp {related' : α → β → Prop} (both : BothRead related part part')
    (weaker : ∀ a b, related a b → related' a b) : BothRead related' part part' := by
  cases both with
  | read holds => exact .read (weaker _ _ holds)
  | invalid => exact .invalid

theorem under (both : BothRead related part part') (step : Step) :
    BothRead related (Checked.under step part) (Checked.under step part') := by
  cases both with
  | read holds => exact .read holds
  | invalid => exact .invalid

/-- Two records are both read when their parts are. -/
theorem both {related' : γ → δ → Prop} {other : Checked γ} {other' : Checked δ}
    (first : BothRead related part part') (second : BothRead related' other other') :
    BothRead (fun x y => related x.1 y.1 ∧ related' x.2 y.2) (Checked.both part other)
      (Checked.both part' other') := by
  cases first <;> cases second
  · exact .read ⟨‹_›, ‹_›⟩
  all_goals exact .invalid

theorem trans {order : α → α → Prop} {first second third : Checked α}
    (one : BothRead order first second)
    (two : BothRead order second third) (chain : ∀ a b c, order a b → order b c → order a c) :
    BothRead order first third := by
  cases one with
  | read before => cases two with
    | read after => exact .read (chain _ _ _ before after)
  | invalid => cases two with
    | invalid => exact .invalid

end BothRead

/-- The parts of a list are read in any order. -/
theorem bothRead_all {xs ys : List α} (order : xs.Perm ys) (read : α → Checked β) :
    BothRead List.Perm (all read xs) (all read ys) := by
  induction order with
  | nil => exact .read .nil
  | cons x _ ih =>
    refine ((BothRead.of_eq rfl).both ih).map ?_
    rintro ⟨a, as⟩ ⟨_, bs⟩ - - ⟨rfl, same⟩
    exact same.cons a
  | swap x y rest =>
    simp only [all]
    cases read x <;> cases read y <;> cases all read rest
    case ok.ok.ok b c others => exact .read (.swap b c others)
    all_goals exact .invalid
  | trans _ _ first second => exact first.trans second fun _ _ _ => List.Perm.trans

/-- Lists whose parts are read alike, one by one, are read alike. -/
theorem bothRead_all_of_forall₂ {γ : Type} {read : α → Checked γ} {read' : β → Checked γ}
    {xs : List α} {ys : List β}
    (each : List.Forall₂ (fun x y => BothRead Eq (read x) (read' y)) xs ys) :
    BothRead Eq (all read xs) (all read' ys) := by
  induction each with
  | nil => exact .read rfl
  | cons here _ ih =>
    refine (here.both ih).map ?_
    rintro ⟨c, cs⟩ ⟨_, _⟩ - - ⟨rfl, rfl⟩
    rfl

end Checked

namespace Schema

open Checked

variable {depth : Nat} {v w : Value}

/-- A text is read from what is seen of a value as it is read from the value. -/
theorem text_seenAs (seen : v.SeenAs depth w) : text w = text v := by
  rcases seen.shape with rfl | ⟨_, _, rfl, rfl⟩ | ⟨_, _, rfl, rfl⟩ <;> rfl

theorem integer_seenAs (seen : v.SeenAs depth w) : integer w = integer v := by
  rcases seen.shape with rfl | ⟨_, _, rfl, rfl⟩ | ⟨_, _, rfl, rfl⟩ <;> rfl

/-- A list of texts is read from what is seen of it. -/
theorem texts_seenAs (seen : v.SeenAs (depth + 1) w) : list text w = list text v := by
  rcases seen.shape with rfl | ⟨items, others, rfl, rfl⟩ | ⟨_, _, rfl, rfl⟩
  · rfl
  · obtain ⟨_, same, each⟩ := seen
    cases same
    have read : ∀ n, all (fun x => under (.item ((x.2 : Nat) : Int)) (text x.1))
        (others.zipIdx n) = all (fun x => under (.item ((x.2 : Nat) : Int)) (text x.1))
          (items.zipIdx n) := by
      induction each with
      | nil => exact fun _ => rfl
      | cons here _ ih =>
        intro n
        rw [List.zipIdx_cons, List.zipIdx_cons, all, all, text_seenAs here, ih]
    exact read 0
  · rfl

end Schema

/-! ## Snapshots -/

namespace Snapshot

open Checked Value

variable {depth : Nat} {v w : Value} {entries others : List (Value × Value)}

/-- The fields of a table are read from what is seen of it. -/
theorem bothRead_field {α : Type} {related : α → α → Prop} (keyed : Keyed entries)
    (matched : Matched (SeenAs depth) entries others) (name : String) {missing : α}
    (same : related missing missing) {read : Value → Checked α}
    (reads : ∀ v w, (.text name, v) ∈ entries → v.SeenAs depth w →
      BothRead related (read v) (read w)) :
    BothRead related (Schema.field entries name missing read)
      (Schema.field others name missing read) := by
  unfold Schema.field
  rcases matched.field?_cases keyed name with ⟨none, none'⟩ | ⟨v, w, member, here, there, seen⟩
  · rw [none, none']
    exact .read same
  · rw [here, there]
    exact (reads v w member seen).under _

/-- The location in the record of a class. -/
def readLocation : Value → Checked (Option String)
  | .null => .ok none
  | v => (Schema.text v).map some

/-- The classes in a document. -/
def readClasses : Value → Checked (List (String × ClassRecord))
  | .table classes => (all (fun x => entry x.1 x.2) classes).map (·.foldl put [])
  | _ => refuse .notTable

theorem record_table (entries : List (Value × Value)) :
    record (.table entries) =
      (both (Schema.field entries "location" none readLocation)
        (Schema.field entries "dependencies" [] (Schema.list Schema.text))).map
          fun x => ⟨x.1, x.2⟩ :=
  rfl

theorem ofValue_table (entries : List (Value × Value)) :
    ofValue (.table entries) =
      (both (Schema.field entries "version" currentVersion Schema.integer)
        (Schema.field entries "classes" [] readClasses)).map fun x => ⟨x.1, x.2⟩ :=
  rfl

theorem readLocation_seenAs (seen : v.SeenAs depth w) : readLocation w = readLocation v := by
  rcases seen.shape with rfl | ⟨_, _, rfl, rfl⟩ | ⟨_, _, rfl, rfl⟩ <;> rfl

/-- The record of a class is read from what is seen of it. -/
theorem bothRead_record (json : v.IsJson) (seen : v.SeenAs (depth + 2) w) :
    BothRead Eq (record v) (record w) := by
  rcases seen.shape with rfl | ⟨_, _, rfl, rfl⟩ | ⟨entries, others, rfl, rfl⟩
  · exact BothRead.of_eq rfl
  · exact .invalid
  · obtain ⟨_, same, matched⟩ := seen
    cases same
    cases json with
    | table keyed _ =>
      have location : BothRead Eq (Schema.field entries "location" none readLocation)
          (Schema.field others "location" none readLocation) :=
        bothRead_field keyed matched _ rfl fun v w _ seen =>
          BothRead.of_eq (readLocation_seenAs seen)
      have dependencies :
          BothRead Eq (Schema.field entries "dependencies" [] (Schema.list Schema.text))
            (Schema.field others "dependencies" [] (Schema.list Schema.text)) :=
        bothRead_field keyed matched _ rfl fun v w _ seen =>
          BothRead.of_eq (Schema.texts_seenAs seen)
      rw [record_table, record_table]
      refine (location.both dependencies).map ?_
      rintro ⟨location, dependencies⟩ ⟨_, _⟩ - - ⟨rfl, rfl⟩
      rfl

theorem bothRead_entry (json : v.IsJson) (seen : v.SeenAs (depth + 2) w) (key : Value) :
    BothRead Eq (entry key v) (entry key w) := by
  have name : BothRead Eq (under (.field "[key]") (Schema.text key))
      (under (.field "[key]") (Schema.text key)) := BothRead.of_eq rfl
  exact ((name.both (bothRead_record json seen)).imp fun _ _ same =>
    Prod.ext same.1 same.2).under _

/-- The entries of a table that is seen are read, in whatever order they come. -/
theorem bothRead_entries (json : ∀ entry ∈ entries, entry.2.IsJson)
    (matched : Matched (SeenAs (depth + 2)) entries others) :
    BothRead List.Perm (all (fun x => entry x.1 x.2) entries)
      (all (fun x => entry x.1 x.2) others) := by
  obtain ⟨between, order, pairs⟩ := matched.exists_forall₂
  have paired : List.Forall₂ (fun x y => BothRead Eq (entry x.1 x.2) (entry y.1 y.2))
      between others := by
    refine pairs.imp ?_
    rintro ⟨key, v⟩ ⟨_, w⟩ ⟨member, rfl, seen⟩
    exact bothRead_entry (json _ member) seen key
  exact (bothRead_all order _).trans
    ((bothRead_all_of_forall₂ paired).imp fun _ _ same => same ▸ .refl _)
    fun _ _ _ => List.Perm.trans

/-- An entry whose key is a text is read under this text. -/
theorem fst_of_entry {s : String} {row : String × ClassRecord}
    (read : entry (.text s) v = .ok row) : row.1 = s := by
  obtain ⟨name, -⟩ := both_eq_ok.mp (mapError_eq_ok.mp read)
  exact (Except.ok.inj name).symm

theorem map_fst_of_entries {rows : List (String × ClassRecord)}
    (texts : ∀ entry ∈ entries, ∃ s : String, entry.1 = .text s)
    (read : all (fun x => entry x.1 x.2) entries = .ok rows) :
    rows.map (fun row => Value.text row.1) = entries.map Prod.fst := by
  induction entries generalizing rows with
  | nil =>
    cases read
    rfl
  | cons first rest ih =>
    obtain ⟨row, others, here, later, rfl⟩ := all_cons_eq_ok.mp read
    obtain ⟨s, text⟩ := texts first List.mem_cons_self
    rw [text] at here
    rw [List.map_cons, List.map_cons, fst_of_entry here, text,
      ih (fun entry member => texts entry (List.mem_cons_of_mem _ member)) later]

/-- The classes of a table whose keys are distinct texts are distinct, so none takes the place of
another one. -/
theorem nodup_of_entries {rows : List (String × ClassRecord)} (keyed : Keyed entries)
    (read : all (fun x => entry x.1 x.2) entries = .ok rows) :
    (rows.map (·.1)).Nodup ∧ rows.foldl put [] = rows := by
  have apart := keyed.apart
  rw [← map_fst_of_entries keyed.texts read] at apart
  have apart : (rows.map (·.1)).Nodup := List.Nodup.of_map Value.text (by rwa [List.map_map])
  exact ⟨apart, foldl_put [] apart⟩

/-- Two lists of classes differ in the order at most, and no class is in them twice. -/
structure SameRows (rows rows' : List (String × ClassRecord)) : Prop where
  order : rows.Perm rows'
  apart : (rows.map (·.1)).Nodup

theorem bothRead_readClasses (json : v.IsJson) (seen : v.SeenAs (depth + 3) w) :
    BothRead SameRows (readClasses v) (readClasses w) := by
  cases json with
  | table keyed each =>
    obtain ⟨others, rfl, matched⟩ := seen
    refine (bothRead_entries each matched).map fun rows rows' read read' same => ?_
    obtain ⟨apart, kept⟩ := nodup_of_entries keyed read
    obtain ⟨-, kept'⟩ := nodup_of_entries (keyed.of_matched matched) read'
    exact ⟨by rwa [kept, kept'], kept.symm ▸ apart⟩
  | list =>
    obtain ⟨others, rfl, -⟩ := seen
    exact .invalid
  | _ =>
    cases seen
    exact .invalid

/-- Two snapshots differ in the order of their classes at most, and no class is in them twice. -/
structure SameAs (s s' : Snapshot) : Prop where
  version : s.version = s'.version
  rows : SameRows s.classes s'.classes

/-- **A snapshot is read from what is seen of its document.** Either both are refused, or the
snapshots differ in the order of the classes at most. -/
theorem bothRead_ofValue (json : v.IsJson) (seen : v.SeenAs (depth + 4) w) :
    BothRead SameAs (ofValue v) (ofValue w) := by
  cases json with
  | table keyed each =>
    obtain ⟨others, rfl, matched⟩ := seen
    have version : BothRead Eq (Schema.field _ "version" currentVersion Schema.integer)
        (Schema.field others "version" currentVersion Schema.integer) :=
      bothRead_field keyed matched _ rfl fun v w _ seen =>
        BothRead.of_eq (Schema.integer_seenAs seen)
    have classes : BothRead SameRows (Schema.field _ "classes" [] readClasses)
        (Schema.field others "classes" [] readClasses) :=
      bothRead_field keyed matched _ ⟨.nil, .nil⟩ fun v w member seen =>
        bothRead_readClasses (each _ member) seen
    rw [ofValue_table, ofValue_table]
    exact (version.both classes).map fun _ _ _ _ same => ⟨same.1, same.2⟩
  | list =>
    obtain ⟨others, rfl, -⟩ := seen
    exact .invalid
  | _ =>
    cases seen
    exact .invalid

end Snapshot

end Classpath
