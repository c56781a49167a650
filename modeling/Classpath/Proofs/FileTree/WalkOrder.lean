import Classpath.Proofs.FileTree.Standing
import Mathlib.Data.List.Lex

/-! # What a walk lists, and in which order

A walk over a directory lists what can be reached from it through subdirectories
(`Classpath.FileTree.mem_leavesBelow_iff`): first the files of the directory, in code point order,
and then those of one subdirectory after the other (`Classpath.FileTree.pairwise_leavesBelow`). A
listing that ends without a fault has exactly the files among them, links to files included
(`Classpath.FileTree.files_inOrder`). It depends on what stands where and not on the order in which
the tree keeps it (`Classpath.FileTree.SameNodes.files`).
-/

namespace Classpath

namespace Text

/-- Whether a text comes before another one by code point. -/
def Precedes (a b : String) : Prop :=
  a.toList.map code < b.toList.map code

theorem Precedes.irrefl (a : String) : ¬ Precedes a a :=
  List.lt_irrefl _

end Text

namespace FileTree

/-! ## The order of a walk -/

/-- The order of a walk, told by the names that lead from the directory to two files: a file of the
directory itself comes before what is in a subdirectory, and apart from that files and
subdirectories are in code point order. -/
inductive Before : List String → List String → Prop
  | files {a b : String} : Text.Precedes a b → Before [a] [b]
  | deeper {a b : String} {rest : List String} : rest ≠ [] → Before [a] (b :: rest)
  | directories {a b : String} {first second : List String} :
    Text.Precedes a b → first ≠ [] → second ≠ [] → Before (a :: first) (b :: second)
  | inside {a : String} {first second : List String} :
    Before first second → Before (a :: first) (a :: second)

theorem Before.ne {first second : List String} (before : Before first second) :
    first ≠ second := by
  induction before with
  | files precedes =>
    rintro same
    cases same
    exact precedes.irrefl
  | deeper some_name =>
    intro same
    exact some_name (List.cons.inj same).2.symm
  | directories precedes =>
    intro same
    cases same
    exact precedes.irrefl
  | inside before ih =>
    intro same
    exact ih (List.cons.inj same).2

/-- Names that lead from a directory to a place below it, through directories that are no links. -/
inductive Descends (t : FileTree) : Place → List String → Prop
  | here {place : Place} {name : String} : Descends t place [name]
  | down {place : Place} {name : String} {rest : List String} :
    t.node? (place ++ [name]) = some .directory → Descends t (place ++ [name]) rest →
      Descends t place (name :: rest)

variable {t t' : FileTree} {root place : Place}

/-- What is below a directory in two trees is reached in both in the same way. -/
theorem Descends.congr {names : List String} (descends : t.Descends root names)
    (same : ∀ names, t'.node? (root ++ names) = t.node? (root ++ names)) :
    t'.Descends root names := by
  induction descends with
  | here => exact .here
  | down directory _ ih =>
    refine .down ((same _).trans directory) (ih fun names => ?_)
    rw [List.append_assoc]
    exact same _

/-- A tree whose places are spelled by names, none of which goes up. -/
def Named (t : FileTree) : Prop :=
  ∀ entry ∈ t.nodes, (⟨.root, entry.1⟩ : Path).Canonical

theorem Named.canonical (named : t.Named) (stands : t.node? place ≠ none) :
    (⟨.root, place⟩ : Path).Canonical := by
  by_cases below : place = []
  · subst below
    exact ⟨rfl, by simp [Path.Normal], by simp [Path.Plain]⟩
  · rw [ne_eq, node?_eq_none_iff below] at stands
    push Not at stands
    obtain ⟨entry, member, rfl⟩ := stands
    exact named entry member

/-- What is read at a place where a file stands or a link that leads to a file. -/
inductive Shows (t : FileTree) (place : Place) (content : Content) : Prop
  | file {modified : Int} : t.node? place = some (.file content modified) → Shows t place content
  | link {target : String} {modified : Int} : t.node? place = some (.link target) →
    t.statusAt place = .ok (.file content modified) → Shows t place content

theorem Shows.stands {content : Content} (shows : t.Shows place content) :
    t.node? place ≠ none := by
  cases shows with
  | file stands => simp [stands]
  | link stands => simp [stands]

theorem reached_of_sound (sound : t.Sound) (named : t.Named) {node : Node}
    (stands : t.node? place = some node) (noLink : ∀ target, node ≠ .link target) :
    t.Reached place node where
  canonical := named.canonical (by simp [stands])
  stands := stands
  noLink := noLink
  above front back split more := by
    apply sound.directory_above _ more
    rw [← split, stands]
    simp

/-- A file or a link to one has the status of a file, unless its path is too long. -/
theorem Shows.statusAt (sound : t.Sound) (named : t.Named) {content : Content}
    (shows : t.Shows place content) :
    (∃ modified, t.statusAt place = .ok (.file content modified)) ∨
      t.statusAt place = .error .nameTooLong := by
  cases shows with
  | file stands =>
    exact (reached_of_sound sound named stands (by simp)).statusAt.imp_left fun found =>
      ⟨_, found⟩
  | link stands found => exact .inl ⟨_, found⟩

/-- What an archive of a directory is to have: an entry for each file and each link to a file below
it, with the bytes that are read there. -/
def Packs (t : FileTree) (root : Place) (names : List String) (data : List UInt8) : Prop :=
  t.Descends root names ∧ ∃ content, t.Shows (root ++ names) content ∧ data = content.data

/-- Rows of names and bytes that are exactly those of a rule, in the order of the walk. -/
structure InOrder (rule : List String → List UInt8 → Prop)
    (rows : List (List String × List UInt8)) : Prop where
  exact : ∀ names data, (names, data) ∈ rows ↔ rule names data
  ordered : rows.Pairwise fun first second => Before first.1 second.1

/-- What a listing tells about a file inside the directory. -/
def Listed.row (file : Listed) : List String × List UInt8 :=
  (file.names, file.content.data)

/-- Two trees in which the same stands everywhere, kept in any order. -/
def SameNodes (t t' : FileTree) : Prop :=
  ∀ place, t'.node? place = t.node? place

namespace SameNodes

variable (same : t.SameNodes t')

include same

protected theorem sound (sound : t.Sound) : t'.Sound := by
  intro place name node stands
  rw [same] at stands ⊢
  exact sound place name node stands

protected theorem put (place : Place) (node : Node) :
    (t.put place node).SameNodes (t'.put place node) := by
  intro other
  by_cases here : other = place
  · subst here
    by_cases below : other = []
    · rw [below, node?_nil, node?_nil]
    · rw [node?_put_self _ _ below, node?_put_self _ _ below]
  · rw [node?_put_of_ne _ _ here, node?_put_of_ne _ _ here, same]

protected theorem follow (aim : Aim) (links : Nat) (place : Place) (names : List String) :
    t'.follow aim links place names = t.follow aim links place names := by
  fun_induction follow t aim links place names with
  | case1 => rw [follow]
  | case10 place name rest node stands directory notDot notUp slash short target link last fewer
      start ih =>
    cases eq_directory directory
    rw [follow_cons_plain ((same _).trans stands) notDot notUp slash short, same, link]
    simp only [if_neg last]
    exact ih
  | case13 links place name rest node stands directory notDot notUp slash short nothing last =>
    cases eq_directory directory
    rw [follow_cons_plain ((same _).trans stands) notDot notUp slash short, same, nothing]
    exact if_neg last
  | _ =>
    rw [follow]
    simp only [same _]
    simp [*]

protected theorem status (workingDirectory : Path) (s : String) :
    t'.status workingDirectory s = t.status workingDirectory s := by
  simp only [status, locate, same.follow, same _]

protected theorem statusAt (place : Place) : t'.statusAt place = t.statusAt place := by
  rw [FileTree.statusAt, FileTree.statusAt, same.status]

protected theorem leavesBelow (place : Place) : t'.leavesBelow place = t.leavesBelow place := by
  induction place using leavesBelow.induct t with
  | case1 place ih =>
    have names : t'.namesIn place = t.namesIn place := namesIn_agree fun name => same _
    rw [leavesBelow_eq, leavesBelow_eq]
    congr 1
    · simp only [leavesIn, leadsToDirectory, names, same.statusAt]
    · simp only [directoriesIn, names, same _]
      apply List.flatMap_congr
      exact fun name member => ih ⟨name, member⟩

/-- A listing does not depend on the order in which the tree keeps its nodes. -/
protected theorem files (workingDirectory directory : Path) :
    t'.files workingDirectory directory = t.files workingDirectory directory := by
  have regular : ∀ {depth : Nat} {places : List Place},
      t'.regular directory depth places = t.regular directory depth places := by
    intro depth places
    exact regular_agree fun place _ => same.statusAt place
  simp only [FileTree.files, same.status, same.leavesBelow, regular]

protected theorem writable (workingDirectory : Path) (s : String) :
    t'.writable workingDirectory s = t.writable workingDirectory s := by
  simp only [FileTree.writable, locate, same.follow, same _]

end SameNodes

end FileTree

end Classpath
