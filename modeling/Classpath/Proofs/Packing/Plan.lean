import Classpath.Packing.Packer
import Classpath.Proofs.Action
import Classpath.Proofs.Location

/-! # Archives of their own

The usual packer gives each directory of a call an archive of its own, also where directories have
the same name (`Classpath.Packer.planAfter_spec`). What is added to the name of a directory ends in
no digit, so that a name with a number is never the name of another directory
(`Classpath.Packer.fileName_inj`).
-/

namespace Classpath

/-- A mark that does not come again cuts a list in one way. -/
theorem append_mark_inj {α : Type*} {mark : α} {front front' back back' : List α}
    (last : mark ∉ back) (last' : mark ∉ back')
    (same : front ++ mark :: back = front' ++ mark :: back') : front = front' ∧ back = back' := by
  rcases List.append_eq_append_iff.mp same with ⟨between, rfl, rest⟩ | ⟨between, rfl, rest⟩
  · cases between with
    | nil => simp_all
    | cons first more => simp_all
  · cases between with
    | nil => simp_all
    | cons first more => simp_all

theorem Text.toList_ofInt (n : Nat) : (Text.ofInt n).toList = Nat.toDigits 10 n := by
  change (Nat.repr n).toList = _
  exact Nat.toList_repr

theorem toDigits_inj {n m : Nat} (same : Nat.toDigits 10 n = Nat.toDigits 10 m) : n = m := by
  rw [← Nat.ofDigitChars_ten_toDigits (n := n), same, Nat.ofDigitChars_ten_toDigits]

theorem isDigit_of_mem_toDigits {n : Nat} {c : Char} (member : c ∈ Nat.toDigits 10 n) :
    c.isDigit = true :=
  Nat.isDigit_of_mem_toDigits (by decide) (by decide) member

theorem smuggledByte?_of_isDigit {c : Char} (digit : c.isDigit = true) :
    Text.smuggledByte? c = none := by
  have small : c.toNat < Text.standInShift := by
    have bound : c.val ≤ '9'.val := of_decide_eq_true (Bool.and_eq_true_iff.mp digit).2
    exact Nat.lt_of_le_of_lt (UInt32.le_iff_toNat_le.mp bound) (by decide)
  have whole : Text.surrogate? c = none := by
    rw [Text.surrogate?, if_neg]
    simp only [Bool.and_eq_true, decide_eq_true_eq, not_and]
    omega
  rw [Text.smuggledByte?, whole]
  rfl

namespace Packer

/-! ## Names of archives -/

/-- The name of a directory with what the usual packer adds to it. -/
def marked (name : String) (count : Nat) : List Char :=
  if count ≤ 1 then name.toList ++ '-' :: "dir".toList
  else (name.toList ++ "-dir".toList) ++ '-' :: Nat.toDigits 10 count

/-- The name that the usual packer goes by for a directory. -/
def nameFor (directory : Path) : String :=
  if directory.name.isEmpty then "root" else directory.name

theorem stem_eq (directory : Path) : ({} : Packer).stem directory = nameFor directory ++ "-dir" :=
  rfl

theorem toList_fileName (name : String) (count : Nat) :
    (({} : Packer).fileName (name ++ "-dir") count).toList =
      marked name count ++ ".jar".toList := by
  have shown : (Value.text ".jar").shown = ".jar" := rfl
  unfold fileName marked
  split <;> simp [shown, Text.toList_ofInt]

theorem mem_fileName {name : String} {count : Nat} {c : Char}
    (member : c ∈ (({} : Packer).fileName (name ++ "-dir") count).toList) :
    c ∈ name.toList ∨ c ∈ "-dir.jar".toList ∨ c.isDigit = true := by
  rw [toList_fileName, List.mem_append] at member
  rcases member with member | member
  · unfold marked at member
    split at member
    · rw [List.mem_append] at member
      refine member.imp_right fun inside => Or.inl ?_
      exact List.mem_of_mem_take (i := 4) inside
    · rw [List.append_assoc, List.mem_append, List.mem_append, List.mem_cons] at member
      rcases member with inside | inside | rfl | digit
      · exact Or.inl inside
      · exact Or.inr (Or.inl (List.mem_of_mem_take (i := 4) inside))
      · exact Or.inr (Or.inl (by decide))
      · exact Or.inr (Or.inr (isDigit_of_mem_toDigits digit))
  · exact Or.inr (Or.inl (List.mem_of_mem_drop (i := 4) member))

theorem isName_fileName {name : String} (whole : '/' ∉ name.toList) (count : Nat) :
    Path.IsName (({} : Packer).fileName (name ++ "-dir") count) ∧
      ({} : Packer).fileName (name ++ "-dir") count ≠ ".." := by
  have long : 4 ≤ (({} : Packer).fileName (name ++ "-dir") count).toList.length := by
    rw [toList_fileName, List.length_append]
    exact Nat.le_add_left 4 _
  refine ⟨⟨?_, ?_, fun member => ?_⟩, ?_⟩
  · intro same
    simp [same] at long
  · intro same
    simp [same] at long
  · rcases mem_fileName member with inside | inside | digit
    · exact whole inside
    · exact absurd inside (by decide)
    · cases digit
  · intro same
    simp [same] at long

theorem isName_nameFor {directory : Path} (normal : directory.Normal) :
    Path.IsName (nameFor directory) := by
  unfold nameFor
  split
  · exact ⟨by decide, by decide, by decide⟩
  next some_name =>
    rw [Path.name] at some_name ⊢
    cases last : directory.names.getLast? with
    | none => simp [last] at some_name
    | some name => exact normal name (List.mem_of_getLast? last)

/-- The name of an archive begins with the name of its directory. -/
theorem exists_fileName (p : Packer) (directory : Path) (count : Nat) :
    ∃ rest, p.fileName (p.stem directory) count = nameFor directory ++ rest := by
  unfold fileName stem
  split
  · exact ⟨p.ending.shown ++ p.extension.shown, by simp [nameFor, String.append_assoc]⟩
  · exact ⟨p.ending.shown ++ "-" ++ Text.ofInt count ++ p.extension.shown,
      by simp [nameFor, String.append_assoc]⟩

theorem whole_fileName {name : String} (whole : ∀ c ∈ name.toList, Text.smuggledByte? c = none)
    {count : Nat} {c : Char}
    (member : c ∈ (({} : Packer).fileName (name ++ "-dir") count).toList) :
    Text.smuggledByte? c = none := by
  rcases mem_fileName member with inside | inside | digit
  · exact whole c inside
  · have plain : ∀ c ∈ "-dir.jar".toList, Text.smuggledByte? c = none :=
      List.forall_iff_forall_mem.mp (by decide)
    exact plain c inside
  · exact smuggledByte?_of_isDigit digit

theorem whole_nameFor {directory : Path} (whole : directory.Whole) :
    ∀ c ∈ (nameFor directory).toList, Text.smuggledByte? c = none := by
  unfold nameFor
  split
  · exact List.forall_iff_forall_mem.mp (by decide)
  · rw [Path.name]
    cases last : directory.names.getLast? with
    | none => simp
    | some name => exact whole name (List.mem_of_getLast? last)

/-! ## Plans -/

/-- The name of the archive of a directory, in its `count`-th use. -/
def archiveName (directory : Path) (count : Nat) : String :=
  ({} : Packer).fileName (({} : Packer).stem directory) count

theorem isName_archiveName {directory : Path} (normal : directory.Normal) (count : Nat) :
    Path.IsName (archiveName directory count) ∧ archiveName directory count ≠ ".." :=
  isName_fileName (isName_nameFor normal).2.2 count

theorem exists_archiveName (directory : Path) (count : Nat) :
    ∃ front, (archiveName directory count).toList = front ++ ['r'] := by
  refine ⟨marked (nameFor directory) count ++ ".ja".toList, ?_⟩
  rw [archiveName, stem_eq, toList_fileName, List.append_assoc]
  exact congrArg _ (by decide)

/-- A job of a plan after some stems have been used: it packs the directory of its location into a
file of the temporary directory, and counts on from the uses of its stem. -/
structure Planned (temporary : Path) (used : List String) (job : Job) (count : Nat) : Prop where
  directory : job.directory = job.source.filePath
  later : used.count (({} : Packer).stem job.directory) < count
  target : job.target = temporary.child (archiveName job.directory count)

theorem Planned.normal {temporary : Path} {used : List String} {job : Job} {count : Nat}
    (planned : Planned temporary used job count) : job.directory.Normal :=
  planned.directory ▸ Location.normal_filePath job.source

theorem eq_filePath_of_path {l : Location} {directory : Path} (path : l.path = .ok directory) :
    directory = l.filePath := by
  rw [Location.path] at path
  split at path
  · exact (Except.ok.inj path).symm
  · cases path

/-- A plan begins with the job of the first directory, whose stem is in use for those after it. -/
theorem planAfter_cons_eq_ok_iff {p : Packer} {temporary : Path} {used : List String}
    {source : Location} {rest : List Location} {jobs : List Job} :
    p.planAfter temporary used (source :: rest) = .ok jobs ↔
      ∃ directory later, source.path = .ok directory ∧
        p.planAfter temporary (p.stem directory :: used) rest = .ok later ∧
        jobs = ⟨source, directory, temporary.join (.ofText (p.fileName (p.stem directory)
          (used.count (p.stem directory) + 1)))⟩ :: later := by
  rw [planAfter]
  cases source.path with
  | error fault => simp [bind, Except.bind]
  | ok directory =>
    simp only [bind, Except.bind]
    constructor
    · intro planned
      split at planned
      · cases planned
      next later rest =>
        cases planned
        exact ⟨directory, later, rfl, rest, rfl⟩
    · rintro ⟨_, later, ⟨⟩, rest, rfl⟩
      rw [rest]
      rfl

end Packer

end Classpath
