import Classpath.Proofs.Packing.Plan
import Mathlib

/-! # Archives of the same name

A packer counts how often it has used a stem, but it does not look whether a stem with a number is
the stem of another directory. The targets of a plan are apart as long as that does not happen
(`Classpath.Packer.Clash`). Whether it can happen at all is told by the ending that the packer adds
to the names of directories: no plan has a target twice exactly when a number after the ending does
not end in the ending again (`Classpath.Packer.targets_nodup_iff`).
-/

namespace Classpath.Packer

variable {p : Packer}

/-! ## Stems and numbers -/

/-- A stem with a number. -/
def withNumber (stem : String) (count : Nat) : String :=
  stem ++ "-" ++ Text.ofInt count

/-- The stems of some directories. -/
def stems (p : Packer) (directories : List Location) : List String :=
  directories.map fun l => p.stem l.filePath

/-- A stem that is used twice or more often takes a number that makes it another stem. -/
def Clash (stems : List String) : Prop :=
  ∃ stem count, 2 ≤ count ∧ count ≤ stems.count stem ∧ withNumber stem count ∈ stems

/-- An ending that stands again at the end of itself with a number. -/
def Recurs (ending : String) : Prop :=
  ∃ count, 2 ≤ count ∧ ending.toList <:+ (withNumber ending count).toList

/-- The name of an archive without its extension. -/
def label (stem : String) (count : Nat) : String :=
  if count ≤ 1 then stem else withNumber stem count

theorem fileName_eq (p : Packer) (stem : String) (count : Nat) :
    p.fileName stem count = label stem count ++ p.extension.shown := by
  unfold fileName label withNumber
  split <;> rfl

theorem toList_withNumber (stem : String) (count : Nat) :
    (withNumber stem count).toList = stem.toList ++ '-' :: Nat.toDigits 10 count := by
  simp [withNumber, Text.toList_ofInt]

theorem withNumber_append (front stem : String) (count : Nat) :
    withNumber (front ++ stem) count = front ++ withNumber stem count := by
  simp [withNumber, String.append_assoc]

theorem dash_not_mem_toDigits (n : Nat) : '-' ∉ Nat.toDigits 10 n := fun member => by
  cases isDigit_of_mem_toDigits member

/-- No digit is a dash, so a number is told from the stem before it. -/
theorem withNumber_inj {stem stem' : String} {count count' : Nat}
    (same : withNumber stem count = withNumber stem' count') : stem = stem' ∧ count = count' := by
  rw [← String.toList_inj, toList_withNumber, toList_withNumber] at same
  obtain ⟨stems, digits⟩ :=
    append_mark_inj (dash_not_mem_toDigits _) (dash_not_mem_toDigits _) same
  exact ⟨String.toList_inj.mp stems, toDigits_inj digits⟩

/-- Two uses have one label when they are the same or when one has no number and the other has one
that makes its stem the stem of the first. -/
theorem label_eq_cases {stem stem' : String} {count count' : Nat} (positive : 1 ≤ count)
    (positive' : 1 ≤ count') (same : label stem count = label stem' count') :
    (stem = stem' ∧ count = count') ∨ (2 ≤ count' ∧ stem = withNumber stem' count') ∨
      (2 ≤ count ∧ stem' = withNumber stem count) := by
  unfold label at same
  by_cases first : count ≤ 1 <;> by_cases first' : count' ≤ 1
  · rw [if_pos first, if_pos first'] at same
    exact Or.inl ⟨same, by omega⟩
  · rw [if_pos first, if_neg first'] at same
    exact Or.inr (Or.inl ⟨by omega, same⟩)
  · rw [if_neg first, if_pos first'] at same
    exact Or.inr (Or.inr ⟨by omega, same.symm⟩)
  · rw [if_neg first, if_neg first'] at same
    exact Or.inl (withNumber_inj same)

/-! ## Counting -/

/-- Each stem with the number of its use; `used` are the stems before. -/
def counted (used : List String) : List String → List (String × Nat)
  | [] => []
  | stem :: rest => (stem, used.count stem + 1) :: counted (stem :: used) rest

/-- The uses of a stem are counted on from those before, without a gap. -/
theorem mem_counted {used stems : List String} {stem : String} {count : Nat} :
    (stem, count) ∈ counted used stems ↔
      used.count stem < count ∧ count ≤ used.count stem + stems.count stem := by
  induction stems generalizing used with
  | nil =>
    simp only [counted, List.not_mem_nil, List.count_nil, false_iff]
    omega
  | cons first rest ih =>
    rw [counted, List.mem_cons, ih, Prod.mk.injEq]
    by_cases same : stem = first
    · subst same
      simp only [List.count_cons_self, true_and]
      omega
    · rw [List.count_cons_of_ne (Ne.symm same), List.count_cons_of_ne (Ne.symm same)]
      simp [same]

theorem nodup_counted (used stems : List String) : (counted used stems).Nodup := by
  induction stems generalizing used with
  | nil => exact List.nodup_nil
  | cons first rest ih =>
    refine List.nodup_cons.mpr ⟨fun member => ?_, ih _⟩
    have later := (mem_counted.mp member).1
    rw [List.count_cons_self] at later
    omega

/-- Labels are given twice exactly where stems clash. -/
theorem nodup_labels_iff (stems : List String) :
    ((counted [] stems).map fun use => label use.1 use.2).Nodup ↔ ¬Clash stems := by
  rw [List.nodup_map_iff_inj_on (nodup_counted [] stems)]
  constructor
  · rintro apart ⟨stem, count, many, used, again⟩
    have plain : (withNumber stem count, 1) ∈ counted [] stems :=
      mem_counted.mpr ⟨by simp, by simpa using again⟩
    have with_number : (stem, count) ∈ counted [] stems :=
      mem_counted.mpr ⟨by rw [List.count_nil]; omega, by simpa using used⟩
    have same := apart _ plain _ with_number (by simp [label, show ¬count ≤ 1 by omega])
    have counts : 1 = count := congrArg Prod.snd same
    omega
  · rintro free ⟨stem, count⟩ first ⟨stem', count'⟩ second equal
    have same : label stem count = label stem' count' := equal
    obtain ⟨positive, bound⟩ := mem_counted.mp first
    obtain ⟨positive', bound'⟩ := mem_counted.mp second
    rw [List.count_nil] at positive positive'
    rw [List.count_nil, Nat.zero_add] at bound bound'
    rcases label_eq_cases (by omega) (by omega) same with ⟨rfl, rfl⟩ | ⟨many, rfl⟩ | ⟨many, rfl⟩
    · rfl
    · exact absurd ⟨stem', count', many, bound', List.count_pos_iff.mp (by omega)⟩ free
    · exact absurd ⟨stem, count, many, bound, List.count_pos_iff.mp (by omega)⟩ free

/-! ## Plans -/

/-- A plan has a job for each local location, and counts on from the stems before. -/
theorem exists_planAfter (p : Packer) (temporary : Path) (used : List String)
    {directories : List Location} (isLocal : ∀ l ∈ directories, l.isLocal = true) :
    ∃ jobs, p.planAfter temporary used directories = .ok jobs ∧
      jobs.map Job.source = directories ∧
      jobs.map Job.target = (counted used (p.stems directories)).map fun use =>
        temporary.join (.ofText (p.fileName use.1 use.2)) := by
  induction directories generalizing used with
  | nil => exact ⟨[], rfl, rfl, rfl⟩
  | cons source rest ih =>
    obtain ⟨here, others⟩ := List.forall_mem_cons.mp isLocal
    obtain ⟨jobs, planned, sources, targets⟩ := ih (p.stem source.filePath :: used) others
    have path : source.path = .ok source.filePath := if_pos here
    let target := temporary.join
      (.ofText (p.fileName (p.stem source.filePath) (used.count (p.stem source.filePath) + 1)))
    exact ⟨⟨source, source.filePath, target⟩ :: jobs,
      planAfter_cons_eq_ok_iff.mpr ⟨_, jobs, path, planned, rfl⟩, congrArg (source :: ·) sources,
      congrArg (target :: ·) targets⟩

theorem slash_not_mem_stem {directory : Path} (normal : directory.Normal)
    (ending : '/' ∉ p.ending.shown.toList) : '/' ∉ (p.stem directory).toList := by
  have named := (isName_nameFor normal).2.2
  rw [show p.stem directory = nameFor directory ++ p.ending.shown from rfl, String.toList_append]
  simp [named, ending]

/-- The name of an archive is the name of a file where nothing that is added has a slash. -/
theorem isName_fileName_stem {directory : Path} (normal : directory.Normal)
    (ending : '/' ∉ p.ending.shown.toList) (extension : '/' ∉ p.extension.shown.toList)
    (count : Nat) : Path.IsName (p.fileName (p.stem directory) count) := by
  have named := isName_nameFor normal
  have digits : '/' ∉ Nat.toDigits 10 count := fun member => by
    cases isDigit_of_mem_toDigits member
  have stem := slash_not_mem_stem normal ending
  obtain ⟨rest, start⟩ := exists_fileName p directory count
  refine ⟨?_, ?_, ?_⟩
  · rw [start]
    exact fun empty => named.1 (String.append_eq_empty_iff.mp empty).1
  · rw [start, ne_eq, ← String.toList_inj, String.toList_append]
    intro dot
    rcases List.append_eq_singleton_iff.mp dot with ⟨empty, -⟩ | ⟨whole, -⟩
    · exact named.1 (String.toList_eq_nil_iff.mp empty)
    · exact named.2.1 (String.toList_inj.mp whole)
  · rw [fileName_eq, String.toList_append, label]
    split
    · simp [stem, extension]
    · simp [toList_withNumber, stem, extension, digits]

theorem nodup_targets_iff (ending : '/' ∉ p.ending.shown.toList)
    (extension : '/' ∉ p.extension.shown.toList) (temporary : Path) (directories : List Location) :
    ((counted [] (p.stems directories)).map fun use =>
      temporary.join (.ofText (p.fileName use.1 use.2))).Nodup ↔ ¬Clash (p.stems directories) := by
  rw [← nodup_labels_iff]
  have shown : ((counted [] (p.stems directories)).map fun use =>
      temporary.join (.ofText (p.fileName use.1 use.2))) =
      ((counted [] (p.stems directories)).map fun use => label use.1 use.2).map fun text =>
        temporary.child (text ++ p.extension.shown) := by
    rw [List.map_map]
    refine List.map_congr_left fun use member => ?_
    obtain ⟨stem, count⟩ := use
    have used := mem_counted.mp member
    rw [List.count_nil, Nat.zero_add] at used
    obtain ⟨l, -, rfl⟩ := List.mem_map.mp (List.count_pos_iff.mp (by omega) :
      stem ∈ p.stems directories)
    rw [Path.join_name _ (isName_fileName_stem (Location.normal_filePath l) ending extension count),
      fileName_eq]
    rfl
  rw [shown, List.nodup_map_iff]
  intro text text' same
  have names := List.append_cancel_left (congrArg Path.names same)
  exact (String.append_left_inj _).mp (List.singleton_inj.mp names)

/-! ## Endings that recur -/

theorem recurs_of_clash {directories : List Location} (clash : Clash (p.stems directories)) :
    Recurs p.ending.shown := by
  obtain ⟨stem, count, many, used, again⟩ := clash
  obtain ⟨l, -, rfl⟩ := List.mem_map.mp (List.count_pos_iff.mp (by omega) :
    stem ∈ p.stems directories)
  obtain ⟨m, -, same⟩ := List.mem_map.mp again
  refine ⟨count, many, ?_⟩
  have whole : nameFor m.filePath ++ p.ending.shown =
      nameFor l.filePath ++ withNumber p.ending.shown count := by
    rw [← withNumber_append]
    exact same
  have chars := congrArg String.toList whole
  rw [String.toList_append, String.toList_append] at chars
  refine List.suffix_of_suffix_length_le (chars ▸ List.suffix_append _ _)
    (List.suffix_append _ _) ?_
  rw [toList_withNumber, List.length_append]
  omega

/-- What an ending that recurs leaves in front of itself has the characters of the number. -/
theorem exists_front {ending : String} {count : Nat}
    (recurs : ending.toList <:+ (withNumber ending count).toList) :
    ∃ front : String, withNumber ending count = front ++ ending ∧
      front.toList.Perm ('-' :: Nat.toDigits 10 count) := by
  obtain ⟨front, same⟩ := recurs
  refine ⟨String.ofList front, ?_, ?_⟩
  · rw [← String.toList_inj, String.toList_append, String.toList_ofList, same]
  · rw [String.toList_ofList, ← List.perm_append_right_iff ending.toList, same, toList_withNumber]
    exact List.perm_append_comm

/-- The location of a path. -/
def located (path : Path) : Location :=
  ⟨Location.fileUri path⟩

/-- Paths that many locations can have: so many with one last name, and one with a longer name. -/
def namesakes (count : Nat) (more : String) : List Path :=
  (List.range count).map (fun i => ⟨.root, List.replicate (i + 1) "x"⟩) ++ [⟨.root, ["x" ++ more]⟩]

section

variable {count : Nat} {more : String}

theorem nodup_namesakes (longer : more ≠ "") : (namesakes count more).Nodup := by
  refine List.nodup_append'.mpr ⟨?_, List.nodup_singleton _, ?_⟩
  · refine List.Nodup.map (fun i j same => ?_) List.nodup_range
    simpa using congrArg (fun path : Path => path.names.length) same
  · intro path member last
    obtain ⟨i, -, rfl⟩ := List.mem_map.mp member
    have names := congrArg Path.names (List.mem_singleton.mp last)
    have short : "x" = "x" ++ more := by
      simpa [List.replicate_succ] using congrArg List.head? names
    exact longer ((String.append_right_inj "x").mp (short.symm.trans (by simp)))

theorem exists_name_namesakes {path : Path} (member : path ∈ namesakes count more) {name : String}
    (inside : name ∈ path.names) : name = "x" ++ "" ∨ name = "x" ++ more := by
  rcases List.mem_append.mp member with copy | last
  · obtain ⟨i, -, rfl⟩ := List.mem_map.mp copy
    exact Or.inl (List.eq_of_mem_replicate inside)
  · cases List.mem_singleton.mp last
    exact Or.inr (List.mem_singleton.mp inside)

theorem start_namesakes {path : Path} (member : path ∈ namesakes count more) :
    path.start = .root := by
  rcases List.mem_append.mp member with copy | last
  · obtain ⟨i, -, rfl⟩ := List.mem_map.mp copy
    rfl
  · cases List.mem_singleton.mp last
    rfl

/-- Characters of a number after a dash make a longer name of a file. -/
theorem isName_longer (number : ∀ c ∈ more.toList, c = '-' ∨ c.isDigit = true) :
    Path.IsName ("x" ++ more) ∧ "x" ++ more ≠ ".." ∧
      ∀ c ∈ ("x" ++ more).toList, Text.smuggledByte? c = none := by
  have chars : ("x" ++ more).toList = 'x' :: more.toList := String.toList_append
  have first : ∀ {text : String}, text.toList.head? ≠ some 'x' → "x" ++ more ≠ text :=
    fun {text} other same => other (by rw [← same, chars]; rfl)
  refine ⟨⟨first (by decide), first (by decide), fun slash => ?_⟩, first (by decide),
    fun c member => ?_⟩
  · rw [chars] at slash
    rcases List.mem_cons.mp slash with letter | inside
    · cases letter
    · rcases number _ inside with dash | digit
      · cases dash
      · cases digit
  · rw [chars] at member
    rcases List.mem_cons.mp member with rfl | inside
    · decide
    · rcases number c inside with rfl | digit
      · decide
      · exact smuggledByte?_of_isDigit digit

theorem filePath_namesakes (number : ∀ c ∈ more.toList, c = '-' ∨ c.isDigit = true) {path : Path}
    (member : path ∈ namesakes count more) :
    (located path).isLocal = true ∧ (located path).filePath = path := by
  have named : ∀ name ∈ path.names, Path.IsName name ∧ name ≠ ".." ∧
      ∀ c ∈ name.toList, Text.smuggledByte? c = none := fun name inside => by
    rcases exists_name_namesakes member inside with rfl | rfl
    · exact isName_longer (by simp)
    · exact isName_longer number
  have canonical : path.Canonical :=
    ⟨by simp [Path.isAbsolute, start_namesakes member], fun name inside => (named name inside).1,
      fun up => (named _ up).2.1 rfl⟩
  refine ⟨Location.isLocal_fileUri canonical.rooted, ?_⟩
  rw [located, Location.filePath_fileUri canonical]
  exact Path.decoded_of_whole fun name inside => (named name inside).2.2

end

theorem stem_of_last {path : Path} {name : String} (last : path.names.getLast? = some name)
    (some_name : name ≠ "") : p.stem path = name ++ p.ending.shown := by
  have whole : path.name = name := by rw [Path.name, last, Option.getD_some]
  have long : name.isEmpty = false := by simpa using some_name
  rw [stem, whole, long]
  rfl

theorem stems_namesakes (p : Packer) (count : Nat) (more : String) :
    (namesakes count more).map p.stem =
      List.replicate count ("x" ++ p.ending.shown) ++ ["x" ++ more ++ p.ending.shown] := by
  have longer : "x" ++ more ≠ "" := fun empty =>
    absurd (String.append_eq_empty_iff.mp empty).1 (by decide)
  rw [namesakes, List.map_append, List.map_map]
  refine congrArg₂ (· ++ ·) (List.eq_replicate_iff.mpr ⟨by simp, fun stem member => ?_⟩) ?_
  · obtain ⟨i, -, rfl⟩ := List.mem_map.mp member
    exact stem_of_last (by simp [List.getLast?_replicate]) (by decide)
  · rw [List.map_singleton, stem_of_last rfl longer]

/-- Where an ending recurs, there are directories whose stems clash. -/
theorem exists_clash (recurs : Recurs p.ending.shown) :
    ∃ directories : List Location, directories.Nodup ∧ (∀ l ∈ directories, l.isLocal = true) ∧
      Clash (p.stems directories) := by
  obtain ⟨count, many, again⟩ := recurs
  obtain ⟨more, same, rearranged⟩ := exists_front again
  have number : ∀ c ∈ more.toList, c = '-' ∨ c.isDigit = true := fun c inside =>
    (List.mem_cons.mp (rearranged.mem_iff.mp inside)).imp_right isDigit_of_mem_toDigits
  have longer : more ≠ "" := by
    rintro rfl
    exact List.cons_ne_nil _ _ (List.perm_nil.mp rearranged.symm)
  have found : ∀ path ∈ namesakes count more,
      (Location.filePath ∘ located) path = id path := fun path member => by
    rw [Function.comp_apply, (filePath_namesakes number member).2, id_eq]
  have paths : ((namesakes count more).map located).map Location.filePath =
      namesakes count more := by
    rw [List.map_map, List.map_congr_left found, List.map_id]
  have isLocal : ∀ l ∈ (namesakes count more).map located, l.isLocal = true := by
    intro l member
    obtain ⟨path, inside, rfl⟩ := List.mem_map.mp member
    exact (filePath_namesakes number inside).1
  generalize (namesakes count more).map located = directories at paths isLocal
  have stems : p.stems directories =
      List.replicate count ("x" ++ p.ending.shown) ++ ["x" ++ more ++ p.ending.shown] := by
    rw [← stems_namesakes, ← paths, List.map_map]
    rfl
  have used : count ≤ (p.stems directories).count ("x" ++ p.ending.shown) := by
    rw [stems, List.count_append, List.count_replicate_self]
    exact Nat.le_add_right _ _
  have taken : withNumber ("x" ++ p.ending.shown) count ∈ p.stems directories := by
    rw [stems, withNumber_append, same, ← String.append_assoc]
    simp
  have apart : (directories.map Location.filePath).Nodup := by
    rw [paths]
    exact nodup_namesakes longer
  exact ⟨directories, List.Nodup.of_map _ apart, isLocal, _, count, many, used, taken⟩

/-- **Archives of one plan are apart.** A plan has a job for each local directory, in their order.
Its targets are apart exactly where no stems clash, and stems clash for some directories exactly
where the ending recurs. -/
theorem targets_nodup_iff (ending : '/' ∉ p.ending.shown.toList)
    (extension : '/' ∉ p.extension.shown.toList) :
    (∀ (temporary : Path) (directories : List Location),
      (∀ l ∈ directories, l.isLocal = true) →
        ∃ jobs, p.plan temporary directories = .ok jobs ∧ jobs.map Job.source = directories ∧
          ((jobs.map Job.target).Nodup ↔ ¬Clash (p.stems directories))) ∧
      ((∀ (temporary : Path) (directories : List Location) (jobs : List Job),
        directories.Nodup → (∀ l ∈ directories, l.isLocal = true) →
          p.plan temporary directories = .ok jobs → (jobs.map Job.target).Nodup) ↔
        ¬Recurs p.ending.shown) := by
  have planned : ∀ (temporary : Path) (directories : List Location),
      (∀ l ∈ directories, l.isLocal = true) →
        ∃ jobs, p.plan temporary directories = .ok jobs ∧ jobs.map Job.source = directories ∧
          ((jobs.map Job.target).Nodup ↔ ¬Clash (p.stems directories)) := by
    intro temporary directories isLocal
    obtain ⟨jobs, plan, sources, targets⟩ := exists_planAfter p temporary [] isLocal
    exact ⟨jobs, plan, sources, targets ▸ nodup_targets_iff ending extension temporary directories⟩
  refine ⟨planned, fun apart recurs => ?_, fun free temporary directories jobs _ isLocal plan => ?_⟩
  · obtain ⟨directories, distinct, isLocal, clash⟩ := exists_clash recurs
    obtain ⟨jobs, plan, -, targets⟩ := planned ⟨.root, []⟩ directories isLocal
    exact targets.mp (apart _ _ _ distinct isLocal plan) clash
  · obtain ⟨jobs', plan', -, targets⟩ := planned temporary directories isLocal
    cases plan.symm.trans plan'
    exact targets.mpr fun clash => free (recurs_of_clash clash)

/-- Two directories of one name below a temporary directory. -/
theorem targets_nodup_iff_dir :
    let p : Packer := {}
    let directories : List Location := [⟨"file:///a/x"⟩, ⟨"file:///b/x"⟩]
    '/' ∉ p.ending.shown.toList ∧ '/' ∉ p.extension.shown.toList ∧
      (∀ l ∈ directories, l.isLocal = true) ∧
      ∃ jobs, p.plan ⟨.root, ["t"]⟩ directories = .ok jobs ∧ jobs.map Job.source = directories ∧
        ((jobs.map Job.target).Nodup ↔ ¬Clash (p.stems directories)) := by
  intro p directories
  have isLocal : ∀ l ∈ directories, l.isLocal = true :=
    List.forall_iff_forall_mem.mp (by decide +kernel)
  have ending : '/' ∉ p.ending.shown.toList := by decide
  have extension : '/' ∉ p.extension.shown.toList := by decide
  exact ⟨ending, extension, isLocal,
    (targets_nodup_iff ending extension).1 ⟨.root, ["t"]⟩ directories isLocal⟩

/-- Where nothing is added to the names of directories, one of them can have the name that another
takes with its number. -/
theorem targets_twice :
    let p : Packer := { ending := .text "" }
    let directories : List Location := [⟨"file:///a/x"⟩, ⟨"file:///b/x"⟩, ⟨"file:///c/x-2"⟩]
    directories.Nodup ∧ (∀ l ∈ directories, l.isLocal = true) ∧
      (p.plan ⟨.root, ["t"]⟩ directories).map (List.map Job.target) =
        .ok [⟨.root, ["t", "x.jar"]⟩, ⟨.root, ["t", "x-2.jar"]⟩, ⟨.root, ["t", "x-2.jar"]⟩] := by
  intro p directories
  exact ⟨by decide, List.forall_iff_forall_mem.mp (by decide +kernel), by cbv⟩

end Classpath.Packer
