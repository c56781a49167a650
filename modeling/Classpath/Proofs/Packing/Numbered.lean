import Classpath.Proofs.FileTree.Listing
import Classpath.Proofs.Packing.Temporary
import Classpath.Proofs.Renumbering
import Mathlib

/-! # Temporary directories with other numbers

The name of a temporary directory ends in a number, and which number it is tells nothing but how
many names have been used before. In the same file tree either no name of the right length can
become a directory or each free name can (`Classpath.FileTree.makeDirectory_numbered`), and there
are more names to try than entries in the tree. So a packer makes its temporary directory for each
number of names used before or for none (`Classpath.Packer.makeTemporary_cases`).
-/

namespace Classpath

namespace Text

variable {n m : Nat}

theorem toList_padded (width n : Nat) : (padded width n).toList =
    List.replicate (width - (Nat.toDigits 10 n).length) '0' ++ Nat.toDigits 10 n :=
  String.toList_ofList

theorem mem_decimals_of_mem_padded {width n : Nat} {c : Char}
    (member : c ∈ (padded width n).toList) : c ∈ decimals :=
  mem_decimals_of_isDigit (Packer.isDigit_of_mem_padded member)

/-- A number of at most eight digits is padded to eight. -/
theorem length_padded (few : n < 10 ^ 8) : (padded 8 n).toList.length = 8 := by
  have digits := (Nat.length_toDigits_le_iff (by decide) (by decide)).mpr few
  rw [toList_padded, List.length_append, List.length_replicate]
  omega

/-- A number is read back from its padded form. -/
theorem padded_inj {width : Nat} (same : padded width n = padded width m) : n = m := by
  have zeros : ∀ (k : Nat) (digits : List Char),
      Nat.ofDigitChars 10 (List.replicate k '0' ++ digits) 0 = Nat.ofDigitChars 10 digits 0 := by
    intro k digits
    induction k with
    | zero => rfl
    | succ k ih => exact ih
  have read : ∀ k, Nat.ofDigitChars 10 (padded width k).toList 0 = k := by
    intro k
    rw [toList_padded, zeros, Nat.ofDigitChars_ten_toDigits]
  rw [← read n, same, read]

theorem numbers_padded (few : n < 10 ^ 8) (few' : m < 10 ^ 8) :
    Numbers (padded 8 n).toList (padded 8 m).toList where
  left _ := mem_decimals_of_mem_padded
  right _ := mem_decimals_of_mem_padded
  same := by rw [length_padded few, length_padded few']
  long := by
    rw [length_padded few]
    decide

end Text

namespace FileTree

variable {t : FileTree}

/-- More places than entries are not all taken. -/
theorem exists_absent (t : FileTree) {places : List Place} (apart : places.Nodup)
    (below : [] ∉ places) (many : t.nodes.length < places.length) :
    ∃ place ∈ places, t.node? place = none := by
  by_contra! taken
  have inside : places ⊆ t.nodes.map Prod.fst := by
    intro place member
    have some_name : place ≠ [] := fun none => below (none ▸ member)
    have stands := taken place member
    rw [ne_eq, node?_eq_none_iff some_name] at stands
    push Not at stands
    obtain ⟨entry, among, rfl⟩ := stands
    exact List.mem_map_of_mem among
  have few := (apart.subperm inside).length_le
  rw [List.length_map] at few
  omega

/-- A name that ends in a number. -/
def numberedName (middle : List Char) (n : Nat) : String :=
  String.ofList (middle ++ (Text.padded 8 n).toList)

theorem numberedName_inj {middle : List Char} {n m : Nat}
    (same : numberedName middle n = numberedName middle m) : n = m :=
  Text.padded_inj (String.toList_inj.mp (List.append_cancel_left (String.ofList_inj.mp same)))

theorem utf8ByteSize_numberedName (middle : List Char) {n m : Nat} (few : n < 10 ^ 8)
    (few' : m < 10 ^ 8) :
    (numberedName middle n).utf8ByteSize = (numberedName middle m).utf8ByteSize :=
  (Text.Renumbered.of_numbers middle (Text.numbers_padded few few')).utf8ByteSize_eq

/-- Among more numbers than there are entries, one is the number of a free name. -/
theorem exists_free (t : FileTree) (top : Place) (middle : List Char) (serial : Nat) :
    ∃ n, serial < n ∧ n ≤ serial + (t.nodes.length + 1) ∧
      t.node? (top ++ [numberedName middle n]) = none := by
  let place (n : Nat) : Place := top ++ [numberedName middle n]
  have injective : Function.Injective place := fun n m same =>
    numberedName_inj (List.singleton_inj.mp (List.append_cancel_left same))
  have apart : ((List.range' (serial + 1) (t.nodes.length + 1)).map place).Nodup :=
    (List.nodup_range').map injective
  have below : [] ∉ (List.range' (serial + 1) (t.nodes.length + 1)).map place := by
    simp [place]
  obtain ⟨_, member, absent⟩ := t.exists_absent apart below (by simp)
  obtain ⟨n, tried, rfl⟩ := List.mem_map.mp member
  rw [List.mem_range'_1] at tried
  exact ⟨n, by omega, by omega, absent⟩

/-- A part of a text that ends in a number is a name. -/
theorem isName_numbered {cs middle : List Char} {before : List (List Char)} {n : Nat}
    (split : cs.splitOn '/' = before ++ [middle ++ (Text.padded 8 n).toList]) :
    Path.IsName (numberedName middle n) ∧ numberedName middle n ≠ ".." := by
  obtain ⟨d, digit⟩ := List.exists_mem_of_ne_nil _ (Packer.toList_padded_ne_nil 8 n)
  have decimal := Text.mem_decimals_of_mem_padded digit
  have other : ∀ name : String, Text.Digitless name.toList → numberedName middle n ≠ name := by
    rintro name free rfl
    refine free d ?_ decimal
    rw [numberedName, String.toList_ofList]
    exact List.mem_append_right _ digit
  refine ⟨⟨other "" (by decide), other "." (by decide), ?_⟩, other ".." (by decide)⟩
  rw [numberedName, String.toList_ofList]
  exact Path.not_mem_of_mem_splitOn (split ▸ List.mem_append_right _ (List.mem_singleton_self _))

section Numbered

variable {name : Nat → String} {front : List Char}
  (text : ∀ n, (name n).toList = front ++ (Text.padded 8 n).toList)

include text

/-- Texts that end in a number are looked up in one directory. -/
theorem exists_locate_numbered (t : FileTree) (workingDirectory : Path) :
    ∃ above middle, ∀ n < 10 ^ 8, t.locate .name workingDirectory (name n) =
      if pathLimit ≤ (name 0).utf8ByteSize then .error .nameTooLong
      else above >>= t.entry (numberedName middle n) := by
  obtain ⟨before, middle, split⟩ := Path.exists_segments_append front
  let origin := if Path.startOf front = .here then workingDirectory.names else []
  refine ⟨t.follow .target linkLimit origin (before.map String.ofList), middle, fun n few => ?_⟩
  have whole : '/' ∉ (Text.padded 8 n).toList := fun slash =>
    absurd (Text.mem_decimals_of_mem_padded slash) (by decide)
  have named := isName_numbered (split _ whole)
  have begins : Path.startOf (name n).toList = Path.startOf front := by
    rw [text]
    exact Path.startOf_append _ fun slash => whole (List.mem_of_head? slash)
  have size : (name n).utf8ByteSize = (name 0).utf8ByteSize := by
    have same := Text.Renumbered.of_numbers front (Text.numbers_padded few (m := 0) (by decide))
    rw [← text, ← text] at same
    simpa only [String.ofList_toList] using same.utf8ByteSize_eq
  have some_text : (name n).isEmpty = false := by
    rw [String.isEmpty_eq_false_iff, ne_eq, ← String.toList_eq_nil_iff, text]
    exact List.append_ne_nil_of_right_ne_nil _ (Packer.toList_padded_ne_nil 8 n)
  have segments : Path.segments (name n) =
      before.map String.ofList ++ [numberedName middle n] := by
    rw [Path.segments, text, split _ whole, List.map_append, List.map_singleton, numberedName]
  rw [locate, some_text, size, segments, begins]
  simp only [Bool.false_eq_true, ↓reduceIte]
  rw [follow_concat named.1 named.2]

/-- Either no number makes a directory, or each whose name is free does. -/
theorem makeDirectory_numbered (t : FileTree) (workingDirectory : Path) :
    (∃ refusal, ∀ n < 10 ^ 8, t.makeDirectory workingDirectory (name n) = .error refusal) ∨
      ∃ (top : Place) (middle : List Char), ∀ n < 10 ^ 8,
        t.makeDirectory workingDirectory (name n) =
          let place := top ++ [numberedName middle n]
          if t.node? place = none then .ok (place, t.put place .directory) else .error .exists := by
  obtain ⟨above, middle, located⟩ := exists_locate_numbered text t workingDirectory
  have refuses : ∀ refusal, (∀ n < 10 ^ 8, t.locate .name workingDirectory (name n) =
      .error refusal) → ∃ refusal, ∀ n < 10 ^ 8,
        t.makeDirectory workingDirectory (name n) = .error refusal := by
    intro refusal nowhere
    refine ⟨refusal, fun n few => ?_⟩
    rw [makeDirectory, nowhere n few]
    rfl
  -- The look-up asks for the length of the text, for the directory above and for the length of the
  -- name, and the number changes none of these.
  by_cases long : pathLimit ≤ (name 0).utf8ByteSize
  · exact .inl (refuses .nameTooLong fun n few => by rw [located n few, if_pos long])
  simp only [long, ↓reduceIte] at located
  cases above with
  | error refusal => exact .inl (refuses refusal located)
  | ok top =>
    have size := fun n few => utf8ByteSize_numberedName middle (n := n) (m := 0) few (by decide)
    change ∀ n < 10 ^ 8, _ = t.entry _ top at located
    cases stands : t.node? top with
    | none => exact .inl (refuses .noEntry fun n few => by rw [located n few, entry, stands])
    | some node =>
      simp only [entry, stands] at located
      by_cases other : (!node.isDirectory) = true
      · exact .inl (refuses .notDirectory fun n few => by rw [located n few, if_pos other])
      by_cases longName : nameLimit < (numberedName middle 0).utf8ByteSize
      · exact .inl (refuses .nameTooLong fun n few => by
          rw [located n few, if_neg other, size n few, if_pos longName])
      · refine .inr ⟨top, middle, fun n few => ?_⟩
        have place := located n few
        rw [if_neg other, size n few, if_neg longName] at place
        rw [makeDirectory, place]
        simp only [bind, Except.bind]
        cases t.node? (top ++ [numberedName middle n]) <;> rfl

end Numbered

end FileTree

/-- Workspaces with the same files, working directory and temporary directory. -/
structure Workspace.SameTree (w w' : Workspace) : Prop where
  files : w'.files = w.files
  workingDirectory : w'.workingDirectory = w.workingDirectory
  temporaryDirectory : w'.temporaryDirectory = w.temporaryDirectory

theorem Workspace.SameTree.refl (w : Workspace) : w.SameTree w :=
  ⟨rfl, rfl, rfl⟩

protected theorem Workspace.SameTree.symm {w w' : Workspace} (same : w.SameTree w') :
    w'.SameTree w :=
  ⟨same.files.symm, same.workingDirectory.symm, same.temporaryDirectory.symm⟩

/-- The number of a temporary directory has at most eight digits. -/
def Workspace.Countable (w : Workspace) : Prop :=
  w.serial + (w.files.nodes.length + 1) < 10 ^ 8

namespace Packer

/-- The path of the temporary directory with a number. -/
def numbered (root start : String) (n : Nat) : Path :=
  .ofText (below root (start ++ Text.padded 8 n))

theorem renumbered_numbered (root start : String) {n m : Nat} (few : n < 10 ^ 8)
    (few' : m < 10 ^ 8) : (numbered root start n).Renumbered (numbered root start m) := by
  obtain ⟨front, text⟩ := exists_below root start
  apply Path.Renumbered.ofText
  rw [text, text]
  exact .of_numbers front (Text.numbers_padded few few')

section Fresh

variable {root start : String} {tries : Nat} {w : Workspace}

/-- Where no name can become a directory, no temporary directory is made. -/
theorem makeFresh_fails (few : w.serial + tries < 10 ^ 8)
    (never : ∃ refusal, ∀ n < 10 ^ 8, w.files.makeDirectory w.workingDirectory
      (below root (start ++ Text.padded 8 n)) = .error refusal) :
    (makeFresh root start tries).Fails w := by
  induction tries generalizing w with
  | zero => exact ⟨_, _, rfl⟩
  | succ tries ih =>
    obtain ⟨refusal, never⟩ := never
    simp only [Action.Fails, makeFresh, Action.start_bind, Action.start_get, Action.start_modify,
      never (w.serial + 1) (by omega)]
    split
    next other => cases other
    · exact ih (by dsimp only; omega) ⟨refusal, never⟩
    · exact ⟨_, _, rfl⟩

/-- Where each free name can become a directory and one of those that are tried is free, a temporary
directory is made. -/
theorem exists_makeFresh_ok (few : w.serial + tries < 10 ^ 8)
    (each : ∀ n < 10 ^ 8, (∃ made, w.files.makeDirectory w.workingDirectory
        (below root (start ++ Text.padded 8 n)) = .ok made) ∨
      w.files.makeDirectory w.workingDirectory (below root (start ++ Text.padded 8 n)) =
        .error .exists)
    (free : ∃ n, w.serial < n ∧ n ≤ w.serial + tries ∧ w.files.makeDirectory w.workingDirectory
      (below root (start ++ Text.padded 8 n)) ≠ .error .exists) :
    ∃ made after, (makeFresh root start tries).start w = (.ok made, after) := by
  induction tries generalizing w with
  | zero =>
    obtain ⟨n, above, most, -⟩ := free
    omega
  | succ tries ih =>
    simp only [makeFresh, Action.start_bind, Action.start_get, Action.start_modify]
    rcases each (w.serial + 1) (by omega) with ⟨⟨place, files⟩, made⟩ | taken
    · rw [made]
      exact ⟨_, _, rfl⟩
    · obtain ⟨n, above, most, found⟩ := free
      have other : n ≠ w.serial + 1 := by
        rintro rfl
        exact found taken
      rw [taken]
      exact ih (w := { w with serial := w.serial + 1 }) (by dsimp only; omega) each
        ⟨n, by dsimp only; omega, by dsimp only; omega, found⟩

end Fresh

section Temporary

variable {p : Packer} {w w' : Workspace} {start : String}

/-- The text of the path in which a packer makes its temporary directory. -/
def rootText (p : Packer) (w : Workspace) : String :=
  (p.temporaryRoot.getD w.temporaryDirectory).text

theorem exists_makeTemporary_ok {made : Path} {between : Workspace}
    (started : p.temporaryStart = .ok start)
    (ran : (makeFresh (p.rootText w) start (w.files.nodes.length + 1)).start w =
      (.ok made, between)) :
    ∃ after, p.makeTemporary.start w = (.ok made, after) := by
  rw [makeTemporary, Action.start_bind_ok (Action.start_get _)]
  dsimp only
  rw [started]
  dsimp only
  rw [← rootText, Action.start_bind_ok ran]
  split <;> exact ⟨_, rfl⟩

theorem makeTemporary_fails (started : p.temporaryStart = .ok start)
    (fails : (makeFresh (p.rootText w) start (w.files.nodes.length + 1)).Fails w) :
    p.makeTemporary.Fails w := by
  apply Action.fails_bind_of_ok (Action.start_get w)
  dsimp only
  rw [started]
  exact Action.Fails.bind fails _

/-- **Which names were used before does not matter.** In the same file tree a packer makes its
temporary directory for each number of names used before or for none, and the path is the same but
for the number. -/
theorem makeTemporary_cases (p : Packer) (w : Workspace) :
    (∀ w', w.SameTree w' → w'.Countable → p.makeTemporary.Fails w') ∨
    ∃ root start, ∀ w', w.SameTree w' → w'.Countable →
      ∃ n < 10 ^ 8, ∃ after, p.makeTemporary.start w' = (.ok (numbered root start n), after) := by
  cases started : p.temporaryStart with
  | error fault =>
    refine .inl fun w' _ _ => ?_
    apply Action.fails_bind_of_ok (Action.start_get w')
    dsimp only
    rw [started]
    exact ⟨_, _, rfl⟩
  | ok start =>
    obtain ⟨front, text⟩ := exists_below (p.rootText w) start
    have sameRoot : ∀ {w'}, w.SameTree w' → p.rootText w' = p.rootText w := fun same => by
      rw [rootText, rootText, same.temporaryDirectory]
    rcases FileTree.makeDirectory_numbered text w.files w.workingDirectory with
      never | ⟨top, middle, each⟩
    · refine .inl fun w' same few => ?_
      rw [← same.files, ← same.workingDirectory, ← sameRoot same] at never
      exact makeTemporary_fails started (makeFresh_fails few never)
    · refine .inr ⟨p.rootText w, start, fun w' same few => ?_⟩
      obtain ⟨n, above, most, absent⟩ := w'.files.exists_free top middle w'.serial
      rw [← same.files, ← same.workingDirectory, ← sameRoot same] at each
      have outcomes : ∀ n < 10 ^ 8, (∃ made, w'.files.makeDirectory w'.workingDirectory
            (below (p.rootText w') (start ++ Text.padded 8 n)) = .ok made) ∨
          w'.files.makeDirectory w'.workingDirectory
            (below (p.rootText w') (start ++ Text.padded 8 n)) = .error .exists := by
        intro n small
        rw [each n small]
        dsimp only
        split
        · exact .inl ⟨_, rfl⟩
        · exact .inr rfl
      have free : w'.files.makeDirectory w'.workingDirectory
          (below (p.rootText w') (start ++ Text.padded 8 n)) ≠ .error .exists := by
        rw [each n (Nat.lt_of_le_of_lt most few)]
        dsimp only
        rw [if_pos absent]
        exact nofun
      obtain ⟨made, between, ran⟩ := exists_makeFresh_ok few outcomes ⟨n, above, most, free⟩
      obtain ⟨serial, -, -, -, small, -, rfl, -⟩ := makeFresh_spec ran
      obtain ⟨after, done⟩ := exists_makeTemporary_ok started ran
      exact ⟨serial, Nat.lt_of_le_of_lt small few, after, by rw [done, sameRoot same]; rfl⟩

end Temporary

end Packer

end Classpath
