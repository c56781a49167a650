import Classpath.Proofs.FileTree.Writing

/-! # Asking whether something is there

A look-up of what a path leads to fails because nothing is there or because a name is too long
(`Classpath.FileTree.absent_or_nameTooLong`), so whether anything is there can be told unless the
path is too long (`Classpath.FileTree.exists?_eq_error_iff`).
-/

namespace Classpath.FileTree

variable {t : FileTree} {workingDirectory p : Path}

/-- A look-up of what a path leads to fails because nothing is there or because a name is too
long. -/
theorem absent_or_nameTooLong {links : Nat} {place : Place} {names : List String}
    {fault : FileFault} (refused : t.follow .target links place names = .error fault) :
    absent fault = true ∨ fault = .nameTooLong := by
  fun_induction follow t .target links place names with
  | case2 links place name rest nothing => cases refused; exact Or.inl rfl
  | case3 links place name rest node stands other => cases refused; exact Or.inl rfl
  | case4 links place name rest node stands directory dot ih => exact ih refused
  | case5 links place rest node stands directory notDot ih => exact ih refused
  | case6 links place name rest node stands directory notDot notUp slash => simp at slash
  | case7 links place name rest node stands directory notDot notUp slash long =>
    cases refused
    exact Or.inr rfl
  | case9 place name rest node stands directory notDot notUp slash short target link last =>
    cases refused
    exact Or.inl rfl
  | case10 place name rest node stands directory notDot notUp slash short target link last fewer
      start ih => exact ih refused
  | case11 links place name rest node stands directory notDot notUp slash short other notLink there
      ih => exact ih refused
  | case13 links place name rest node stands directory notDot notUp slash short nothing last =>
    cases refused
    exact Or.inl rfl
  | _ => cases refused

theorem status_eq_error {s : String} {fault : FileFault}
    (refused : t.status workingDirectory s = .error fault) :
    absent fault = true ∨ fault = .nameTooLong := by
  unfold status at refused
  cases located : t.locate .target workingDirectory s with
  | error other =>
    simp only [located, bind, Except.bind] at refused
    cases refused
    unfold locate at located
    split at located
    · cases located
      exact Or.inl rfl
    split at located
    · cases located
      exact Or.inr rfl
    · exact absent_or_nameTooLong located
  | ok place =>
    simp only [located, bind, Except.bind] at refused
    split at refused <;> cases refused
    exact Or.inl rfl

/-- Whatever is asked of what is there can be told unless the path is too long. -/
theorem ask_eq_error_iff {question : Node → Bool} {fault : Fault} :
    t.ask workingDirectory p question = .error fault ↔
      t.status workingDirectory p.text = .error .nameTooLong ∧
        fault = .file .nameTooLong p.text := by
  unfold ask
  cases found : t.status workingDirectory p.text with
  | ok entry => simp
  | error other =>
    rcases status_eq_error found with gone | rfl
    · have kind : other ≠ .nameTooLong := by
        rintro rfl
        cases gone
      simp [gone, kind]
    · simp [absent, eq_comm]

/-- Whether anything is there can be told unless the path is too long. -/
theorem exists?_eq_error_iff {fault : Fault} :
    t.exists? workingDirectory p = .error fault ↔
      t.status workingDirectory p.text = .error .nameTooLong ∧
        fault = .file .nameTooLong p.text :=
  ask_eq_error_iff

theorem isDirectory_eq_true_iff : t.isDirectory workingDirectory p = .ok true ↔
    ∃ place, t.status workingDirectory p.text = .ok (place, .directory) := by
  unfold isDirectory ask
  cases found : t.status workingDirectory p.text with
  | ok entry =>
    obtain ⟨place, node⟩ := entry
    cases node <;> simp [Node.isDirectory]
  | error fault => by_cases gone : absent fault = true <;> simp [gone]

theorem exists?_of_read {data : List UInt8} (reads : t.read workingDirectory p = .ok data) :
    t.exists? workingDirectory p = .ok true := by
  unfold read at reads
  unfold exists? ask
  cases found : t.status workingDirectory p.text with
  | ok entry => rfl
  | error other =>
    rw [found] at reads
    cases reads

/-- What a file cannot be read for is a fault of the file system. -/
theorem read_eq_error {fault : Fault} (refused : t.read workingDirectory p = .error fault) :
    ∃ reason, fault = .file reason p.text := by
  unfold read at refused
  split at refused <;> cases refused
  · exact ⟨_, rfl⟩
  · exact ⟨_, rfl⟩

end Classpath.FileTree
