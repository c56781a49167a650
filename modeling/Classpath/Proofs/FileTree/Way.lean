import Classpath.FileTree.Lookup

/-! # The way of a look-up

A look-up that leads somewhere has come there by a way, name by name
(`Classpath.FileTree.follow_eq_ok_iff`). A way goes through directories and links only, so it can be
gone in every tree that has those (`Classpath.FileTree.Way.transfer`).
-/

namespace Classpath.FileTree

variable {t t' : FileTree} {aim : Aim} {links : Nat} {place found : Place} {name : String}
  {rest names : List String}

theorem eq_directory {node : Node} (directory : ¬ (!node.isDirectory) = true) :
    node = .directory := by
  cases node <;> simp [Node.isDirectory] at directory ⊢

/-! ## One step -/

/-- A plain name that a look-up is not refused for. -/
structure Passes (aim : Aim) (name : String) (rest : List String) : Prop where
  notDot : ¬ (name = "" || name = ".")
  notUp : name ≠ ".."
  noSlash : ¬ (aim = .newFile && !rest.isEmpty && rest.all String.isEmpty)
  short : ¬ nameLimit < name.utf8ByteSize

/-- Only a file that is to be written is refused for what follows a name. -/
theorem Passes.of_ne_newFile (passes : Passes aim name rest) {aim' : Aim} (other : aim' ≠ .newFile)
    (rest' : List String) : Passes aim' name rest' :=
  ⟨passes.notDot, passes.notUp, by simp [other], passes.short⟩

/-- One step of a look-up in a directory. -/
theorem follow_cons (stands : t.node? place = some .directory) (aim : Aim)
    (links : Nat) (name : String) (rest : List String) :
    t.follow aim links place (name :: rest) =
      if name = "" || name = "." then t.follow aim links place rest
      else if name = ".." then t.follow aim links place.dropLast rest
      else if aim = .newFile && !rest.isEmpty && rest.all String.isEmpty then .error .isDirectory
      else if nameLimit < name.utf8ByteSize then .error .nameTooLong
      else
        match t.node? (place ++ [name]) with
        | some (.link target) =>
          if rest.isEmpty && aim = .name then .ok (place ++ [name])
          else
            match links with
            | 0 => .error .tooManyLinks
            | fewer + 1 =>
              let start := if Path.startOf target.toList = .here then place else []
              t.follow aim fewer start (Path.segments target ++ rest)
        | some _ => t.follow aim links (place ++ [name]) rest
        | none => if rest.isEmpty then .ok (place ++ [name]) else .error .noEntry := by
  conv => lhs; rw [follow, stands]
  rfl

/-- A name that stands for nothing is left out. -/
theorem follow_cons_dot (stands : t.node? place = some .directory)
    (dot : name = "" || name = ".") :
    t.follow aim links place (name :: rest) = t.follow aim links place rest := by
  rw [follow_cons stands, if_pos dot]

/-- Two dots go up. -/
theorem follow_cons_up (stands : t.node? place = some .directory) :
    t.follow aim links place (".." :: rest) = t.follow aim links place.dropLast rest := by
  rw [follow_cons stands, if_neg (by decide), if_pos rfl]

/-- One step of a look-up by a plain name. -/
theorem follow_cons_plain (stands : t.node? place = some .directory)
    (notDot : ¬ (name = "" || name = ".")) (notUp : name ≠ "..")
    (noSlash : ¬ (aim = .newFile && !rest.isEmpty && rest.all String.isEmpty))
    (short : ¬ nameLimit < name.utf8ByteSize) :
    t.follow aim links place (name :: rest) =
      match t.node? (place ++ [name]) with
      | some (.link target) =>
        if rest.isEmpty && aim = .name then .ok (place ++ [name])
        else
          match links with
          | 0 => .error .tooManyLinks
          | fewer + 1 =>
            let start := if Path.startOf target.toList = .here then place else []
            t.follow aim fewer start (Path.segments target ++ rest)
      | some _ => t.follow aim links (place ++ [name]) rest
      | none => if rest.isEmpty then .ok (place ++ [name]) else .error .noEntry := by
  rw [follow_cons stands, if_neg notDot, if_neg notUp, if_neg noSlash, if_neg short]

/-- A name that is too long is refused. -/
theorem follow_cons_long (stands : t.node? place = some .directory)
    (notDot : ¬ (name = "" || name = ".")) (notUp : name ≠ "..")
    (noSlash : ¬ (aim = .newFile && !rest.isEmpty && rest.all String.isEmpty))
    (long : nameLimit < name.utf8ByteSize) :
    t.follow aim links place (name :: rest) = .error .nameTooLong := by
  rw [follow_cons stands, if_neg notDot, if_neg notUp, if_neg noSlash, if_pos long]

/-- One step of a look-up to what is no link. -/
theorem follow_cons_node (stands : t.node? place = some .directory)
    (passes : Passes aim name rest) {node : Node}
    (next : t.node? (place ++ [name]) = some node) (notLink : ∀ target, node ≠ .link target) :
    t.follow aim links place (name :: rest) = t.follow aim links (place ++ [name]) rest := by
  rw [follow_cons_plain stands passes.notDot passes.notUp passes.noSlash passes.short, next]
  cases node with
  | link target => exact absurd rfl (notLink target)
  | directory => rfl
  | file content modified => rfl
  | pipe => rfl

/-- One step of a look-up through a link. -/
theorem follow_cons_link (stands : t.node? place = some .directory)
    (passes : Passes aim name rest) {target : String}
    (link : t.node? (place ++ [name]) = some (.link target))
    (goesOn : ¬ (rest.isEmpty && aim = .name)) :
    t.follow aim (links + 1) place (name :: rest) =
      t.follow aim links (if Path.startOf target.toList = .here then place else [])
        (Path.segments target ++ rest) := by
  rw [follow_cons_plain stands passes.notDot passes.notUp passes.noSlash passes.short, link]
  exact if_neg goesOn

/-- A look-up ends at the last name, unless a link is to be followed there. -/
theorem follow_cons_last (stands : t.node? place = some .directory) (passes : Passes aim name [])
    (stops : ∀ target, t.node? (place ++ [name]) = some (.link target) → aim = .name) :
    t.follow aim links place [name] = .ok (place ++ [name]) := by
  cases there : t.node? (place ++ [name]) with
  | none =>
    rw [follow_cons_plain stands passes.notDot passes.notUp passes.noSlash passes.short, there]
    rfl
  | some node =>
    by_cases link : ∃ target, node = .link target
    · obtain ⟨target, rfl⟩ := link
      rw [follow_cons_plain stands passes.notDot passes.notUp passes.noSlash passes.short, there]
      simp [stops target there]
    · rw [follow_cons_node stands passes there fun target same => link ⟨target, same⟩, follow]

/-- Names can be followed only from a directory. -/
theorem eq_nil_of_follow (followed : t.follow aim links place names = .ok found)
    (other : t.node? place ≠ some .directory) : names = [] ∧ found = place := by
  cases names with
  | nil =>
    rw [follow] at followed
    exact ⟨rfl, (Except.ok.inj followed).symm⟩
  | cons name rest =>
    rw [follow] at followed
    split at followed
    · cases followed
    next node stands =>
      split at followed
      · cases followed
      next directory => exact absurd (stands.trans (congrArg some (eq_directory directory))) other

/-! ## Ways -/

/-- The way from a place along names to the place where they lead. Every name but the last one
leads through a directory or a link. -/
inductive Way (t : FileTree) (aim : Aim) : Nat → Place → List String → Place → Prop
  | here {links : Nat} {place : Place} : Way t aim links place [] place
  | dot {links : Nat} {place found : Place} {name : String} {rest : List String}
      (stands : t.node? place = some .directory) (dot : name = "" || name = ".")
      (onward : Way t aim links place rest found) : Way t aim links place (name :: rest) found
  | up {links : Nat} {place found : Place} {rest : List String}
      (stands : t.node? place = some .directory)
      (onward : Way t aim links place.dropLast rest found) :
      Way t aim links place (".." :: rest) found
  | link {links : Nat} {place found : Place} {name target : String} {rest : List String}
      (stands : t.node? place = some .directory) (passes : Passes aim name rest)
      (link : t.node? (place ++ [name]) = some (.link target))
      (goesOn : ¬ (rest.isEmpty && aim = .name))
      (onward : Way t aim links (if Path.startOf target.toList = .here then place else [])
        (Path.segments target ++ rest) found) : Way t aim (links + 1) place (name :: rest) found
  | down {links : Nat} {place found : Place} {name : String} {rest : List String}
      (stands : t.node? place = some .directory) (passes : Passes aim name rest)
      (next : t.node? (place ++ [name]) = some .directory)
      (onward : Way t aim links (place ++ [name]) rest found) :
      Way t aim links place (name :: rest) found
  | last {links : Nat} {place : Place} {name : String}
      (stands : t.node? place = some .directory) (passes : Passes aim name [])
      (stops : ∀ target, t.node? (place ++ [name]) = some (.link target) → aim = .name) :
      Way t aim links place [name] (place ++ [name])

protected theorem Way.follow (way : t.Way aim links place names found) :
    t.follow aim links place names = .ok found := by
  induction way with
  | here => rw [FileTree.follow]
  | dot stands dot onward ih => rw [follow_cons_dot stands dot, ih]
  | up stands onward ih => rw [follow_cons_up stands, ih]
  | link stands passes link goesOn onward ih => rw [follow_cons_link stands passes link goesOn, ih]
  | down stands passes next onward ih => rw [follow_cons_node stands passes next (by simp), ih]
  | last stands passes stops => rw [follow_cons_last stands passes stops]

theorem Way.of_follow (followed : t.follow aim links place names = .ok found) :
    t.Way aim links place names found := by
  fun_induction FileTree.follow t aim links place names with
  | case1 links place =>
    cases followed
    exact .here
  | case4 links place name rest node stands directory dot ih =>
    cases eq_directory directory
    exact .dot stands dot (ih followed)
  | case5 links place rest node stands directory notDot ih =>
    cases eq_directory directory
    exact .up stands (ih followed)
  | case8 links place name rest node stands directory notDot notUp slash short target link last =>
    cases eq_directory directory
    cases followed
    obtain ⟨empty, aimed⟩ := Bool.and_eq_true_iff.mp last
    cases List.isEmpty_iff.mp empty
    exact .last stands ⟨notDot, notUp, slash, short⟩ fun _ _ => of_decide_eq_true aimed
  | case10 place name rest node stands directory notDot notUp slash short target link last fewer
      start ih =>
    cases eq_directory directory
    exact .link stands ⟨notDot, notUp, slash, short⟩ link last (ih followed)
  | case11 links place name rest node stands directory notDot notUp slash short next notLink there
      ih =>
    cases eq_directory directory
    have passes : Passes aim name rest := ⟨notDot, notUp, slash, short⟩
    by_cases below : next = .directory
    · exact .down stands passes (there.trans (congrArg some below)) (ih followed)
    · -- Names that go on from here would not have been followed.
      obtain ⟨rfl, rfl⟩ := eq_nil_of_follow followed (by simpa [there] using below)
      exact .last stands passes fun target link =>
        absurd (Option.some.inj (there.symm.trans link)) (notLink target)
  | case12 links place name rest node stands directory notDot notUp slash short absent last =>
    cases eq_directory directory
    cases followed
    cases List.isEmpty_iff.mp last
    refine .last stands ⟨notDot, notUp, slash, short⟩ fun target link => ?_
    cases absent.symm.trans link
  | _ => cases followed

/-- A look-up leads to a place when there is a way to it. -/
theorem follow_eq_ok_iff :
    t.follow aim links place names = .ok found ↔ t.Way aim links place names found :=
  ⟨.of_follow, Way.follow⟩

/-- A way can be gone in every tree that has the same directories and links on it, unless a link
stands at its end there. -/
theorem Way.transfer (way : t.Way aim links place names found)
    (directories : ∀ place, t.node? place = some .directory → t'.node? place = some .directory)
    (throughLinks : ∀ place target, t.node? place = some (.link target) →
      t'.node? place = some (.link target))
    (stops : ∀ target, t'.node? found = some (.link target) →
      t.node? found = some (.link target)) : t'.Way aim links place names found := by
  induction way with
  | here => exact .here
  | dot stands dot onward ih => exact .dot (directories _ stands) dot (ih stops)
  | up stands onward ih => exact .up (directories _ stands) (ih stops)
  | link stands passes link goesOn onward ih =>
    exact .link (directories _ stands) passes (throughLinks _ _ link) goesOn (ih stops)
  | down stands passes next onward ih =>
    exact .down (directories _ stands) passes (directories _ next) (ih stops)
  | last stands passes ends =>
    exact .last (directories _ stands) passes fun target link => ends target (stops target link)

/-- A way leads on from a place only if a directory stands there. -/
theorem Way.directory (way : t.Way aim links place (name :: rest) found) :
    t.node? place = some .directory := by
  cases way <;> assumption

/-- Where the end of a way stands, whatever it comes to first stands, too. -/
theorem Way.next_stands (way : t.Way aim links place (name :: rest) found)
    (passes : Passes aim name rest) (stands : t.node? found ≠ none) :
    t.node? (place ++ [name]) ≠ none := by
  cases way with
  | dot _ dot => exact absurd dot passes.notDot
  | up => exact absurd rfl passes.notUp
  | link _ _ link => simp [link]
  | down _ _ next => simp [next]
  | last => exact stands

end Classpath.FileTree
