import Classpath.FileTree.Walk
import Classpath.Proofs.Distinct
import Classpath.Proofs.FileTree.Writing
import Classpath.Proofs.Path
import Classpath.Proofs.Text.Order
import Mathlib.Data.List.Induction

/-! # Changes below a name that was not in use

A tree may change at a place where nothing stood, and below it. A look-up that does not come to that
place leads where it led before (`Classpath.FileTree.follow_agree`), one that ended there goes on
below it (`Classpath.FileTree.follow_into`), and a directory that is apart from it has the same
files unless a link leads there (`Classpath.FileTree.files_agree`).
-/

namespace Classpath.FileTree

/-- Two trees that differ at most at a place and below it. -/
def Agree (fresh : Place) (t t' : FileTree) : Prop :=
  ∀ place, ¬ fresh <+: place → t'.node? place = t.node? place

/-- The first place where names lead and nothing stands. -/
def missing? (t : FileTree) (links : Nat) (place : Place) : List String → Option Place
  | [] => none
  | name :: rest =>
    if name = "" || name = "." then t.missing? links place rest
    else if name = ".." then t.missing? links place.dropLast rest
    else
      match t.node? (place ++ [name]) with
      | some (.link target) =>
        match links with
        | 0 => none
        | fewer + 1 =>
          let start := if Path.startOf target.toList = .here then place else []
          t.missing? fewer start (Path.segments target ++ rest)
      | some _ => t.missing? links (place ++ [name]) rest
      | none => some (place ++ [name])
termination_by names => (links, names.length)

section Missing

variable {t : FileTree} {links : Nat} {place : Place} {name : String} {rest : List String}

theorem missing?_dot (dot : name = "" || name = ".") :
    t.missing? links place (name :: rest) = t.missing? links place rest := by
  rw [missing?, if_pos dot]

theorem missing?_up :
    t.missing? links place (".." :: rest) = t.missing? links place.dropLast rest := by
  rw [missing?, if_neg (by decide), if_pos rfl]

theorem missing?_absent (notDot : ¬ (name = "" || name = ".")) (notUp : name ≠ "..")
    (absent : t.node? (place ++ [name]) = none) :
    t.missing? links place (name :: rest) = some (place ++ [name]) := by
  rw [missing?, if_neg notDot, if_neg notUp, absent]

theorem missing?_link (notDot : ¬ (name = "" || name = ".")) (notUp : name ≠ "..")
    {target : String} (link : t.node? (place ++ [name]) = some (.link target)) :
    t.missing? (links + 1) place (name :: rest) =
      t.missing? links (if Path.startOf target.toList = .here then place else [])
        (Path.segments target ++ rest) := by
  rw [missing?, if_neg notDot, if_neg notUp, link]

theorem missing?_node (notDot : ¬ (name = "" || name = ".")) (notUp : name ≠ "..") {node : Node}
    (next : t.node? (place ++ [name]) = some node) (notLink : ∀ target, node ≠ .link target) :
    t.missing? links place (name :: rest) = t.missing? links (place ++ [name]) rest := by
  rw [missing?, if_neg notDot, if_neg notUp, next]
  cases node with
  | link target => exact absurd rfl (notLink target)
  | directory => rfl
  | file content modified => rfl
  | pipe => rfl

end Missing

/-- The first place where a text leads and nothing stands. -/
def missingAt? (t : FileTree) (workingDirectory : Path) (s : String) : Option Place :=
  let start := if Path.startOf s.toList = .here then workingDirectory.names else []
  t.missing? linkLimit start (Path.segments s)

theorem not_prefix_dropLast {fresh place : Place} (outside : ¬ fresh <+: place) :
    ¬ fresh <+: place.dropLast :=
  fun below => outside (below.trans (List.dropLast_prefix place))

theorem not_prefix_concat {fresh place : Place} {name : String} (outside : ¬ fresh <+: place)
    (other : place ++ [name] ≠ fresh) : ¬ fresh <+: place ++ [name] := by
  rw [List.prefix_concat_iff]
  rintro (same | below)
  · exact other same.symm
  · exact outside below

/-- Nothing stands below a place where nothing stands. -/
theorem Sound.absent_below {t : FileTree} (sound : t.Sound) {fresh place : Place}
    (absent : t.node? fresh = none) (below : fresh <+: place) : t.node? place = none := by
  obtain ⟨names, rfl⟩ := below
  induction names using List.reverseRecOn with
  | nil => rwa [List.append_nil]
  | append_singleton names name ih =>
    rw [← List.append_assoc]
    cases stands : t.node? (fresh ++ names ++ [name]) with
    | none => rfl
    | some node => cases ih.symm.trans (sound _ _ _ stands)

variable {t t' : FileTree} {fresh : Place}

/-! ## Look-ups that stay outside -/

/-- The start of what a link leads to is outside where the link is. -/
theorem outside_start {place : Place} {target : String} (absent : t.node? fresh = none)
    (outside : ¬ fresh <+: place) :
    ¬ fresh <+: if Path.startOf target.toList = .here then place else [] := by
  split
  · exact outside
  · intro below
    rw [List.prefix_nil.mp below] at absent
    cases absent

theorem outside_next {place : Place} {name : String} {node : Node} (absent : t.node? fresh = none)
    (outside : ¬ fresh <+: place) (stands : t.node? (place ++ [name]) = some node) :
    ¬ fresh <+: place ++ [name] :=
  not_prefix_concat outside fun same => by
    rw [same, absent] at stands
    cases stands

/-- A way that does not come to the place where nothing stands ends outside of it. -/
theorem Way.outside {aim : Aim} {links : Nat} {place found : Place} {names : List String}
    (way : t.Way aim links place names found) (absent : t.node? fresh = none)
    (outside : ¬ fresh <+: place) (passes : t.missing? links place names ≠ some fresh) :
    ¬ fresh <+: found := by
  induction way with
  | here => exact outside
  | dot stands dot onward ih =>
    rw [missing?_dot dot] at passes
    exact ih outside passes
  | up stands onward ih =>
    rw [missing?_up] at passes
    exact ih (not_prefix_dropLast outside) passes
  | link stands plain link goesOn onward ih =>
    rw [missing?_link plain.notDot plain.notUp link] at passes
    exact ih (outside_start absent outside) passes
  | down stands plain next onward ih =>
    rw [missing?_node plain.notDot plain.notUp next (by simp)] at passes
    exact ih (outside_next absent outside next) passes
  | last stands plain stops =>
    refine not_prefix_concat outside fun here => passes ?_
    rw [missing?_absent plain.notDot plain.notUp (here ▸ absent), here]

/-- A look-up that does not come to the place where the trees differ leads where it led. -/
theorem follow_eq_of_agree (agree : t.Agree fresh t') (absent : t.node? fresh = none) {aim : Aim}
    {links : Nat} {place : Place} {names : List String} (outside : ¬ fresh <+: place)
    (passes : t.missing? links place names ≠ some fresh) :
    t'.follow aim links place names = t.follow aim links place names := by
  fun_induction follow t aim links place names with
  | case1 links place => rw [follow]
  | case2 links place name rest nothing => rw [follow, agree place outside, nothing]
  | case3 links place name rest node stands other =>
    rw [follow, agree place outside, stands]
    exact if_pos other
  | case4 links place name rest node stands directory dot ih =>
    cases eq_directory directory
    rw [missing?_dot dot] at passes
    rw [follow_cons_dot ((agree place outside).trans stands) dot]
    exact ih outside passes
  | case5 links place rest node stands directory notDot ih =>
    cases eq_directory directory
    rw [missing?_up] at passes
    rw [follow_cons_up ((agree place outside).trans stands)]
    exact ih (not_prefix_dropLast outside) passes
  | case6 links place name rest node stands directory notDot notUp slash =>
    cases eq_directory directory
    rw [follow_cons ((agree place outside).trans stands), if_neg notDot, if_neg notUp, if_pos slash]
  | case7 links place name rest node stands directory notDot notUp slash long =>
    cases eq_directory directory
    rw [follow_cons_long ((agree place outside).trans stands) notDot notUp slash long]
  | case8 links place name rest node stands directory notDot notUp slash short target link last =>
    cases eq_directory directory
    rw [follow_cons_plain ((agree place outside).trans stands) notDot notUp slash short,
      agree _ (outside_next absent outside link), link]
    exact if_pos last
  | case9 place name rest node stands directory notDot notUp slash short target link last =>
    cases eq_directory directory
    rw [follow_cons_plain ((agree place outside).trans stands) notDot notUp slash short,
      agree _ (outside_next absent outside link), link]
    exact if_neg last
  | case10 place name rest node stands directory notDot notUp slash short target link last fewer
      start ih =>
    cases eq_directory directory
    rw [missing?_link notDot notUp link] at passes
    rw [follow_cons_link ((agree place outside).trans stands) ⟨notDot, notUp, slash, short⟩
      ((agree _ (outside_next absent outside link)).trans link) last]
    exact ih (outside_start absent outside) passes
  | case11 links place name rest node stands directory notDot notUp slash short other notLink there
      ih =>
    cases eq_directory directory
    have next := outside_next absent outside there
    rw [missing?_node notDot notUp there notLink] at passes
    rw [follow_cons_node ((agree place outside).trans stands) ⟨notDot, notUp, slash, short⟩
      ((agree _ next).trans there) notLink]
    exact ih next passes
  | case12 links place name rest node stands directory notDot notUp slash short nothing last
  | case13 links place name rest node stands directory notDot notUp slash short nothing last =>
    cases eq_directory directory
    rw [missing?_absent notDot notUp nothing] at passes
    have next : ¬ fresh <+: place ++ [name] :=
      not_prefix_concat outside fun same => passes (congrArg some same)
    rw [follow_cons_plain ((agree place outside).trans stands) notDot notUp slash short,
      agree _ next, nothing]
    simp [last]

/-- A look-up that does not come to the place where the trees differ leads where it led, and not to
that place. -/
theorem follow_agree (agree : t.Agree fresh t') (absent : t.node? fresh = none) {aim : Aim}
    {links : Nat} {place : Place} {names : List String} (outside : ¬ fresh <+: place)
    (passes : t.missing? links place names ≠ some fresh) :
    t'.follow aim links place names = t.follow aim links place names ∧
      ∀ found, t.follow aim links place names = .ok found → ¬ fresh <+: found :=
  ⟨follow_eq_of_agree agree absent outside passes,
    fun _ followed => (Way.of_follow followed).outside absent outside passes⟩

/-! ## Look-ups that go on below -/

/-- A look-up that ended where the trees differ goes on from there when a directory stands there. -/
theorem follow_into (agree : t.Agree fresh t') (absent : t.node? fresh = none)
    (stands : t'.node? fresh = some .directory) {aim : Aim} (aim' : Aim) {links : Nat}
    {place : Place} {names : List String} (outside : ¬ fresh <+: place)
    (followed : t.follow aim links place names = .ok fresh) (rest : List String)
    (some_name : rest.all String.isEmpty = false) :
    ∃ fewer, t'.follow aim' links place (names ++ rest) = t'.follow aim' fewer fresh rest := by
  have onward' : ∀ {name : String} {before : List String}, Passes aim name before →
      Passes aim' name (before ++ rest) := fun passes =>
    ⟨passes.notDot, passes.notUp, by simp [List.all_append, some_name], passes.short⟩
  have some_rest : rest ≠ [] := by
    rintro rfl
    cases some_name
  rw [follow_eq_ok_iff] at followed
  induction followed with
  | here => exact absurd List.prefix_rfl outside
  | dot here dot onward ih =>
    rw [List.cons_append, follow_cons_dot ((agree _ outside).trans here) dot]
    exact ih agree absent stands outside
  | up here onward ih =>
    rw [List.cons_append, follow_cons_up ((agree _ outside).trans here)]
    exact ih agree absent stands (not_prefix_dropLast outside)
  | link here passes link goesOn onward ih =>
    rw [List.cons_append, follow_cons_link ((agree _ outside).trans here) (onward' passes)
      ((agree _ (outside_next absent outside link)).trans link) (by simp [some_rest]),
      ← List.append_assoc]
    exact ih agree absent stands (outside_start absent outside)
  | down here passes next onward ih =>
    have outside' := outside_next absent outside next
    rw [List.cons_append, follow_cons_node ((agree _ outside).trans here) (onward' passes)
      ((agree _ outside').trans next) (by simp)]
    exact ih agree absent stands outside'
  | @last links place name here passes stops =>
    refine ⟨links, ?_⟩
    rw [List.cons_append, follow_cons_node ((agree _ outside).trans here) (onward' passes) stands
      (by simp), List.nil_append]

/-- A name in a directory leads to itself, if it is short enough and no link. -/
theorem follow_child {place : Place} {name : String} (stands : t.node? place = some .directory)
    (named : Path.IsName name) (notUp : name ≠ "..")
    (noLink : ∀ target, t.node? (place ++ [name]) ≠ some (.link target)) (aim : Aim) (links : Nat) :
    t.follow aim links place [name] =
      if nameLimit < name.utf8ByteSize then .error .nameTooLong else .ok (place ++ [name]) := by
  have notDot : ¬ (name = "" || name = ".") := by simp [named.1, named.2.1]
  by_cases long : nameLimit < name.utf8ByteSize
  · rw [if_pos long, follow_cons_long stands notDot notUp (by simp) long]
  · rw [if_neg long]
    exact follow_cons_last stands ⟨notDot, notUp, by simp, long⟩ fun target link =>
      absurd link (noLink target)

/-- Where a name leads that is looked for in a place itself. -/
def entry (t : FileTree) (name : String) (place : Place) : Except FileFault Place :=
  match t.node? place with
  | none => .error .noEntry
  | some node =>
    if !node.isDirectory then .error .notDirectory
    else if nameLimit < name.utf8ByteSize then .error .nameTooLong
    else .ok (place ++ [name])

/-- A name alone is looked for in a directory. -/
theorem follow_name {links : Nat} {place : Place} {name : String} (named : Path.IsName name)
    (notUp : name ≠ "..") : t.follow .name links place [name] = t.entry name place := by
  cases stands : t.node? place with
  | none => rw [follow, entry, stands]
  | some node =>
    by_cases other : (!node.isDirectory) = true
    · rw [follow, entry, stands]
      dsimp only
      rw [if_pos other, if_pos other]
    cases eq_directory other
    have notDot : ¬ (name = "" || name = ".") := by simp [named.1, named.2.1]
    rw [entry, stands]
    by_cases long : nameLimit < name.utf8ByteSize
    · rw [follow_cons_long stands notDot notUp (by simp) long]
      simp [long, Node.isDirectory]
    · rw [follow_cons_last stands ⟨notDot, notUp, by simp, long⟩ fun _ _ => rfl]
      simp [long, Node.isDirectory]

/-- A last name is looked for where the names before it lead. -/
theorem follow_concat {links : Nat} {place : Place} {names : List String} {name : String}
    (named : Path.IsName name) (notUp : name ≠ "..") :
    t.follow .name links place (names ++ [name]) =
      t.follow .target links place names >>= t.entry name := by
  have noSlash : ∀ names : List String,
      ¬ (Aim.name = .newFile && !names.isEmpty && names.all String.isEmpty) = true := by
    simp
  have goesOn : ∀ names : List String, (names ++ [name]).isEmpty = false := by
    simp
  fun_induction follow t .target links place names with
  | case1 links place => exact follow_name named notUp
  | case2 links place other rest nothing =>
    rw [List.cons_append, follow, nothing]
    rfl
  | case3 links place other rest node here notDirectory =>
    rw [List.cons_append, follow, here]
    exact if_pos notDirectory
  | case4 links place other rest node here directory dot ih =>
    cases eq_directory directory
    rw [List.cons_append, follow_cons_dot here dot, ih]
  | case5 links place rest node here directory notDot ih =>
    cases eq_directory directory
    rw [List.cons_append, follow_cons_up here, ih]
  | case6 links place other rest node here directory notDot otherNotUp slash => simp at slash
  | case7 links place other rest node here directory notDot otherNotUp slash long =>
    cases eq_directory directory
    rw [List.cons_append, follow_cons_long here notDot otherNotUp (noSlash _) long]
    rfl
  | case8 links place other rest node here directory notDot otherNotUp slash short target link
      last =>
    simp at last
  | case9 place other rest node here directory notDot otherNotUp slash short target link last =>
    cases eq_directory directory
    rw [List.cons_append, follow_cons_plain here notDot otherNotUp (noSlash _) short, link]
    simp only [goesOn, Bool.false_and, Bool.false_eq_true, ↓reduceIte]
    rfl
  | case10 place other rest node here directory notDot otherNotUp slash short target link last fewer
      start ih =>
    cases eq_directory directory
    rw [List.cons_append, follow_cons_link here ⟨notDot, otherNotUp, noSlash _, short⟩ link
      (by simp [goesOn]), ← List.append_assoc]
    exact ih
  | case11 links place other rest node here directory notDot otherNotUp slash short next notLink
      there ih =>
    cases eq_directory directory
    rw [List.cons_append, follow_cons_node here ⟨notDot, otherNotUp, noSlash _, short⟩ there
      notLink, ih]
  | case12 links place other rest node here directory notDot otherNotUp slash short nothing last =>
    cases eq_directory directory
    rw [List.isEmpty_iff.mp last]
    rw [List.cons_append, follow_cons_plain here notDot otherNotUp (noSlash _) short, nothing]
    simp [entry, nothing, bind, Except.bind]
  | case13 links place other rest node here directory notDot otherNotUp slash short nothing last =>
    cases eq_directory directory
    rw [List.cons_append, follow_cons_plain here notDot otherNotUp (noSlash _) short, nothing]
    simp [bind, Except.bind]

/-- A last name is looked for in a directory. -/
theorem follow_above {links : Nat} {place : Place} {names : List String} {name : String}
    (named : Path.IsName name) (notUp : name ≠ "..")
    (followed : t.follow .name links place (names ++ [name]) = .ok fresh) :
    ∃ top, t.follow .target links place names = .ok top ∧ t.node? top = some .directory ∧
      fresh = top ++ [name] := by
  rw [follow_concat named notUp] at followed
  cases above : t.follow .target links place names with
  | error fault => simp [above, bind, Except.bind] at followed
  | ok top =>
    simp only [above, bind, Except.bind, entry] at followed
    split at followed
    · cases followed
    next node stands =>
      split at followed
      · cases followed
      next directory =>
        split at followed
        · cases followed
        · rw [eq_directory directory] at stands
          exact ⟨top, rfl, stands, (Except.ok.inj followed).symm⟩

/-! ## Places where nothing stands -/

/-- Names that lead to a place where nothing stands come to no other such place, and nothing leads
on from there. -/
theorem missing?_of_follow (sound : t.Sound) {aim : Aim} {links : Nat} {place found : Place}
    {names : List String} (stands : t.node? place ≠ none)
    (followed : t.follow aim links place names = .ok found) (absent : t.node? found = none)
    (rest : List String) : t.missing? links place (names ++ rest) = some found := by
  rw [follow_eq_ok_iff] at followed
  induction followed with
  | here => exact absurd absent stands
  | dot here dot onward ih =>
    rw [List.cons_append, missing?_dot dot]
    exact ih stands absent
  | up here onward ih =>
    have above := sound.node?_dropLast here
    rw [List.cons_append, missing?_up]
    exact ih (by simp [above]) absent
  | link here passes link goesOn onward ih =>
    rw [List.cons_append, missing?_link passes.notDot passes.notUp link, ← List.append_assoc]
    refine ih ?_ absent
    split
    · exact stands
    · simp
  | down here passes next onward ih =>
    rw [List.cons_append, missing?_node passes.notDot passes.notUp next (by simp)]
    exact ih (by simp [next]) absent
  | last here passes stops =>
    rw [List.cons_append, missing?_absent passes.notDot passes.notUp absent]

/-- Names that lead to where something stands come to no place where nothing does. -/
theorem missing?_eq_none {links : Nat} {place found : Place} {names : List String}
    (followed : t.follow .target links place names = .ok found) (stands : t.node? found ≠ none) :
    t.missing? links place names = none := by
  rw [follow_eq_ok_iff] at followed
  induction followed with
  | here => rw [missing?]
  | dot here dot onward ih => rw [missing?_dot dot, ih stands]
  | up here onward ih => rw [missing?_up, ih stands]
  | link here passes link goesOn onward ih =>
    rw [missing?_link passes.notDot passes.notUp link, ih stands]
  | down here passes next onward ih =>
    rw [missing?_node passes.notDot passes.notUp next (by simp), ih stands]
  | last here passes stops =>
    obtain ⟨node, next⟩ := Option.ne_none_iff_exists'.mp stands
    have notLink : ∀ target, node ≠ .link target := by
      rintro target rfl
      cases stops target next
    rw [missing?_node passes.notDot passes.notUp next notLink, missing?]

/-! ## Texts -/

theorem startOf_text {p : Path} (canonical : p.Canonical) : Path.startOf p.text.toList ≠ .here := by
  have again := congrArg Path.start canonical.ofText_text
  have notHere : p.start ≠ .here := by simpa [Path.isAbsolute] using canonical.rooted
  exact fun here => notHere (again.symm.trans here)

/-- The names of a canonical path stand after the empty names of its slashes. -/
theorem exists_segments_text {p : Path} (canonical : p.Canonical) :
    ∃ n, Path.segments p.text = List.replicate n "" ++ p.names := by
  rw [Path.segments, Path.splitOn_text canonical.rooted canonical.normal, Path.parts,
    List.map_append, List.map_replicate]
  cases names : p.names with
  | nil => exact ⟨p.start.slashes + 1, by simp [List.replicate_succ']⟩
  | cons name rest => exact ⟨p.start.slashes, by simp [Function.comp_def]⟩

/-- The slashes in front of an absolute path do not count. -/
theorem follow_slashes (t : FileTree) (aim : Aim) (links n : Nat) (names : List String) :
    t.follow aim links [] (List.replicate n "" ++ names) = t.follow aim links [] names := by
  induction n with
  | zero => rfl
  | succ n ih =>
    rw [List.replicate_succ, List.cons_append, follow_cons (node?_nil t), if_pos (by simp), ih]

/-- A look-up of a canonical path follows its names from the root. -/
theorem locate_text (t : FileTree) {p : Path} (canonical : p.Canonical) (aim : Aim)
    (workingDirectory : Path) :
    t.locate aim workingDirectory p.text =
      if pathLimit ≤ p.text.utf8ByteSize then .error .nameTooLong
      else t.follow aim linkLimit [] p.names := by
  obtain ⟨n, segments⟩ := exists_segments_text canonical
  have some_text : p.text.isEmpty = false := by
    rw [Bool.eq_false_iff]
    intro empty
    have first := Path.head?_text canonical.rooted
    rw [String.isEmpty_iff.mp empty] at first
    cases first
  rw [locate, some_text]
  simp only [startOf_text canonical, ↓reduceIte, Bool.false_eq_true, segments, follow_slashes]

theorem missingAt?_text (t : FileTree) {p : Path} (canonical : p.Canonical)
    (workingDirectory : Path) :
    t.missingAt? workingDirectory p.text = t.missing? linkLimit [] p.names := by
  have slashes : ∀ n, t.missing? linkLimit [] (List.replicate n "" ++ p.names) =
      t.missing? linkLimit [] p.names := by
    intro n
    induction n with
    | zero => rfl
    | succ n ih => rw [List.replicate_succ, List.cons_append, missing?, if_pos (by simp), ih]
  obtain ⟨n, segments⟩ := exists_segments_text canonical
  simp only [missingAt?, startOf_text canonical, ↓reduceIte, segments, slashes]

theorem missingAt?_eq_none {workingDirectory : Path} {s : String} {place : Place} {node : Node}
    (found : t.status workingDirectory s = .ok (place, node)) :
    t.missingAt? workingDirectory s = none := by
  obtain ⟨located, stands⟩ := status_eq_ok_iff.mp found
  exact missing?_eq_none (locate_eq_ok_iff.mp located).2.2 (by simp [stands])

/-- What a look-up of a text finds does not change when it does not come to the place where the
trees differ. -/
theorem locate_agree (agree : t.Agree fresh t') (absent : t.node? fresh = none) (aim : Aim)
    {workingDirectory : Path} {s : String} (outside : ¬ fresh <+: workingDirectory.names)
    (passes : t.missingAt? workingDirectory s ≠ some fresh) :
    t'.locate aim workingDirectory s = t.locate aim workingDirectory s ∧
      ∀ found, t.locate aim workingDirectory s = .ok found → ¬ fresh <+: found := by
  unfold locate
  split
  · exact ⟨rfl, fun _ here => by cases here⟩
  split
  · exact ⟨rfl, fun _ here => by cases here⟩
  refine follow_agree agree absent ?_ passes
  split
  · exact outside
  · intro below
    rw [List.prefix_nil.mp below] at absent
    cases absent

theorem status_agree (agree : t.Agree fresh t') (absent : t.node? fresh = none)
    {workingDirectory : Path} {s : String} (outside : ¬ fresh <+: workingDirectory.names)
    (passes : t.missingAt? workingDirectory s ≠ some fresh) :
    t'.status workingDirectory s = t.status workingDirectory s := by
  obtain ⟨same, apart⟩ := locate_agree agree absent .target outside passes
  cases found : t.locate .target workingDirectory s with
  | error fault => simp only [status, same, found, bind, Except.bind]
  | ok place => simp only [status, same, found, bind, Except.bind, agree place (apart place found)]

end Classpath.FileTree
