import Classpath.Proofs.Action
import Classpath.Proofs.Graph.Update
import Classpath.Resolver

/-! # Sources that give no graph

Building a graph puts the questions of `Classpath.Source.queries` in order: the classes, the
location of each class that is enumerated, and what each distinct one of them refers to. A question
fails when the source fails to answer it and when the answer is of no use
(`Classpath.Source.FailsAt`). The graph is built exactly when no question fails, and otherwise the
first failing question says with what the building ends (`Classpath.Graph.ofSource_eq_error_iff`).
A run over such a source ends in the same way and leaves everything as it was
(`Classpath.Graph.ofSource_refuses`).
-/

namespace Classpath

namespace Name

/-- Add a name to some names unless it is the same as one of them. -/
def adjoin (seen : List Name) (name : Name) : List Name :=
  if seen.any (same name) then seen else seen ++ [name]

theorem distinct_eq_foldl (names : List Name) : distinct names = names.foldl adjoin [] :=
  rfl

end Name

/-! ## Questions -/

namespace Source

/-- A question that a source is asked for its graph. -/
inductive Query where
  | classes
  /-- Where a class resides, by the value that was enumerated for it. -/
  | location (answer : Value)
  | dependencies (name : Name)

/-- The classes that a source enumerates, in its order and with its repeats. -/
def enumerated (s : Source) : List Value :=
  (s.classes.toOption.bind Value.members?).getD []

/-- The questions for the graph of a source, in the order in which they are asked. -/
def queries (s : Source) : List Query :=
  .classes :: (s.enumerated.map .location ++
    (Name.distinct (s.enumerated.filterMap (·.asName.toOption))).map .dependencies)

/-- How a question fails: the source fails to answer it, or the graph has no use for the answer. -/
inductive FailsAt (workingDirectory : Path) (s : Source) : Query → Failure → Prop
  | classes {failure : Failure} (failed : s.classes = .error failure) :
      FailsAt workingDirectory s .classes failure
  | uncountable {answer : Value} (answered : s.classes = .ok answer)
      (single : answer.members? = none) :
      FailsAt workingDirectory s .classes (.fault (.notIterable answer.kind))
  | location {answer : Value} {failure : Failure} (failed : s.location answer = .error failure) :
      FailsAt workingDirectory s (.location answer) failure
  | nameless {answer : Value} {spelling : Option Location.Spelling} {fault : Fault}
      (answered : s.location answer = .ok spelling) (refused : answer.asName = .error fault) :
      FailsAt workingDirectory s (.location answer) (.fault fault)
  | misplaced {answer : Value} {spelling : Location.Spelling} {name : Name} {fault : Fault}
      (answered : s.location answer = .ok (some spelling)) (named : answer.asName = .ok name)
      (refused : Location.of workingDirectory spelling = .error fault) :
      FailsAt workingDirectory s (.location answer) (.fault fault)
  | dependencies {name : Name} {failure : Failure}
      (failed : s.dependencies name.toValue = .error failure) :
      FailsAt workingDirectory s (.dependencies name) failure
  | unusable {name : Name} {answer : Value} {fault : Fault}
      (answered : s.dependencies name.toValue = .ok answer)
      (refused : answer.asNames = .error fault) :
      FailsAt workingDirectory s (.dependencies name) (.fault fault)

/-- The first of some questions that fails, and how. -/
inductive FirstFails (workingDirectory : Path) (s : Source) : List Query → Failure → Prop
  | here {query : Query} {rest : List Query} {failure : Failure}
      (fails : s.FailsAt workingDirectory query failure) :
      FirstFails workingDirectory s (query :: rest) failure
  | later {query : Query} {rest : List Query} {failure : Failure}
      (answered : ∀ other, ¬s.FailsAt workingDirectory query other)
      (first : FirstFails workingDirectory s rest failure) :
      FirstFails workingDirectory s (query :: rest) failure

section

variable {workingDirectory : Path} {s : Source} {failure : Failure}

@[simp] theorem not_firstFails_nil : ¬s.FirstFails workingDirectory [] failure :=
  nofun

theorem firstFails_cons {query : Query} {rest : List Query} :
    s.FirstFails workingDirectory (query :: rest) failure ↔
      s.FailsAt workingDirectory query failure ∨
        (∀ other, ¬s.FailsAt workingDirectory query other) ∧
          s.FirstFails workingDirectory rest failure := by
  constructor
  · rintro (fails | ⟨answered, first⟩)
    · exact Or.inl fails
    · exact Or.inr ⟨answered, first⟩
  · rintro (fails | ⟨answered, first⟩)
    · exact .here fails
    · exact .later answered first

/-- Among the questions of two lists the first failing one is in the first list, or it is the first
failing one of the second list and none of the first list fails. -/
theorem firstFails_append {before after : List Query} :
    s.FirstFails workingDirectory (before ++ after) failure ↔
      s.FirstFails workingDirectory before failure ∨
        (∀ other, ¬s.FirstFails workingDirectory before other) ∧
          s.FirstFails workingDirectory after failure := by
  induction before with
  | nil => simp
  | cons query rest ih =>
    rw [List.cons_append, firstFails_cons, ih]
    constructor
    · rintro (fails | ⟨answered, first | ⟨none, first⟩⟩)
      · exact Or.inl (.here fails)
      · exact Or.inl (.later answered first)
      · refine Or.inr ⟨fun other failing => ?_, first⟩
        exact (firstFails_cons.mp failing).elim (answered other) fun rest => none other rest.2
    · rintro (first | ⟨none, first⟩)
      · exact (firstFails_cons.mp first).imp_right (.imp_right Or.inl)
      · have answered : ∀ other, ¬s.FailsAt workingDirectory query other :=
          fun other fails => none other (.here fails)
        have absent : ∀ other, ¬s.FirstFails workingDirectory rest other :=
          fun other later => none other (.later answered later)
        exact Or.inr ⟨answered, Or.inr ⟨absent, first⟩⟩

/-- Some question fails exactly when there is a first one that does. -/
theorem exists_firstFails_iff {queries : List Query} :
    (∃ failure, s.FirstFails workingDirectory queries failure) ↔
      ∃ query ∈ queries, ∃ failure, s.FailsAt workingDirectory query failure := by
  induction queries with
  | nil => simp
  | cons query rest ih =>
    simp only [firstFails_cons, List.mem_cons, exists_eq_or_imp, ← ih]
    constructor
    · rintro ⟨failure, fails | ⟨-, first⟩⟩
      · exact Or.inl ⟨failure, fails⟩
      · exact Or.inr ⟨failure, first⟩
    · rintro (⟨failure, fails⟩ | ⟨failure, first⟩)
      · exact ⟨failure, Or.inl fails⟩
      · by_cases here : ∃ other, s.FailsAt workingDirectory query other
        · exact here.imp fun _ => Or.inl
        · exact ⟨failure, Or.inr ⟨not_exists.mp here, first⟩⟩

/-- A question fails in one way at most. -/
theorem FailsAt.unique {query : Query} {other : Failure}
    (fails : s.FailsAt workingDirectory query failure)
    (fails' : s.FailsAt workingDirectory query other) : failure = other := by
  cases fails <;> cases fails' <;> simp_all

theorem FirstFails.unique {queries : List Query} {other : Failure}
    (first : s.FirstFails workingDirectory queries failure)
    (first' : s.FirstFails workingDirectory queries other) : failure = other := by
  induction first with
  | here fails =>
    rcases firstFails_cons.mp first' with fails' | ⟨answered, -⟩
    · exact fails.unique fails'
    · exact absurd fails (answered _)
  | later answered _ ih =>
    rcases firstFails_cons.mp first' with fails' | ⟨-, later⟩
    · exact absurd fails' (answered _)
    · exact ih later

variable {α β : Type}

/-- What comes of asking some questions: the first failure, or a result that is good. -/
inductive Yields (workingDirectory : Path) (s : Source) (queries : List Query)
    (good : α → Prop) : Except Failure α → Prop
  | failed {failure : Failure} (first : s.FirstFails workingDirectory queries failure) :
      Yields workingDirectory s queries good (.error failure)
  | answered {a : α} (none : ∀ failure, ¬s.FirstFails workingDirectory queries failure)
      (holds : good a) : Yields workingDirectory s queries good (.ok a)

theorem Yields.ok {good : α → Prop} {a : α} (holds : good a) :
    Yields workingDirectory s [] good (.ok a) :=
  .answered (fun _ => not_firstFails_nil) holds

/-- Questions are asked after others only when none of those fails. -/
theorem Yields.bind {before after : List Query} {good : α → Prop} {better : β → Prop}
    {outcome : Except Failure α} {next : α → Except Failure β}
    (asked : s.Yields workingDirectory before good outcome)
    (goesOn : ∀ a, good a → s.Yields workingDirectory after better (next a)) :
    s.Yields workingDirectory (before ++ after) better (outcome >>= next) := by
  cases asked with
  | failed first => exact .failed (firstFails_append.mpr (Or.inl first))
  | answered none holds =>
    rename_i a
    change s.Yields workingDirectory (before ++ after) better (next a)
    generalize ended : next a = outcome
    rcases ended ▸ goesOn a holds with first | ⟨none', holds'⟩
    · exact .failed (firstFails_append.mpr (Or.inr ⟨none, first⟩))
    · refine .answered (fun failure first => ?_) holds'
      exact (firstFails_append.mp first).elim (none failure) fun later => none' failure later.2

theorem Yields.weaken {queries : List Query} {good better : α → Prop}
    {outcome : Except Failure α}
    (asked : s.Yields workingDirectory queries good outcome) (more : ∀ a, good a → better a) :
    s.Yields workingDirectory queries better outcome := by
  cases asked with
  | failed first => exact .failed first
  | answered none holds => exact .answered none (more _ holds)

theorem firstFails_singleton {query : Query} :
    s.FirstFails workingDirectory [query] failure ↔ s.FailsAt workingDirectory query failure := by
  simp [firstFails_cons]

end

end Source

/-- A run over a source that gives no graph ends with the failure of the source and changes
nothing. -/
theorem Resolver.start_run_of_error (r : Resolver) {s : Source} {w : Workspace} {failure : Failure}
    (failed : Graph.ofSource w.workingDirectory s r.sourceName = .error failure)
    (request : Request) : (r.run s request).start w = (.error failure, w) := by
  simp only [run, Action.start_bind, Action.start_get, Action.start_ofFailure, failed]

namespace Graph

open Source

variable {g last : Graph} {workingDirectory : Path} {s : Source} {failure : Failure}

/-! ## Classes and their locations -/

theorem names_insert_eq (g : Graph) (name : Name) :
    (g.insert name).names = Name.adjoin g.names name := by
  unfold insert Name.adjoin
  cases number : g.number? name with
  | some i =>
    obtain ⟨before, after, split, -⟩ := List.lookup_eq_some_iff.mp number
    have present : g.nameFor name ∈ g.names := by simp [names, split]
    rw [if_pos]
    cases found : g.names.find? (Name.same name) with
    | some first =>
      exact List.any_eq_true.mpr
        ⟨first, List.mem_of_find?_eq_some found, List.find?_some found⟩
    | none =>
      have itself : g.nameFor name = name := by simp [nameFor, Name.among, found]
      exact List.any_eq_true.mpr ⟨name, itself ▸ present, Name.same_self name⟩
  | none =>
    rw [if_neg]
    · simp [names]
    · intro alike
      obtain ⟨first, found⟩ := Option.isSome_iff_exists.mp (List.find?_isSome.mpr
        (List.any_eq_true.mp alike))
      have chosen : g.nameFor name ∈ g.names := by
        simpa [nameFor, Name.among, found] using List.mem_of_find?_eq_some found
      obtain ⟨entry, member, same⟩ := List.mem_map.mp chosen
      have differs := List.lookup_eq_none_iff.mp number entry member
      simp [same] at differs

/-- A class is named whether its location is refused or not. -/
theorem names_addClass (workingDirectory : Path) (g : Graph) (name : Name)
    (spelling : Option Location.Spelling) :
    (g.addClass workingDirectory name spelling).1.names = Name.adjoin g.names name := by
  cases spelling with
  | none => exact names_insert_eq g name
  | some place =>
    cases found : Location.of workingDirectory place <;>
      simp [addClass, found, names_insert_eq]

theorem snd_addClass_eq_some {name : Name} {spelling : Option Location.Spelling} {fault : Fault} :
    (g.addClass workingDirectory name spelling).2 = some fault ↔
      ∃ place, spelling = some place ∧ Location.of workingDirectory place = .error fault := by
  cases spelling with
  | none => simp [addClass]
  | some place => cases found : Location.of workingDirectory place <;> simp [addClass, found]

/-- The step of adding one class. -/
def addAnswer (workingDirectory : Path) (s : Source) (g : Graph) (answer : Value) :
    Except Failure Graph := do
  let spelling ← s.location answer
  let name ← asked answer.asName
  match (g.addClass workingDirectory name spelling).2 with
  | none => .ok (g.addClass workingDirectory name spelling).1
  | some fault => .error (.fault fault)

theorem addClasses_cons (answer : Value) (rest : List Value) :
    g.addClasses workingDirectory s (answer :: rest) =
      g.addAnswer workingDirectory s answer >>= (addClasses workingDirectory s · rest) := by
  rw [addClasses, addAnswer]
  cases s.location answer with
  | error failure => rfl
  | ok spelling =>
    cases answer.asName with
    | error fault => rfl
    | ok name =>
      simp only [asked, Action.mapError_ok, bind, Except.bind]
      rcases g.addClass workingDirectory name spelling with ⟨next, fault | fault⟩ <;> rfl

theorem yields_addAnswer (g : Graph) (answer : Value) :
    s.Yields workingDirectory [.location answer]
      (fun next => ∃ name, answer.asName = .ok name ∧ next.names = Name.adjoin g.names name)
      (g.addAnswer workingDirectory s answer) := by
  unfold addAnswer
  cases located : s.location answer with
  | error failure => exact .failed (.here (.location located))
  | ok spelling =>
    cases named : answer.asName with
    | error fault => exact .failed (.here (.nameless located named))
    | ok name =>
      simp only [asked, Action.mapError_ok, bind, Except.bind]
      cases added : (g.addClass workingDirectory name spelling).2 with
      | none =>
        refine .answered (fun failure first => ?_) ⟨name, rfl, names_addClass ..⟩
        cases firstFails_singleton.mp first with
        | location failed => simp [failed] at located
        | nameless answered refused => simp [refused] at named
        | misplaced answered _ refused =>
          rw [answered, Except.ok.injEq] at located
          exact nomatch added.symm.trans (snd_addClass_eq_some.mpr ⟨_, located.symm, refused⟩)
      | some fault =>
        obtain ⟨place, rfl, refused⟩ := snd_addClass_eq_some.mp added
        exact .failed (.here (.misplaced located named refused))

/-- Adding classes asks for their locations in order and names the ones that have names. -/
theorem yields_addClasses (g : Graph) (answers : List Value) :
    s.Yields workingDirectory (answers.map .location)
      (fun last => last.names = (answers.filterMap (·.asName.toOption)).foldl Name.adjoin g.names)
      (g.addClasses workingDirectory s answers) := by
  induction answers generalizing g with
  | nil => exact .ok rfl
  | cons answer rest ih =>
    rw [addClasses_cons, List.map_cons, ← List.singleton_append]
    refine (yields_addAnswer g answer).bind fun next ⟨name, named, names⟩ => ?_
    refine (ih next).weaken fun last built => built.trans ?_
    simp [named, names, Except.toOption]

/-! ## Dependencies -/

theorem addNamed_eq (g : Graph) (source : Name) (target : Value) :
    g.addNamed source.toValue target =
      match target.asName with
      | .error fault => (g.insert source, some fault)
      | .ok target => (g.addDependency source target, none) := by
  cases named : target.asName <;> simp [addNamed, named]

/-- What a class refers to is added unless one of the answers is no name. -/
theorem addDependencies_ok_or_error (g : Graph) (source : Name) (answers : List Value) :
    (∃ names last, answers.mapM Value.asName = .ok names ∧
      g.addDependencies source answers = .ok last) ∨
    ∃ fault, answers.mapM Value.asName = .error fault ∧
      g.addDependencies source answers = .error (.fault fault) := by
  induction answers generalizing g with
  | nil => exact Or.inl ⟨[], g, rfl, rfl⟩
  | cons answer rest ih =>
    rw [addDependencies, addNamed_eq, List.mapM_cons]
    cases answer.asName with
    | error fault => exact Or.inr ⟨fault, rfl, rfl⟩
    | ok target =>
      rcases ih (g.addDependency source target) with ⟨names, last, read, built⟩ |
        ⟨fault, read, ended⟩
      · exact Or.inl ⟨target :: names, last, by rw [read]; rfl, built⟩
      · exact Or.inr ⟨fault, by rw [read]; rfl, ended⟩

/-- The step of asking for what one class refers to. -/
def addReferred (s : Source) (g : Graph) (name : Name) : Except Failure Graph := do
  let answer ← s.dependencies name.toValue
  match answer.members? with
  | none => .error (.fault (.notIterable answer.kind))
  | some members => g.addDependencies name members

theorem addAllDependencies_cons (name : Name) (rest : List Name) :
    g.addAllDependencies s (name :: rest) =
      g.addReferred s name >>= (addAllDependencies s · rest) := by
  rw [addAllDependencies, addReferred]
  cases s.dependencies name.toValue with
  | error failure => rfl
  | ok answer =>
    simp only [bind, Except.bind]
    cases answer.members? <;> rfl

theorem yields_addReferred (g : Graph) (name : Name) :
    s.Yields workingDirectory [.dependencies name] (fun _ => True) (g.addReferred s name) := by
  unfold addReferred
  cases referred : s.dependencies name.toValue with
  | error failure => exact .failed (.here (.dependencies referred))
  | ok answer =>
    have refuses : ∀ {failure : Failure},
        s.FailsAt workingDirectory (.dependencies name) failure →
          ∃ fault, answer.asNames = .error fault := by
      intro failure fails
      cases fails with
      | dependencies failed => simp [failed] at referred
      | unusable answered refused =>
        rw [answered, Except.ok.injEq] at referred
        exact ⟨_, referred ▸ refused⟩
    simp only [bind, Except.bind]
    cases listed : answer.members? with
    | none => exact .failed (.here (.unusable referred (by simp [Value.asNames, listed])))
    | some members =>
      have names : answer.asNames = members.mapM Value.asName := by simp [Value.asNames, listed]
      rcases addDependencies_ok_or_error g name members with ⟨targets, last, read, built⟩ |
        ⟨fault, read, ended⟩
      · dsimp only
        rw [built]
        refine .answered (fun failure first => ?_) trivial
        obtain ⟨fault, refused⟩ := refuses (firstFails_singleton.mp first)
        exact nomatch (names.trans read).symm.trans refused
      · dsimp only
        rw [ended]
        exact .failed (.here (.unusable referred (names.trans read)))

theorem yields_addAllDependencies (g : Graph) (classes : List Name) :
    s.Yields workingDirectory (classes.map .dependencies) (fun _ => True)
      (g.addAllDependencies s classes) := by
  induction classes generalizing g with
  | nil => exact .ok trivial
  | cons name rest ih =>
    rw [addAllDependencies_cons, List.map_cons, ← List.singleton_append]
    exact (yields_addReferred g name).bind fun next _ => ih next

/-! ## The whole graph -/

/-- The classes that a source enumerates, if it does. -/
def enumeration (s : Source) : Except Failure (List Value) := do
  let answer ← s.classes
  match answer.members? with
  | none => .error (.fault (.notIterable answer.kind))
  | some members => .ok members

/-- What comes of the questions to a source. -/
def questioned (workingDirectory : Path) (s : Source) : Except Failure Graph := do
  let g ← empty.addClasses workingDirectory s (← enumeration s)
  g.addAllDependencies s g.names

theorem ofSource_eq (workingDirectory : Path) (s : Source) (name : Option String) :
    ofSource workingDirectory s name =
      (questioned workingDirectory s).mapError (unavailable (label s name)) := by
  unfold ofSource questioned enumeration
  cases s.classes with
  | error failure => rfl
  | ok answer =>
    simp only [bind, Except.bind]
    cases answer.members? <;> rfl

theorem yields_enumeration (workingDirectory : Path) (s : Source) :
    s.Yields workingDirectory [.classes] (fun members => s.enumerated = members)
      (enumeration s) := by
  unfold enumeration enumerated
  cases classes : s.classes with
  | error failure => exact .failed (.here (.classes classes))
  | ok answer =>
    simp only [bind, Except.bind]
    cases listed : answer.members? with
    | none => exact .failed (.here (.uncountable classes listed))
    | some members =>
      refine .answered (fun failure first => ?_) (by simp [Except.toOption, listed])
      cases firstFails_singleton.mp first with
      | classes failed => simp [failed] at classes
      | uncountable answered single =>
        rw [answered, Except.ok.injEq] at classes
        simp [← classes, single] at listed

/-- A graph comes of the questions to a source unless one of them fails. -/
theorem yields_questioned (workingDirectory : Path) (s : Source) :
    s.Yields workingDirectory s.queries (fun _ => True) (questioned workingDirectory s) := by
  refine (yields_enumeration workingDirectory s).bind fun members listed => ?_
  rw [listed]
  refine (yields_addClasses empty members).bind fun g names => ?_
  have distinct : g.names = Name.distinct (members.filterMap (·.asName.toOption)) :=
    names.trans (Name.distinct_eq_foldl _).symm
  rw [← distinct]
  exact yields_addAllDependencies g g.names

theorem exists_ofSource_iff (name : Option String) :
    (∃ g, ofSource workingDirectory s name = .ok g) ↔
      ∀ query ∈ s.queries, ∀ failure, ¬s.FailsAt workingDirectory query failure := by
  have yields := yields_questioned workingDirectory s
  rw [ofSource_eq]
  generalize questioned workingDirectory s = outcome at yields
  rcases yields with first | ⟨none, -⟩
  · obtain ⟨query, member, failure, fails⟩ := exists_firstFails_iff.mp ⟨_, first⟩
    exact ⟨nofun, fun never => absurd fails (never query member failure)⟩
  · refine ⟨fun _ query member failure fails => ?_, fun _ => ⟨_, rfl⟩⟩
    obtain ⟨first, failing⟩ := exists_firstFails_iff.mpr ⟨query, member, failure, fails⟩
    exact none first failing

/-- The first question that fails says with what the building of the graph ends. -/
theorem ofSource_eq_error_iff {name : Option String} {result : Failure} :
    ofSource workingDirectory s name = .error result ↔
      ∃ failure, s.FirstFails workingDirectory s.queries failure ∧
        result = unavailable (label s name) failure := by
  have yields := yields_questioned workingDirectory s
  rw [ofSource_eq]
  generalize questioned workingDirectory s = outcome at yields
  rcases yields with first | ⟨none, -⟩
  · rename_i failure
    simp only [Action.mapError_error, Except.error.injEq]
    constructor
    · exact fun same => ⟨failure, first, same.symm⟩
    · rintro ⟨other, first', rfl⟩
      rw [first.unique first']
  · exact ⟨nofun, fun ⟨failure, first, _⟩ => absurd first (none failure)⟩

/-! ## The failure of the whole -/

theorem label_eq (s : Source) (name : Option String) :
    label s name = if name.getD "" = "" then s.kind else name.getD "" := by
  cases name <;> simp [label]

/-- A failure that is no failure to build a graph is a cause, with the same wording. -/
theorem exists_unavailable_eq (label : String) (failure : Failure) :
    (∃ own message cause, failure = .graph own message cause ∧
      unavailable label failure = failure) ∨
    ∃ cause, failure.asCause? = some cause ∧
      unavailable label failure = .graph label failure.message (some cause) := by
  cases failure with
  | graph own message cause => exact Or.inl ⟨own, message, cause, rfl, rfl⟩
  | archive path message cause => exact Or.inr ⟨_, rfl, rfl⟩
  | settings path message cause => exact Or.inr ⟨_, rfl, rfl⟩
  | fault cause => exact Or.inr ⟨cause, rfl, rfl⟩

/-- **A source that fails gives no graph.** The graph is built exactly when no question to the
source fails. Otherwise one of the questions is the first to fail, and its failure decides: a
failure to build a graph comes out as it is; any other one is quoted under the given name, or under
the kind of the source where the name is missing or empty, and is the cause. A run ends with the
same failure and leaves the workspace as it was. -/
theorem ofSource_refuses (workingDirectory : Path) (s : Source) (name : Option String) :
    ((∃ g, ofSource workingDirectory s name = .ok g) ↔
      ∀ query ∈ s.queries, ∀ failure, ¬s.FailsAt workingDirectory query failure) ∧
    (∀ query ∈ s.queries, ∀ failure, s.FailsAt workingDirectory query failure →
      ∃ first, s.FirstFails workingDirectory s.queries first) ∧
    ∀ failure, s.FirstFails workingDirectory s.queries failure →
      ∃ label message cause,
        ofSource workingDirectory s name = .error (.graph label message cause) ∧
        (failure = .graph label message cause ∨
          (∀ own quoted behind, failure ≠ .graph own quoted behind) ∧
            label = (if name.getD "" = "" then s.kind else name.getD "") ∧
            message = failure.message ∧ cause.isSome ∧ cause = failure.asCause?) ∧
        ∀ (r : Resolver) (request : Request) (w : Workspace),
          w.workingDirectory = workingDirectory → r.sourceName = name →
            (r.run s request).start w = (.error (.graph label message cause), w) := by
  refine ⟨exists_ofSource_iff name, ?_, ?_⟩
  · intro query member failure fails
    exact exists_firstFails_iff.mpr ⟨query, member, failure, fails⟩
  · intro failure first
    have failed : ofSource workingDirectory s name = .error (unavailable (label s name) failure) :=
      ofSource_eq_error_iff.mpr ⟨failure, first, rfl⟩
    have stops : ∀ {result : Failure}, ofSource workingDirectory s name = .error result →
        ∀ (r : Resolver) (request : Request) (w : Workspace),
          w.workingDirectory = workingDirectory → r.sourceName = name →
            (r.run s request).start w = (.error result, w) := by
      rintro result failed r request w rfl rfl
      exact r.start_run_of_error failed request
    rcases exists_unavailable_eq (label s name) failure with
      ⟨own, message, cause, rfl, same⟩ | ⟨cause, known, quoted⟩
    · rw [same] at failed
      exact ⟨own, message, cause, failed, Or.inl rfl, stops failed⟩
    · rw [quoted] at failed
      refine ⟨_, _, _, failed, Or.inr ⟨?_, label_eq s name, rfl, rfl, known.symm⟩,
        stops failed⟩
      rintro own message behind rfl
      cases known

/-- A source without label that fails when it is asked for the location of the second of two
classes; it would fail again when asked for what the first refers to. -/
theorem ofSource_refuses_second :
    let s : Source :=
      { kind := "Scripted"
        classes := .ok (.list [.text "A", .text "B"])
        location := fun answer =>
          if answer.asText? = some "A" then .ok none
          else .error (.fault (.reported .runtime "lost"))
        dependencies := fun _ => .error (.fault (.reported .runtime "gone")) }
    let w : Workspace := ⟨.empty, ⟨.root, ["w"]⟩, ⟨.root, ["tmp"]⟩, 0, 0, [], []⟩
    let failure : Failure := .fault (.reported .runtime "lost")
    s.FailsAt w.workingDirectory (.location (.text "B")) failure ∧
      s.FirstFails w.workingDirectory s.queries failure ∧
      ofSource w.workingDirectory s (some "") =
        .error (.graph "Scripted" "lost" (some (.reported .runtime "lost"))) ∧
      (Resolver.run { sourceName := some "" } s ⟨["A"], [], true⟩).start w =
        (.error (.graph "Scripted" "lost" (some (.reported .runtime "lost"))), w) := by
  intro s w failure
  have fails : s.FailsAt w.workingDirectory (.location (.text "B")) failure := .location rfl
  have enumerates : ∀ other, ¬s.FailsAt w.workingDirectory .classes other := by
    intro other failing
    cases failing with
    | classes failed => cases failed
    | uncountable answered single =>
      cases answered
      cases single
  have locates : ∀ other, ¬s.FailsAt w.workingDirectory (.location (.text "A")) other := by
    intro other failing
    cases failing with
    | location failed => cases failed
    | nameless answered refused => cases refused
    | misplaced answered named refused => cases answered
  have first : s.FirstFails w.workingDirectory s.queries failure :=
    .later enumerates (.later locates (.here fails))
  obtain ⟨label, message, cause, failed, own | ⟨-, rfl, rfl, -, rfl⟩, stops⟩ :=
    (ofSource_refuses w.workingDirectory s (some "")).2.2 failure first
  · exact nomatch own
  · exact ⟨fails, first, failed, stops { sourceName := some "" } _ w rfl rfl⟩

end Graph

end Classpath
