import Classpath.Workspace

/-! # Running actions step by step

Each kind of step has one lemma that says how it acts on a workspace, so that an action is followed
without opening its monad. A sequence stops at the first failure, and what was changed before stays
changed (`Classpath.Action.start_bind`).
-/

namespace Classpath.Action

variable {α β : Type} {w : Workspace}

@[simp] theorem start_pure (a : α) (w : Workspace) :
    (pure a : Action α).start w = (.ok a, w) :=
  rfl

/-- The second step works on what the first has left, unless the first fails. -/
theorem start_bind (first : Action α) (second : α → Action β) (w : Workspace) :
    (first >>= second).start w =
      match first.start w with
      | (.ok a, after) => (second a).start after
      | (.error failure, after) => (.error failure, after) := by
  change (ExceptT.bindCont second (first.start w).1).run (first.start w).2 = _
  rcases first.start w with ⟨outcome | outcome, after⟩ <;> rfl

theorem start_bind_ok {first : Action α} {a : α} {after : Workspace}
    (ran : first.start w = (.ok a, after)) (second : α → Action β) :
    (first >>= second).start w = (second a).start after := by
  rw [start_bind, ran]

/-- A sequence that succeeds has two steps that succeed. -/
theorem start_bind_eq_ok {first : Action α} {second : α → Action β} {b : β} {after : Workspace} :
    (first >>= second).start w = (.ok b, after) ↔
      ∃ a between, first.start w = (.ok a, between) ∧
        (second a).start between = (.ok b, after) := by
  rw [start_bind]
  constructor
  · intro ran
    split at ran
    · rename_i a between found
      exact ⟨a, between, found, ran⟩
    · cases ran
  · rintro ⟨a, between, found, ran⟩
    rw [found]
    exact ran

@[simp] theorem start_get (w : Workspace) : (get : Action Workspace).start w = (.ok w, w) :=
  rfl

@[simp] theorem start_set (next w : Workspace) :
    (set next : Action Unit).start w = (.ok (), next) :=
  rfl

@[simp] theorem start_modify (change : Workspace → Workspace) (w : Workspace) :
    (modify change : Action Unit).start w = (.ok (), change w) :=
  rfl

@[simp] theorem start_throw (failure : Failure) (w : Workspace) :
    (throw failure : Action α).start w = (.error failure, w) :=
  rfl

@[simp] theorem start_refuse (fault : Fault) (w : Workspace) :
    (refuse fault : Action α).start w = (.error (.fault fault), w) :=
  rfl

@[simp] theorem start_report (notices : List Notice) (w : Workspace) :
    (report notices).start w = (.ok (), { w with journal := w.journal ++ notices }) :=
  rfl

@[simp] theorem mapError_ok {ε ε' : Type} (f : ε → ε') (a : α) :
    (.ok a : Except ε α).mapError f = .ok a :=
  rfl

@[simp] theorem mapError_error {ε ε' : Type} (f : ε → ε') (failure : ε) :
    (.error failure : Except ε α).mapError f = .error (f failure) :=
  rfl

@[simp] theorem start_ofFault (outcome : Except Fault α) (w : Workspace) :
    (ofFault outcome).start w = (outcome.mapError .fault, w) := by
  cases outcome <;> rfl

/-- An outcome that is taken over is a value only if it was one. -/
theorem start_ofFault_eq_ok {outcome : Except Fault α} {a : α} {after : Workspace} :
    (ofFault outcome).start w = (.ok a, after) ↔ outcome = .ok a ∧ after = w := by
  cases outcome with
  | error fault => simp
  | ok b => simp [eq_comm]

@[simp] theorem start_ofFailure (outcome : Except Failure α) (w : Workspace) :
    (ofFailure outcome).start w = (outcome, w) := by
  cases outcome <;> rfl

/-- Whether an action fails in a workspace. -/
def Fails (action : Action α) (w : Workspace) : Prop :=
  ∃ refusal after, action.start w = (.error refusal, after)

theorem fails_or_ok (action : Action α) (w : Workspace) :
    action.Fails w ∨ ∃ a after, action.start w = (.ok a, after) := by
  rcases ran : action.start w with ⟨refusal | a, after⟩
  · exact .inl ⟨refusal, after, ran⟩
  · exact .inr ⟨a, after, rfl⟩

theorem fails_of_not_ok {action : Action α} (never : ∀ a after, action.start w ≠ (.ok a, after)) :
    action.Fails w :=
  (action.fails_or_ok w).resolve_right fun ⟨a, after, ran⟩ => never a after ran

/-- A sequence fails when its first step does. -/
theorem Fails.bind {first : Action α} (fails : first.Fails w) (second : α → Action β) :
    (first >>= second).Fails w := by
  obtain ⟨refusal, after, ran⟩ := fails
  exact ⟨refusal, after, by rw [start_bind, ran]⟩

theorem fails_bind_of_ok {first : Action α} {a : α} {between : Workspace}
    (ran : first.start w = (.ok a, between)) {second : α → Action β}
    (fails : (second a).Fails between) : (first >>= second).Fails w := by
  obtain ⟨refusal, after, ended⟩ := fails
  exact ⟨refusal, after, by rw [start_bind_ok ran, ended]⟩

end Classpath.Action

namespace Classpath

/-- A sequence of two fallible steps fails in the first or in the second. -/
theorem bind_eq_error {α β ε : Type} {first : Except ε α} {second : α → Except ε β} {fault : ε} :
    (first >>= second) = .error fault ↔
      first = .error fault ∨ ∃ a, first = .ok a ∧ second a = .error fault := by
  cases first <;> simp [bind, Except.bind]

/-- A sequence of two fallible steps succeeds when both do. -/
theorem bind_eq_ok {α β ε : Type} {first : Except ε α} {second : α → Except ε β} {b : β} :
    (first >>= second) = .ok b ↔ ∃ a, first = .ok a ∧ second a = .ok b := by
  cases first <;> simp [bind, Except.bind]

theorem mapError_eq_ok {α ε ε' : Type} {f : ε → ε'} {outcome : Except ε α} {a : α} :
    outcome.mapError f = .ok a ↔ outcome = .ok a := by
  cases outcome <;> simp

/-- A rule that succeeds for each member of a list succeeds for the list. -/
theorem mapM_eq_ok {α β ε : Type} {rule : α → Except ε β} {result : α → β} {xs : List α}
    (each : ∀ x ∈ xs, rule x = .ok (result x)) : xs.mapM rule = .ok (xs.map result) := by
  induction xs with
  | nil => rfl
  | cons x rest ih =>
    rw [List.mapM_cons, each x List.mem_cons_self,
      ih fun y member => each y (List.mem_cons_of_mem _ member)]
    rfl

/-- A rule that succeeds for a list succeeds for each of its members. -/
theorem exists_ok_of_mapM {α β ε : Type} {rule : α → Except ε β} {xs : List α} {ys : List β}
    (ran : xs.mapM rule = .ok ys) : ∀ x ∈ xs, ∃ y, rule x = .ok y := by
  induction xs generalizing ys with
  | nil => simp
  | cons x rest ih =>
    rw [List.mapM_cons] at ran
    cases here : rule x with
    | error fault =>
      rw [here] at ran
      cases ran
    | ok y =>
      cases later : rest.mapM rule with
      | error fault =>
        rw [here, later] at ran
        cases ran
      | ok zs =>
        intro other member
        rcases List.mem_cons.mp member with rfl | member
        · exact ⟨y, here⟩
        · exact ih later other member

/-- A rule that fails for a list fails so for one of its members. -/
theorem exists_error_of_mapM {α β ε : Type} {rule : α → Except ε β} {xs : List α} {fault : ε}
    (refused : xs.mapM rule = .error fault) : ∃ x ∈ xs, rule x = .error fault := by
  induction xs with
  | nil => cases refused
  | cons x rest ih =>
    rw [List.mapM_cons] at refused
    cases here : rule x with
    | error other =>
      rw [here] at refused
      cases refused
      exact ⟨x, List.mem_cons_self, here⟩
    | ok y =>
      rw [here] at refused
      cases later : rest.mapM rule with
      | error other =>
        rw [later] at refused
        cases refused
        obtain ⟨x', member, found⟩ := ih later
        exact ⟨x', List.mem_cons_of_mem _ member, found⟩
      | ok ys =>
        rw [later] at refused
        cases refused

end Classpath
