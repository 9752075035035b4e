import GridStyle.Expansion.State

/-!
# Performing Steps

Running a composite step means running its parts one after the other, up to the first failure.
This module says so for actions on the shared context (`Action.perform`) and for steps of an
expansion (`Expanding.perform`), once as equations and once, for runs that succeed, as the
existence of the states in between (`perform_bind_ok`).
-/

namespace GridStyle

/-- The state with another context. -/
def Expansion.withContext (s : Expansion) (context : Context) : Expansion := { s with context }

namespace Action

variable {α β : Type}

@[simp]
theorem perform_pure (a : α) (c : Context) : (pure a : Action α).perform c = (.ok a, c) := rfl

@[simp]
theorem perform_throw (e : Failure) (c : Context) :
    (throw e : Action α).perform c = (.error e, c) := rfl

/-- The second part of an action runs on the context that the first leaves. -/
theorem perform_bind (action : Action α) (next : α → Action β) (c : Context) :
    (action >>= next).perform c =
      match action.perform c with
      | (.ok a, c') => (next a).perform c'
      | (.error e, c') => (.error e, c') := by
  simp only [perform, ExceptT.run_bind, StateT.run_bind]
  rcases h : (action.run).run c with ⟨outcome, c'⟩
  cases outcome <;> simp_all <;> rfl

/-- The result of an action is changed afterwards. -/
theorem perform_map (f : α → β) (action : Action α) (c : Context) :
    (f <$> action).perform c = (f <$> (action.perform c).1, (action.perform c).2) := by
  rw [map_eq_pure_bind, perform_bind]
  rcases action.perform c with ⟨outcome, c'⟩
  cases outcome <;> rfl

/-- Actions that leave the context alone, one after the other, have the outcomes that they have one
by one, up to the first failure. -/
theorem perform_mapM_of_perform {f : α → Action β} {outcome : α → Except Failure β}
    (h : ∀ a c, (f a).perform c = (outcome a, c)) (as : List α) (c : Context) :
    (as.mapM f).perform c = (as.mapM outcome, c) := by
  induction as with
  | nil => rfl
  | cons a as ih =>
    rw [List.mapM_cons, List.mapM_cons, perform_bind, h]
    cases outcome a with
    | error e => rfl
    | ok b =>
      change (as.mapM f >>= fun bs => pure (b :: bs)).perform c = _
      rw [perform_bind, ih]
      cases as.mapM outcome <;> rfl

end Action

namespace Expanding

variable {α β : Type}

/-- Steps that do the same in every state are the same. -/
theorem ext {x y : Expanding α} (h : ∀ s, x.perform s = y.perform s) : x = y := funext h

@[simp]
theorem perform_pure (a : α) (s : Expansion) : (pure a : Expanding α).perform s = (.ok a, s) := rfl

@[simp]
theorem perform_throw (e : Failure) (s : Expansion) :
    (throw e : Expanding α).perform s = (.error e, s) := rfl

@[simp]
theorem perform_modify (f : Expansion → Expansion) (s : Expansion) :
    (modify f : Expanding PUnit).perform s = (.ok (), f s) := rfl

/-- The second part of a step runs on the state that the first leaves. -/
theorem perform_bind (step : Expanding α) (next : α → Expanding β) (s : Expansion) :
    (step >>= next).perform s =
      match step.perform s with
      | (.ok a, s') => (next a).perform s'
      | (.error e, s') => (.error e, s') := by
  simp only [perform, ExceptT.run_bind, StateT.run_bind]
  rcases h : (step.run).run s with ⟨outcome, s'⟩
  cases outcome <;> simp_all <;> rfl

/-- A composite step succeeds exactly if its parts succeed one after the other. -/
theorem perform_bind_ok {step : Expanding α} {next : α → Expanding β} {s s'' : Expansion}
    {b : β} :
    (step >>= next).perform s = (.ok b, s'') ↔
      ∃ a s', step.perform s = (.ok a, s') ∧ (next a).perform s' = (.ok b, s'') := by
  rw [perform_bind]
  rcases step.perform s with ⟨outcome, s'⟩
  cases outcome with
  | ok a =>
    -- The state in between is the one that the first step leaves.
    constructor
    · intro h
      exact ⟨a, s', rfl, h⟩
    · rintro ⟨a', s₁, heq, h⟩
      cases heq
      exact h
  | error e => simp

/-- A step that has an outcome has left a state. -/
theorem exists_perform_eq {step : Expanding α} {s : Expansion} {outcome : Except Failure α}
    (h : (step.perform s).1 = outcome) : ∃ s', step.perform s = (outcome, s') :=
  ⟨(step.perform s).2, by rw [← h]⟩

@[simp]
theorem perform_get_bind (next : Expansion → Expanding β) (s : Expansion) :
    (get >>= next).perform s = (next s).perform s := rfl

@[simp]
theorem perform_modify_bind (f : Expansion → Expansion) (next : PUnit → Expanding β)
    (s : Expansion) : ((modify f : Expanding PUnit) >>= next).perform s =
      (next ()).perform (f s) := rfl

/-- A step that does nothing leaves its state. -/
theorem perform_pure_ok {a b : α} {s s' : Expansion} :
    (pure a : Expanding α).perform s = (.ok b, s') ↔ a = b ∧ s = s' := by
  rw [perform_pure, Prod.mk.injEq, Except.ok.injEq]

/-- A modification succeeds and leaves the state that it makes. -/
theorem perform_modify_ok {f : Expansion → Expansion} {s s' : Expansion} {u : PUnit} :
    (modify f : Expanding PUnit).perform s = (.ok u, s') ↔ f s = s' := by
  rw [perform_modify, Prod.mk.injEq]
  exact and_iff_right rfl

/-- An action on the shared context changes nothing else. -/
@[simp]
theorem perform_act (action : Action α) (s : Expansion) :
    (act action).perform s =
      ((action.perform s.context).1, s.withContext (action.perform s.context).2) := by
  rcases h : action.perform s.context with ⟨outcome, c⟩
  have hread : ∀ f : Expansion → Except Failure α × Expansion,
      (modifyGet f : Expanding (Except Failure α)).perform s = (.ok (f s).1, (f s).2) :=
    fun f => rfl
  rw [act, perform_bind, hread, h]
  cases outcome <;> rfl

/-- An action on the shared context succeeds exactly if it does so on the context alone. -/
theorem perform_act_ok {action : Action α} {s s' : Expansion} {a : α} :
    (act action).perform s = (.ok a, s') ↔
      ∃ c, action.perform s.context = (.ok a, c) ∧ s' = s.withContext c := by
  rw [perform_act, Prod.mk.injEq]
  constructor
  · rintro ⟨houtcome, rfl⟩
    exact ⟨_, by rw [← houtcome], rfl⟩
  · rintro ⟨c, hc, rfl⟩
    rw [hc]
    exact ⟨rfl, rfl⟩

@[simp]
theorem perform_forM_nil (step : α → Expanding PUnit) (s : Expansion) :
    (([] : List α).forM step).perform s = (.ok PUnit.unit, s) := rfl

theorem perform_forM_nil_ok {step : α → Expanding PUnit} {s s' : Expansion} {u : PUnit} :
    (([] : List α).forM step).perform s = (.ok u, s') ↔ s = s' := by
  rw [perform_forM_nil, Prod.mk.injEq]
  exact and_iff_right rfl

/-- Running a step for every element of a list, one after the other. -/
theorem perform_forM_cons (step : α → Expanding PUnit) (a : α) (as : List α) (s : Expansion) :
    ((a :: as).forM step).perform s = (step a >>= fun _ => as.forM step).perform s := rfl

end Expanding

end GridStyle
