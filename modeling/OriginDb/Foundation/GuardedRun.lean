/-
Runs of a partial transition function.

`step` returns `none` where the system has no next state: because what the code
would do is not defined, or because the action is not enabled.  For the first
reading `AllStates` asks for a next state at every action; for the second
`Throughout` looks at the states that are reached.  An invariant that each
admitted step keeps holds in every state of a run of admitted actions.
-/

namespace Foundation.GuardedRun

variable {σ α : Type} (step : σ → α → Option σ)

def run : σ → List α → Option σ
  | state, [] => some state
  | state, action :: rest =>
      match step state action with
      | none => none
      | some next => run next rest

/-- Every action of the run meets `admits` in the state it is taken from. -/
def Admits (admits : σ → α → Prop) : σ → List α → Prop
  | _, [] => True
  | state, action :: rest =>
      admits state action ∧ ∀ next, step state action = some next → Admits admits next rest

instance decidableAdmits {admits : σ → α → Prop} [∀ state action, Decidable (admits state action)] :
    ∀ state actions, Decidable (Admits step admits state actions)
  | _, [] => isTrue trivial
  | state, action :: rest =>
      let later : Decidable (∀ next, step state action = some next →
          Admits step admits next rest) :=
        match step state action with
        | none => isTrue (fun _ impossible => nomatch impossible)
        | some next =>
            match decidableAdmits next rest with
            | isTrue admitted => isTrue (fun _ same => Option.some.inj same ▸ admitted)
            | isFalse refused => isFalse (fun all => refused (all next rfl))
      @instDecidableAnd _ _ _ later

/-- The run is defined to its end and `holds` in every state it passes through. -/
def AllStates (holds : σ → Prop) : σ → List α → Prop
  | state, [] => holds state
  | state, action :: rest =>
      holds state ∧ ∃ next, step state action = some next ∧ AllStates holds next rest

/-- The run is defined to its end and `good` holds of every step it takes. -/
def AllSteps (good : σ → α → σ → Prop) : σ → List α → Prop
  | _, [] => True
  | state, action :: rest =>
      ∃ next, step state action = some next ∧ good state action next ∧ AllSteps good next rest

/-- `holds` in every state the run passes through, as far as its actions are enabled. -/
def Throughout (holds : σ → Prop) : σ → List α → Prop
  | state, [] => holds state
  | state, action :: rest =>
      holds state ∧ ∀ next, step state action = some next → Throughout holds next rest

/-- What is seen of each step that is taken. -/
def outputs {β : Type} (observe : σ → α → β) : σ → List α → List β
  | _, [] => []
  | state, action :: rest =>
      observe state action ::
        match step state action with
        | none => []
        | some next => outputs observe next rest

variable {step} {admits : σ → α → Prop} {invariant holds : σ → Prop}

/-- The invariant rule: it is enough to look at one admitted step. -/
theorem allStates_of_step
    (stepKeeps : ∀ state action, invariant state → admits state action →
      ∃ next, step state action = some next ∧ invariant next)
    (gives : ∀ state, invariant state → holds state)
    {state : σ} {actions : List α} (start : invariant state)
    (admitted : Admits step admits state actions) :
    AllStates step holds state actions := by
  induction actions generalizing state with
  | nil => exact gives state start
  | cons action rest ih =>
      obtain ⟨next, stepped, kept⟩ := stepKeeps state action start admitted.1
      exact ⟨gives state start, next, stepped, ih kept (admitted.2 next stepped)⟩

theorem AllStates.here {state : σ} {actions : List α}
    (always : AllStates step holds state actions) : holds state := by
  cases actions with
  | nil => exact always
  | cons _ _ => exact always.1

/-- Where exactly the admitted actions lead from a good state to a good one, the runs
through good states are the admitted runs that start in one. -/
theorem allStates_iff_admits
    (exactly : ∀ state action, holds state →
      ((∃ next, step state action = some next ∧ holds next) ↔ admits state action))
    {state : σ} {actions : List α} :
    AllStates step holds state actions ↔ holds state ∧ Admits step admits state actions := by
  constructor
  · intro always
    constructor
    · exact always.here
    · induction actions generalizing state with
      | nil => trivial
      | cons action rest ih =>
          rcases always with ⟨good, next, stepped, later⟩
          constructor
          · exact (exactly state action good).mp ⟨next, stepped, later.here⟩
          · intro other otherStepped
            cases Option.some.inj (stepped.symm.trans otherStepped)
            exact ih later
  · rintro ⟨start, admitted⟩
    exact allStates_of_step
      (fun state action good allowed => (exactly state action good).mpr allowed)
      (fun _ good => good) start admitted

theorem allSteps_of_step {good : σ → α → σ → Prop}
    (stepKeeps : ∀ state action, invariant state → admits state action →
      ∃ next, step state action = some next ∧ invariant next ∧ good state action next)
    {state : σ} {actions : List α} (start : invariant state)
    (admitted : Admits step admits state actions) :
    AllSteps step good state actions := by
  induction actions generalizing state with
  | nil => trivial
  | cons action rest ih =>
      obtain ⟨next, stepped, kept, fine⟩ := stepKeeps state action start admitted.1
      exact ⟨next, stepped, fine, ih kept (admitted.2 next stepped)⟩

theorem throughout_of_step
    (stepKeeps : ∀ state action next, invariant state → admits state action →
      step state action = some next → invariant next)
    (gives : ∀ state, invariant state → holds state)
    {state : σ} {actions : List α} (start : invariant state)
    (admitted : Admits step admits state actions) :
    Throughout step holds state actions := by
  induction actions generalizing state with
  | nil => exact gives state start
  | cons action rest ih =>
      constructor
      · exact gives state start
      · intro next stepped
        have kept := stepKeeps state action next start admitted.1 stepped
        exact ih kept (admitted.2 next stepped)

/-- What every step keeps, whoever takes it, holds in every state of a run. -/
theorem throughout_of_invariant
    (stepKeeps : ∀ state action next, invariant state → step state action = some next →
      invariant next)
    {state : σ} {actions : List α} (start : invariant state) :
    Throughout step invariant state actions := by
  induction actions generalizing state with
  | nil => exact start
  | cons action rest ih =>
      constructor
      · exact start
      · intro next stepped
        exact ih (stepKeeps state action next start stepped)

theorem Throughout.here {state : σ} {actions : List α}
    (always : Throughout step holds state actions) : holds state := by
  cases actions with
  | nil => exact always
  | cons _ _ => exact always.1

/-- The converse: where a step that is not admitted would leave the good states,
a run through good states has taken admitted steps only. -/
theorem admits_of_throughout
    (stepKeeps : ∀ state action next, invariant state → admits state action →
      step state action = some next → invariant next)
    (needed : ∀ state action, invariant state → holds state →
      (∀ next, step state action = some next → holds next) → admits state action)
    {state : σ} {actions : List α} (start : invariant state)
    (always : Throughout step holds state actions) : Admits step admits state actions := by
  induction actions generalizing state with
  | nil => trivial
  | cons action rest ih =>
      have nextHolds : ∀ next, step state action = some next → holds next := by
        intro next stepped
        exact (always.2 next stepped).here
      have admitted := needed state action start always.1 nextHolds
      constructor
      · exact admitted
      · intro next stepped
        exact ih (stepKeeps state action next start admitted stepped) (always.2 next stepped)

theorem Throughout.of_run {state final : σ} {actions : List α}
    (always : Throughout step holds state actions) (ran : run step state actions = some final) :
    holds final := by
  induction actions generalizing state with
  | nil =>
      cases Option.some.inj ran
      exact always
  | cons action rest ih =>
      simp only [run] at ran
      cases stepped : step state action with
      | none =>
          rw [stepped] at ran
          cases ran
      | some next =>
          rw [stepped] at ran
          exact ih (always.2 next stepped) ran

/-- What every step keeps holds at the end of a run. -/
theorem invariant_of_run
    (stepKeeps : ∀ state action next, invariant state → step state action = some next →
      invariant next)
    {state final : σ} {actions : List α} (start : invariant state)
    (ran : run step state actions = some final) : invariant final := by
  induction actions generalizing state with
  | nil =>
      cases Option.some.inj ran
      exact start
  | cons action rest ih =>
      simp only [run] at ran
      cases stepped : step state action with
      | none =>
          rw [stepped] at ran
          cases ran
      | some next =>
          rw [stepped] at ran
          exact ih (stepKeeps state action next start stepped) ran

/-- The rest of a run through good states is one. -/
theorem AllStates.of_append {state middle : σ} {first second : List α}
    (always : AllStates step holds state (first ++ second))
    (ran : run step state first = some middle) : AllStates step holds middle second := by
  induction first generalizing state with
  | nil =>
      cases Option.some.inj ran
      exact always
  | cons action rest ih =>
      rcases always with ⟨-, next, stepped, later⟩
      simp only [run, stepped] at ran
      exact ih later ran

/-- A run that passes only through good states ends in one. -/
theorem AllStates.run_eq_some {state : σ} {actions : List α}
    (always : AllStates step holds state actions) :
    ∃ final, run step state actions = some final ∧ holds final := by
  induction actions generalizing state with
  | nil => exact ⟨state, rfl, always⟩
  | cons action rest ih =>
      rcases always with ⟨-, next, stepped, later⟩
      obtain ⟨final, ran, good⟩ := ih later
      exact ⟨final, by simp only [run, stepped, ran], good⟩

/-! ### Runs that are alike -/

section Alike

variable {alike : σ → σ}

/-- Steps that cannot tell a state from the one that is like it make a run that cannot. -/
theorem run_of_alike
    (stepKeeps : ∀ state action next, invariant state → admits state action →
      step state action = some next → invariant next)
    (same : ∀ state action, invariant state → admits state action →
      step (alike state) action = (step state action).map alike)
    {state : σ} {actions : List α} (start : invariant state)
    (admitted : Admits step admits state actions) :
    run step (alike state) actions = (run step state actions).map alike := by
  induction actions generalizing state with
  | nil => rfl
  | cons action rest ih =>
      simp only [run]
      rw [same state action start admitted.1]
      cases stepped : step state action with
      | none => rfl
      | some next =>
          exact ih (stepKeeps state action next start admitted.1 stepped)
            (admitted.2 next stepped)

theorem outputs_of_alike {β : Type} {observe : σ → α → β}
    (stepKeeps : ∀ state action next, invariant state → admits state action →
      step state action = some next → invariant next)
    (same : ∀ state action, invariant state → admits state action →
      step (alike state) action = (step state action).map alike)
    (sameOutput : ∀ state action, invariant state → admits state action →
      observe (alike state) action = observe state action)
    {state : σ} {actions : List α} (start : invariant state)
    (admitted : Admits step admits state actions) :
    outputs step observe (alike state) actions = outputs step observe state actions := by
  induction actions generalizing state with
  | nil => rfl
  | cons action rest ih =>
      simp only [outputs]
      rw [same state action start admitted.1, sameOutput state action start admitted.1]
      cases stepped : step state action with
      | none => rfl
      | some next =>
          exact congrArg (observe state action :: ·)
            (ih (stepKeeps state action next start admitted.1 stepped) (admitted.2 next stepped))

end Alike

end Foundation.GuardedRun
