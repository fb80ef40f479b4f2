/-! Systems that take one step at a time: runs and what holds in all states of a run. -/

namespace Crashomon.Transition

variable {State Action : Type} {step : State → Action → Option State}

def run (step : State → Action → Option State) : State → List Action → Option State
  | state, [] => some state
  | state, action :: rest => (step state action).bind fun next => run step next rest

/-- Every action of the run is taken in a state where it meets the condition. -/
def Throughout (step : State → Action → Option State) (meets : State → Action → Prop) : State → List Action → Prop
  | _, [] => True
  | state, action :: rest => meets state action ∧ ∀ next, step state action = some next → Throughout step meets next rest

instance decidableThroughout (step : State → Action → Option State) (meets : State → Action → Prop)
    [∀ state action, Decidable (meets state action)] :
    ∀ state actions, Decidable (Throughout step meets state actions)
  | _, [] => isTrue trivial
  | state, action :: rest =>
    match stepped : step state action with
    | none => decidable_of_iff (meets state action) (by simp [Throughout, stepped])
    | some next =>
      have := decidableThroughout step meets next rest
      decidable_of_iff (meets state action ∧ Throughout step meets next rest) (by simp [Throughout, stepped])

theorem run_cons {state last : State} {action : Action} {rest : List Action} (ran : run step state (action :: rest) = some last) :
    ∃ next, step state action = some next ∧ run step next rest = some last :=
  Option.bind_eq_some_iff.mp ran

theorem run_append {state : State} {first second : List Action} :
    run step state (first ++ second) = (run step state first).bind fun next => run step next second := by
  induction first generalizing state with
  | nil => rfl
  | cons action rest ih =>
    rw [List.cons_append, run, run]
    cases step state action with
    | none => rfl
    | some next => exact ih

/-- What a step keeps where it meets the condition, a run keeps. -/
theorem run_keeps {holds : State → Prop} {meets : State → Action → Prop}
    (kept : ∀ {before action after}, holds before → meets before action → step before action = some after → holds after)
    {state last : State} {actions : List Action} (start : holds state) (met : Throughout step meets state actions)
    (ran : run step state actions = some last) : holds last := by
  induction actions generalizing state with
  | nil =>
    cases ran
    exact start
  | cons action rest ih =>
    obtain ⟨next, stepped, remaining⟩ := run_cons ran
    apply ih (kept start met.1 stepped) (met.2 next stepped) remaining

theorem throughout_snoc {meets : State → Action → Prop} {state last : State} {actions : List Action} {action : Action}
    (met : Throughout step meets state actions) (ran : run step state actions = some last) (next : meets last action) :
    Throughout step meets state (actions ++ [action]) := by
  induction actions generalizing state with
  | nil =>
    cases ran
    exact ⟨next, fun _ _ => trivial⟩
  | cons head rest ih =>
    refine ⟨met.1, ?_⟩
    intro middle stepped
    obtain ⟨_, same, remaining⟩ := run_cons ran
    rw [stepped] at same
    cases same
    exact ih (met.2 middle stepped) remaining

theorem throughout_true (state : State) (actions : List Action) : Throughout step (fun _ _ => True) state actions := by
  induction actions generalizing state with
  | nil => trivial
  | cons action rest ih => exact ⟨trivial, fun next _ => ih next⟩

/-- What every step keeps, a run keeps. -/
theorem run_invariant {holds : State → Prop}
    (kept : ∀ {before action after}, holds before → step before action = some after → holds after)
    {state last : State} {actions : List Action} (start : holds state) (ran : run step state actions = some last) :
    holds last :=
  run_keeps (fun held _ stepped => kept held stepped) start (throughout_true state actions) ran

/-- Where a step holds on to something exactly when it meets the condition, a run does exactly when all its steps do. -/
theorem run_holds_iff {holds : State → Prop} {meets : State → Action → Prop}
    (each : ∀ {before action after}, step before action = some after → (holds after ↔ holds before ∧ meets before action))
    {state last : State} {actions : List Action} (ran : run step state actions = some last) :
    holds last ↔ holds state ∧ Throughout step meets state actions := by
  induction actions generalizing state with
  | nil =>
    cases ran
    exact (and_iff_left trivial).symm
  | cons action rest ih =>
    obtain ⟨next, stepped, remaining⟩ := run_cons ran
    have later : (∀ other, step state action = some other → Throughout step meets other rest) ↔ Throughout step meets next rest := by
      rw [stepped]
      exact ⟨fun all => all next rfl, fun only other same => Option.some.inj same ▸ only⟩
    rw [ih remaining, each stepped, Throughout, later, and_assoc]

theorem run_map {Move : Type} (action : Move → Action) (state : State) (moves : List Move) :
    run step state (moves.map action) = run (fun state move => step state (action move)) state moves := by
  induction moves generalizing state with
  | nil => rfl
  | cons move rest ih =>
    rw [List.map_cons, run, run]
    exact congrArg _ (funext ih)

/-- Where every step descends, a run is no longer than what it descends. -/
theorem run_descends {holds : State → Prop} {rank : State → Nat}
    (kept : ∀ {before action after}, holds before → step before action = some after → holds after)
    (descends : ∀ {before action after}, holds before → step before action = some after → rank after < rank before)
    {state last : State} {actions : List Action} (start : holds state) (ran : run step state actions = some last) :
    actions.length + rank last ≤ rank state := by
  induction actions generalizing state with
  | nil =>
    cases ran
    exact Nat.le_of_eq (Nat.zero_add _)
  | cons action rest ih =>
    obtain ⟨next, stepped, remaining⟩ := run_cons ran
    have less := descends start stepped
    have further := ih (kept start stepped) remaining
    rw [List.length_cons]
    omega

end Crashomon.Transition
