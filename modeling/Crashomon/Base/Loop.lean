/-! Loops of a program, one turn at a time. A run is given a number of turns and has no result
when they do not suffice, so that a result never comes from the bound. -/

namespace Crashomon.Loop

/-- A turn ends the loop or leaves a state for the next one. -/
inductive Turn (State Result : Type) where
  | done (result : Result)
  | again (state : State)
  deriving DecidableEq, Repr

variable {State Result : Type} {turn : State → Turn State Result} {state : State} {result : Result}

/-- What a turn comes to, given what its result and the rest of the loop come to. -/
def Turn.elim {Outcome : Type} (ended : Result → Outcome) (goesOn : State → Outcome) : Turn State Result → Outcome
  | .done result => ended result
  | .again state => goesOn state

def run (turn : State → Turn State Result) : (turns : Nat) → State → Option Result
  | 0, _ => none
  | turns + 1, state => (turn state).elim some (run turn turns)

theorem run_done (done : turn state = .done result) (turns : Nat) : run turn (turns + 1) state = some result := by
  rw [run, done, Turn.elim]

theorem run_again {next : State} (again : turn state = .again next) (turns : Nat) : run turn (turns + 1) state = run turn turns next := by
  rw [run, again, Turn.elim]

theorem run_add {turns : Nat} (ended : run turn turns state = some result) (more : Nat) : run turn (turns + more) state = some result := by
  induction turns generalizing state with
  | zero => cases ended
  | succ turns ih =>
    rw [Nat.add_right_comm]
    cases taken : turn state with
    | done last =>
      rw [run_done taken] at ended ⊢
      exact ended
    | again next =>
      rw [run_again taken] at ended ⊢
      exact ih ended

theorem run_more {turns others : Nat} (ended : run turn turns state = some result) (more : turns ≤ others) :
    run turn others state = some result := by
  obtain ⟨rest, rfl⟩ := Nat.exists_eq_add_of_le more
  exact run_add ended rest

/-- An invariant and a measure: the loop ends, with a result that the invariant ensures. -/
theorem run_ends (holds : State → Prop) (measure : State → Nat) {ensures : Result → Prop}
    (ends : ∀ {state result}, holds state → turn state = .done result → ensures result)
    (goesOn : ∀ {state next}, holds state → turn state = .again next → holds next ∧ measure next < measure state)
    {turns : Nat} (start : holds state) (enough : measure state < turns) :
    ∃ result, run turn turns state = some result ∧ ensures result := by
  induction turns generalizing state with
  | zero => exact absurd enough (Nat.not_lt_zero _)
  | succ turns ih =>
    cases taken : turn state with
    | done result => exact ⟨result, run_done taken turns, ends start taken⟩
    | again next =>
      obtain ⟨kept, less⟩ := goesOn start taken
      rw [run_again taken]
      exact ih kept (Nat.lt_of_lt_of_le less (Nat.le_of_lt_succ enough))

end Crashomon.Loop
