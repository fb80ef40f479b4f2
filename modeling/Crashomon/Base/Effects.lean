import Mathlib.Data.List.Basic

/-! Computations that change a state and return or raise. An exception leaves the state as it was
when it was raised. -/

namespace Crashomon.Effects

abbrev Effect (σ ε α : Type) := ExceptT ε (StateM σ) α

variable {σ ε ε' α β : Type} {state next last : σ}

theorem bind_returned {run : Effect σ ε α} {value : α} (ran : run state = (.ok value, next)) (resume : α → Effect σ ε β) :
    (run >>= resume) state = resume value next := by
  show (ExceptT.bindCont resume (run state).1) (run state).2 = _
  rw [ran]
  rfl

theorem bind_raised {run : Effect σ ε α} {raised : ε} (ran : run state = (.error raised, next)) (resume : α → Effect σ ε β) :
    (run >>= resume) state = (.error raised, next) := by
  show (ExceptT.bindCont resume (run state).1) (run state).2 = _
  rw [ran]
  rfl

/-- What holds before the computation holds after it, whether it returns or raises. -/
def Keeps (holds : σ → Prop) (run : Effect σ ε α) : Prop := ∀ state, holds state → holds (run state).2

section Keeping
variable {holds : σ → Prop}

theorem keeps_pure (value : α) : Keeps holds (pure value : Effect σ ε α) := fun _ held => held

theorem keeps_throw (raised : ε) : Keeps holds (throw raised : Effect σ ε α) := fun _ held => held

theorem Keeps.bind {run : Effect σ ε α} {resume : α → Effect σ ε β} (first : Keeps holds run)
    (later : ∀ value, Keeps holds (resume value)) : Keeps holds (run >>= resume) := by
  intro state held
  obtain ⟨outcome, next, ran⟩ : ∃ outcome next, run state = (outcome, next) := ⟨_, _, rfl⟩
  have kept := first state held
  rw [ran] at kept
  cases outcome with
  | ok value =>
    rw [bind_returned ran]
    exact later value next kept
  | error raised =>
    rw [bind_raised ran]
    exact kept

theorem keeps_ite {condition : Prop} [Decidable condition] {first second : Effect σ ε α} (left : Keeps holds first)
    (right : Keeps holds second) : Keeps holds (if condition then first else second) := by
  split
  next => exact left
  next => exact right

theorem keeps_foldlM {step : β → α → Effect σ ε β} (each : ∀ value item, Keeps holds (step value item)) (items : List α)
    (value : β) : Keeps holds (items.foldlM step value) := by
  induction items generalizing value with
  | nil => exact keeps_pure value
  | cons item items ih =>
    rw [List.foldlM_cons]
    exact (each value item).bind ih

theorem Keeps.adapt {run : Effect σ ε α} (kept : Keeps holds run) (change : ε → ε') :
    Keeps holds (ExceptT.adapt change run : Effect σ ε' α) :=
  fun state held => kept state held

end Keeping

end Crashomon.Effects
