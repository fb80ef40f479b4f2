import Mathlib.Data.List.Basic

/-! Computations that return or raise: when a composition, a map or a loop returns, and what. -/

namespace Crashomon.Raising

variable {ε α β γ σ : Type}

theorem bind_ok {run : Except ε α} {next : α → Except ε β} {result : β} :
    (run >>= next) = .ok result ↔ ∃ value, run = .ok value ∧ next value = .ok result := by
  cases run with
  | ok value => simp [bind, Except.bind]
  | error raised => simp [bind, Except.bind]

theorem value_bind (value : α) (next : α → Except ε β) : ((.ok value : Except ε α) >>= next) = next value := rfl

theorem mapped_bind (run : Except ε α) (make : α → β) (next : β → Except ε γ) :
    run.map make >>= next = run >>= fun value => next (make value) := by
  cases run <;> rfl

theorem map_ok {run : Except ε α} {make : α → β} {result : β} :
    run.map make = .ok result ↔ ∃ value, run = .ok value ∧ make value = result := by
  cases run with
  | ok value => simp [Except.map]
  | error raised => simp [Except.map]

/-- What a computation returns; the default stands in where it raises. -/
def returned (run : Except ε α) (default : α) : α :=
  match run with
  | .ok value => value
  | .error _ => default

theorem ok_iff_returned {run : Except ε α} (default : α) {value : α} :
    run = .ok value ↔ (∃ value, run = .ok value) ∧ value = returned run default := by
  constructor
  · rintro rfl
    exact ⟨⟨value, rfl⟩, rfl⟩
  · rintro ⟨⟨value, rfl⟩, rfl⟩
    rfl

theorem mapM_returns {visit : α → Except ε β} (items : List α) :
    (∃ results, items.mapM visit = .ok results) ↔ ∀ item ∈ items, ∃ result, visit item = .ok result := by
  induction items with
  | nil => simp [pure, Except.pure]
  | cons item items ih =>
    rw [List.forall_mem_cons, ← ih]
    simp only [List.mapM_cons, bind_ok]
    constructor
    · rintro ⟨results, first, visited, others, mapped, _⟩
      exact ⟨⟨first, visited⟩, others, mapped⟩
    · rintro ⟨⟨first, visited⟩, others, mapped⟩
      exact ⟨_, first, visited, others, mapped, rfl⟩

theorem mapM_ok {visit : α → Except ε β} {good : α → Prop} {value : α → β}
    (spec : ∀ item result, visit item = .ok result ↔ good item ∧ result = value item) (items : List α) (results : List β) :
    items.mapM visit = .ok results ↔ (∀ item ∈ items, good item) ∧ results = items.map value := by
  induction items generalizing results with
  | nil => simp [pure, Except.pure, eq_comm]
  | cons item items ih =>
    rw [List.mapM_cons, bind_ok, List.forall_mem_cons, List.map_cons]
    constructor
    · rintro ⟨first, visited, later⟩
      obtain ⟨others, mapped, same⟩ := bind_ok.mp later
      obtain ⟨head, rfl⟩ := (spec item first).mp visited
      obtain ⟨tail, rfl⟩ := (ih others).mp mapped
      cases same
      exact ⟨⟨head, tail⟩, rfl⟩
    · rintro ⟨⟨head, tail⟩, rfl⟩
      exact ⟨value item, (spec item _).mpr ⟨head, rfl⟩, bind_ok.mpr ⟨_, (ih _).mpr ⟨tail, rfl⟩, rfl⟩⟩

theorem mapM_values {visit : α → Except ε β} {value : α → β} {items : List α} (spec : ∀ item ∈ items, visit item = .ok (value item)) :
    items.mapM visit = .ok (items.map value) := by
  induction items with
  | nil => rfl
  | cons item items ih =>
    obtain ⟨head, tail⟩ := List.forall_mem_cons.mp spec
    rw [List.mapM_cons, head, value_bind, ih tail, value_bind]
    rfl

/-- No exception of the kind leaves the computation. -/
def Avoids (kind : ε → Prop) (run : Except ε α) : Prop := ∀ raised, run = .error raised → ¬ kind raised

section Avoiding
variable {kind : ε → Prop}

theorem avoids_value (value : α) : Avoids kind (.ok value : Except ε α) := fun _ impossible => nomatch impossible

theorem avoids_other {raised : ε} (other : ¬ kind raised) : Avoids kind (.error raised : Except ε α) := by
  rintro _ ⟨⟩
  exact other

theorem Avoids.bind {run : Except ε α} {next : α → Except ε β} (first : Avoids kind run)
    (resume : ∀ value, Avoids kind (next value)) : Avoids kind (run >>= next) := by
  cases run with
  | ok value => exact resume value
  | error raised => exact avoids_other (first raised rfl)

theorem Avoids.map {run : Except ε α} (avoids : Avoids kind run) (make : α → β) : Avoids kind (run.map make) := by
  cases run with
  | ok value => exact avoids_value _
  | error raised => exact avoids_other (avoids raised rfl)

theorem avoids_mapM {visit : α → Except ε β} (each : ∀ item, Avoids kind (visit item)) (items : List α) :
    Avoids kind (items.mapM visit) := by
  induction items with
  | nil => exact avoids_value []
  | cons item items ih =>
    rw [List.mapM_cons]
    exact (each item).bind fun _ => ih.bind fun _ => avoids_value _

theorem avoids_foldlM {step : σ → α → Except ε σ} (each : ∀ state item, Avoids kind (step state item)) (items : List α)
    (state : σ) : Avoids kind (items.foldlM step state) := by
  induction items generalizing state with
  | nil => exact avoids_value state
  | cons item items ih =>
    rw [List.foldlM_cons]
    exact (each state item).bind ih

end Avoiding

section Collecting
variable {step : List β × σ → α → Except ε (List β × σ)}

/-- The second component after the items from a position on. -/
def carry (next : Nat → α → σ → σ) : Nat → List α → σ → σ
  | _, [], state => state
  | position, item :: items, state => carry next (position + 1) items (next position item state)

/-- A loop that appends one result per item and updates a state. -/
theorem foldlM_collect (good : Nat → α → Prop) (make : Nat → α → β) (next : Nat → α → σ → σ) (spec : ∀ read item result, step read item = .ok result ↔
      good read.1.length item ∧ result = (read.1 ++ [make read.1.length item], next read.1.length item read.2))
    (items : List α) (front : List β) (state : σ) (result : List β × σ) :
    items.foldlM step (front, state) = .ok result ↔
      (∀ position item, items[position]? = some item → good (front.length + position) item) ∧
        result = (front ++ items.mapIdx (fun position => make (front.length + position)), carry next front.length items state) := by
  induction items generalizing front state with
  | nil => simp [pure, Except.pure, carry, eq_comm]
  | cons item items ih =>
    have moved (position : Nat) : (front ++ [make front.length item]).length + position = front.length + (position + 1) := by
      rw [List.length_append, List.length_singleton]
      omega
    have collected : (front ++ [make front.length item] ++ items.mapIdx (fun position =>
          make ((front ++ [make front.length item]).length + position)),
        carry next (front ++ [make front.length item]).length items (next front.length item state)) =
        (front ++ (item :: items).mapIdx (fun position => make (front.length + position)),
          carry next front.length (item :: items) state) := by
      simp [carry, Nat.add_assoc, Nat.add_comm 1]
    rw [List.foldlM_cons, bind_ok]
    constructor
    · rintro ⟨read, first, later⟩
      obtain ⟨head, rfl⟩ := (spec _ _ _).mp first
      obtain ⟨tail, same⟩ := (ih _ _).mp later
      refine ⟨?_, ?_⟩
      · intro position other found
        cases position with
        | zero =>
          cases found
          exact head
        | succ position => exact moved position ▸ tail position other found
      · exact same.trans collected
    · rintro ⟨all, same⟩
      refine ⟨_, (spec _ _ _).mpr ⟨all 0 item rfl, rfl⟩, (ih _ _).mpr ⟨?_, ?_⟩⟩
      · intro position other found
        exact moved position ▸ all (position + 1) other found
      · exact same.trans collected.symm

theorem carry_foldl {entries : Nat → α → List γ} {insert : σ → γ → σ} (position : Nat) (items : List α) (state : σ) :
    carry (fun index item state => (entries index item).foldl insert state) position items state =
      (items.mapIdx fun index => entries (position + index)).flatten.foldl insert state := by
  induction items generalizing position state with
  | nil => rfl
  | cons item items ih =>
    rw [carry, ih]
    simp [Nat.add_assoc, Nat.add_comm 1]

end Collecting
end Crashomon.Raising
