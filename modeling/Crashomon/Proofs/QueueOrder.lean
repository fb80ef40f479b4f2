import Crashomon.Daemon.RunWorker
import Crashomon.Proofs.WatcherQueues

/-! What the worker's queue guarantees while paths are pushed and the stop flag is set
at any time: the paths are processed in the order of the pushes, and the worker
leaves with nothing undone that it could see. -/

namespace Crashomon.Proofs.QueueOrder
open Daemon.Worker Daemon.RunWorker
open WatcherQueues (calmCall plainSetup)

/-- The path that the worker has popped but not yet passed on. -/
def inHand : WorkerPhase → List ByteString
  | .unlocking path | .calling path => [path]
  | _ => []

/-- The path whose call has not returned. -/
def current : WorkerPhase → List ByteString
  | .processing path => [path]
  | _ => []

def Leaves : WorkerPhase → Prop
  | .leaving | .returned => True
  | _ => False

/-- The phases in which the worker holds the mutex. -/
def Locks : WorkerPhase → Prop
  | .testing | .checking | .popping | .unlocking _ | .leaving => True
  | _ => False

/-- The two threads exclude each other. -/
structure Exclusive (state : State) : Prop where
  worker : state.mu = some .worker ↔ Locks state.worker
  watcher : state.mu = some .watcher ↔ state.watcher ≠ .running

structure Ordered (state : State) : Prop where
  order : state.pushed = state.processed ++ inHand state.worker ++ state.pending
  passed : state.processed = state.finished.map Prod.fst ++ current state.worker
  tested : state.worker = .checking → state.stop = true ∨ state.pending ≠ []
  ready : state.worker = .popping → state.pending ≠ []
  drained : Leaves state.worker → state.stop = true ∧ state.processed = state.checked

variable {setup : Setup} {before after : State}

theorem watcherStep_exclusive {action : WatcherAction} (exclusive : Exclusive before)
    (stepped : watcherStep before action = some after) : Exclusive after := by
  obtain ⟨worker, watcher⟩ := exclusive
  cases action <;> cases phase : before.watcher <;> simp only [watcherStep, phase, reduceCtorEq] at stepped
  case lock.running =>
    split at stepped
    next free =>
      cases stepped
      have unlocked : ¬ Locks before.worker := fun locks => by simp [worker.mpr locks] at free
      exact ⟨by simpa using unlocked, by simp⟩
    next => cases stepped
  all_goals
    have held : before.mu = some .watcher := watcher.mpr (by simp [phase])
    have unlocked : ¬ Locks before.worker := fun locks => by simp [worker.mpr locks] at held
    cases stepped
    exact ⟨by simpa [held] using unlocked, by simp [held]⟩

theorem workerStep_exclusive {action : WorkerAction} (exclusive : Exclusive before)
    (stepped : workerStep setup before action = some after) : Exclusive after := by
  obtain ⟨worker, watcher⟩ := exclusive
  cases action <;> cases phase : before.worker <;> simp only [workerStep, phase, reduceCtorEq] at stepped
  case lock.starting | wake.asleep =>
    split at stepped
    next free =>
      cases stepped
      have outside : before.watcher = .running := by
        by_contra inside
        simp [watcher.mpr inside] at free
      exact ⟨by simp [Locks], by simp [outside]⟩
    next => cases stepped
  case call.calling path | finish.processing path =>
    cases stepped
    have unheld : before.mu ≠ some .worker := fun held => by simpa [phase, Locks] using worker.mp held
    exact ⟨by simpa [Locks] using unheld, watcher⟩
  all_goals
    have held : before.mu = some .worker := worker.mpr (by simp [phase, Locks])
    have outside : before.watcher = .running := by
      by_contra inside
      simp [watcher.mpr inside] at held
  case test.testing =>
    split at stepped <;> cases stepped
    · exact ⟨by simp [held, Locks], by simp [held, outside]⟩
    · exact ⟨by simp [Locks], by simp [outside]⟩
  case check.checking =>
    cases stepped
    exact ⟨by simp only [held, true_iff]; split <;> trivial, by simp [held, outside]⟩
  case pop.popping =>
    split at stepped
    next =>
      cases stepped
      exact ⟨by simp [held, Locks], by simp [held, outside]⟩
    next => cases stepped
  case unlock.unlocking path | unlock.leaving =>
    cases stepped
    exact ⟨by simp [Locks], by simp [outside]⟩

theorem watcherStep_ordered {action : WatcherAction} (ordered : Ordered before)
    (stepped : watcherStep before action = some after) : Ordered after := by
  obtain ⟨order, passed, tested, ready, drained⟩ := ordered
  cases action <;> cases phase : before.watcher <;> simp only [watcherStep, phase, reduceCtorEq] at stepped
  case lock.running =>
    split at stepped <;> cases stepped
    exact ⟨order, passed, tested, ready, drained⟩
  case push.locked path =>
    cases stepped
    refine ⟨?_, passed, fun _ => Or.inr (by simp), fun _ => by simp, drained⟩
    rw [order]
    simp only [List.append_assoc]
  case setStop.locked =>
    cases stepped
    exact ⟨order, passed, fun _ => Or.inl rfl, ready, fun leaves => ⟨rfl, (drained leaves).2⟩⟩
  case unlock.unlocking =>
    cases stepped
    exact ⟨order, passed, tested, ready, drained⟩

theorem workerStep_ordered {action : WorkerAction} (ordered : Ordered before)
    (stepped : workerStep setup before action = some after) : Ordered after := by
  obtain ⟨order, passed, tested, ready, drained⟩ := ordered
  cases action <;> cases phase : before.worker <;> simp only [workerStep, phase, reduceCtorEq] at stepped
  all_goals simp only [phase, inHand, current, List.append_nil] at order passed
  case lock.starting | wake.asleep =>
    split at stepped <;> cases stepped
    exact ⟨by simpa [inHand] using order, by simpa [current] using passed, nofun, nofun, nofun⟩
  case test.testing =>
    split at stepped <;> cases stepped
    next holds =>
      exact ⟨by simpa [inHand] using order, by simpa [current] using passed, fun _ => holds, nofun, nofun⟩
    next => exact ⟨by simpa [inHand] using order, by simpa [current] using passed, nofun, nofun, nofun⟩
  case check.checking =>
    cases stepped
    by_cases ends : before.stop = true ∧ before.pending = []
    · rw [if_pos ends]
      refine ⟨by simpa [inHand] using order, by simpa [current] using passed, nofun, nofun, fun _ => ⟨ends.1, ?_⟩⟩
      rw [ends.2, List.append_nil] at order
      exact order.symm
    · rw [if_neg ends]
      refine ⟨by simpa [inHand] using order, by simpa [current] using passed, nofun, fun _ empty => ?_, nofun⟩
      rcases tested phase with stop | waiting
      · exact ends ⟨stop, empty⟩
      · exact waiting empty
  case pop.popping =>
    split at stepped
    next path rest same =>
      cases stepped
      rw [same] at order
      exact ⟨by simpa [inHand] using order, by simpa [current] using passed, nofun, nofun, nofun⟩
    next => cases stepped
  case unlock.unlocking path =>
    cases stepped
    exact ⟨by simpa [inHand] using order, by simpa [current] using passed, nofun, nofun, nofun⟩
  case unlock.leaving =>
    cases stepped
    have leaves : Leaves before.worker := by rw [phase]; trivial
    exact ⟨by simpa [inHand] using order, by simpa [current] using passed, nofun, nofun, fun _ => drained leaves⟩
  case call.calling path =>
    cases stepped
    exact ⟨by simpa [inHand] using order, by simpa [current] using passed, nofun, nofun, nofun⟩
  case finish.processing path call =>
    cases stepped
    exact ⟨by simpa [inHand] using order, by simpa [current] using passed, nofun, nofun, nofun⟩

/-- What holds in every state that a run reaches. -/
structure Invariant (state : State) : Prop where
  exclusive : Exclusive state
  ordered : Ordered state

theorem initial_invariant (world : World) : Invariant (initial world) :=
  ⟨⟨by simp [initial, Locks], by simp [initial]⟩, ⟨rfl, rfl, nofun, nofun, nofun⟩⟩

theorem run_keeps {world : World} {actions : List Action} {state : State}
    (ran : run setup (initial world) actions = some state) : Invariant state := by
  apply Transition.run_invariant ?_ (initial_invariant world) ran
  intro before action after invariant stepped
  cases action with
  | watcher action =>
    exact ⟨watcherStep_exclusive invariant.exclusive stepped, watcherStep_ordered invariant.ordered stepped⟩
  | worker action =>
    exact ⟨workerStep_exclusive invariant.exclusive stepped, workerStep_ordered invariant.ordered stepped⟩

/-- The worker never calls front() on an empty queue. -/
theorem pop_ready {world : World} {actions : List Action} {state : State}
    (ran : run setup (initial world) actions = some state) (popping : state.worker = .popping) : state.pending ≠ [] :=
  (run_keeps ran).ordered.ready popping

/-- What the finished calls have made of the world is what one call after the other makes of it. -/
theorem world_processed {world : World} {actions : List Action} {state : State}
    (ran : run setup (initial world) actions = some state) : state.world = processAll setup state.finished world := by
  apply @Transition.run_invariant State Action (step setup) (fun state => state.world = processAll setup state.finished world) ?_
    _ _ _ rfl ran
  intro before action after same stepped
  cases action with
  | watcher action =>
    cases action <;> cases phase : before.watcher <;> simp only [step, watcherStep, phase, reduceCtorEq] at stepped
    case lock.running =>
      split at stepped <;> cases stepped
      exact same
    all_goals
      cases stepped
      exact same
  | worker action =>
    cases action <;> cases phase : before.worker <;> simp only [step, workerStep, phase, reduceCtorEq] at stepped
    case finish.processing path call =>
      cases stepped
      simp only [processAll, List.foldl_append, List.foldl_cons, List.foldl_nil]
      rw [same]
      rfl
    all_goals
      first
      | (cases stepped; exact same)
      | (split at stepped <;> cases stepped <;> exact same)

/-- At all times the processed paths are the first ones pushed, and the worker returns
only after it is told to stop, with every call for what it saw pushed finished. -/
theorem processed_in_order {world : World} {actions : List Action} {state : State}
    (ran : run setup (initial world) actions = some state) :
    state.processed <+: state.pushed ∧ state.pushed = state.processed ++ inHand state.worker ++ state.pending ∧
      (state.worker = .returned →
        state.stop = true ∧ state.processed = state.checked ∧ state.finished.map Prod.fst = state.checked) := by
  obtain ⟨order, passed, _, _, drained⟩ := (run_keeps ran).ordered
  refine ⟨⟨inHand state.worker ++ state.pending, ?_⟩, order, ?_⟩
  · rw [order, List.append_assoc]
  · intro returned
    rw [returned] at drained passed
    obtain ⟨stop, complete⟩ := drained trivial
    refine ⟨stop, complete, ?_⟩
    rw [← complete, passed]
    simp only [current, List.append_nil]

/-- The stop flag arrives while the worker is busy with the first of two paths. -/
def lateStop : List Action :=
  [.worker .lock, .worker .test, .watcher .lock, .watcher (.push [1]), .watcher .unlock, .worker .wake, .worker .test,
    .worker .check, .worker .pop, .worker .unlock, .worker .call, .watcher .lock, .watcher (.push [2]), .watcher .unlock,
    .watcher .lock, .watcher .setStop, .watcher .unlock, .worker (.finish calmCall), .worker .lock, .worker .test,
    .worker .check, .worker .pop, .worker .unlock, .worker .call, .worker (.finish calmCall), .worker .lock,
    .worker .test, .worker .check, .worker .unlock]

theorem lateStop_in_order :
    ∃ state, run plainSetup (initial ⟨[], [], [], []⟩) lateStop = some state ∧ state.worker = .returned ∧
      state.processed = [[1], [2]] ∧ state.stop = true ∧ state.processed = state.checked ∧
      state.finished.map Prod.fst = state.checked := by
  refine ⟨_, rfl, rfl, rfl, ?_⟩
  exact (@processed_in_order plainSetup ⟨[], [], [], []⟩ lateStop _ rfl).2.2 rfl

end Crashomon.Proofs.QueueOrder
