import Crashomon.Daemon.WorkerWakeups
import Crashomon.Proofs.QueueOrder

/-! No notification that matters is lost: when the worker sleeps and nothing is on its way to wake it, it has
processed everything that was pushed. And the end comes: once the stop flag is set, the two threads have
only so many steps left, can always take one of them, and end with the queue processed. -/

namespace Crashomon.Proofs.WorkerWakeups
open Daemon.Worker Daemon.WorkerWakeups
open QueueOrder (Leaves Locks current inHand)
open WatcherQueues (calmCall plainSetup)

variable {setup : Setup} {before after : State}

/-- The main thread has changed what the worker waits for and has not notified yet. -/
def Due (state : State) : Prop :=
  (∃ stopping, state.main = .inBlock stopping) ∧ state.threads.watcher = .unlocking ∨ ∃ stopping, state.main = .notifying stopping

/-- The main thread has set the stop flag. -/
def Stopping (state : State) : Prop :=
  state.main = .inBlock true ∧ state.threads.watcher = .unlocking ∨ state.main = .notifying true ∨ state.main = .joining ∨
    state.main = .joined

structure Invariant (state : State) : Prop where
  block : (∃ stopping, state.main = .inBlock stopping) ↔ state.threads.watcher ≠ .running
  asleep : state.woken = true → state.threads.worker = .asleep
  awaited : state.threads.worker = .asleep → state.woken = false → state.threads.stop = true ∨ state.threads.pending ≠ [] → Due state
  stopping : state.threads.stop = true ↔ Stopping state
  joined : state.main = .joined → state.threads.worker = .returned
  left : Leaves state.threads.worker → state.threads.stop = true ∧ state.threads.pending = []

section Worker
variable {before after : Daemon.RunWorker.State} {action : Daemon.RunWorker.WorkerAction}

theorem worker_keeps (stepped : Daemon.RunWorker.workerStep setup before action = some after) :
    after.watcher = before.watcher ∧ after.stop = before.stop ∧ after.pushed = before.pushed := by
  cases action <;> cases phase : before.worker <;> simp only [Daemon.RunWorker.workerStep, phase, reduceCtorEq] at stepped
  all_goals
    first
    | (cases stepped; exact ⟨rfl, rfl, rfl⟩)
    | (split at stepped <;> cases stepped <;> exact ⟨rfl, rfl, rfl⟩)

/-- The worker falls asleep only where there is nothing to do. -/
theorem worker_sleeps (stepped : Daemon.RunWorker.workerStep setup before action = some after) (asleep : after.worker = .asleep) :
    ¬ (after.stop = true ∨ after.pending ≠ []) := by
  cases action <;> cases phase : before.worker <;> simp only [Daemon.RunWorker.workerStep, phase, reduceCtorEq] at stepped
  case test.testing =>
    split at stepped <;> cases stepped
    next => cases asleep
    next idle => exact idle
  case check.checking =>
    cases stepped
    dsimp only at asleep
    split at asleep
    · cases asleep
    · cases asleep
  all_goals
    first
    | (cases stepped; cases asleep)
    | (split at stepped <;> cases stepped; cases asleep)

theorem worker_wakes (stepped : Daemon.RunWorker.workerStep setup before action = some after) (asleep : before.worker = .asleep) :
    action = .wake := by
  cases action <;> simp only [Daemon.RunWorker.workerStep, asleep, reduceCtorEq] at stepped
  rfl

theorem worker_leaves_wait (stepped : Daemon.RunWorker.workerStep setup before .wake = some after) :
    before.worker = .asleep ∧ after.worker = .testing := by
  cases phase : before.worker <;> simp only [Daemon.RunWorker.workerStep, phase, reduceCtorEq] at stepped
  split at stepped <;> cases stepped
  exact ⟨rfl, rfl⟩

/-- The worker leaves with the flag set and the queue empty. -/
theorem worker_left (stepped : Daemon.RunWorker.workerStep setup before action = some after)
    (left : Leaves before.worker → before.stop = true ∧ before.pending = []) (leaves : Leaves after.worker) :
    after.stop = true ∧ after.pending = [] := by
  cases action <;> cases phase : before.worker <;> simp only [Daemon.RunWorker.workerStep, phase, reduceCtorEq] at stepped
  case check.checking =>
    cases stepped
    by_cases ends : before.stop = true ∧ before.pending = []
    · exact ends
    · rw [if_neg ends] at leaves
      exact leaves.elim
  case unlock.leaving =>
    cases stepped
    exact left (by rw [phase]; trivial)
  all_goals
    first
    | (cases stepped; exact leaves.elim)
    | (split at stepped <;> cases stepped <;> exact leaves.elim)

theorem worker_not_returned (stepped : Daemon.RunWorker.workerStep setup before action = some after) : before.worker ≠ .returned := by
  intro returned
  cases action <;> simp only [Daemon.RunWorker.workerStep, returned, reduceCtorEq] at stepped

end Worker

/-- What a step of either thread does. -/
inductive Moves (setup : Setup) (before : State) : State → Prop where
  | lock (stopping : Bool) (from_ : before.main = if stopping then .leaving else .looping) (free : before.threads.mu = none)
      (running : before.threads.watcher = .running) :
      Moves setup before { before with threads := { before.threads with mu := some .watcher, watcher := .locked }, main := .inBlock stopping }
  | push (path : ByteString) (main : before.main = .inBlock false) (locked : before.threads.watcher = .locked) :
      Moves setup before { before with threads := { before.threads with
        pending := before.threads.pending ++ [path], watcher := .unlocking, pushed := before.threads.pushed ++ [path] } }
  | setStop (main : before.main = .inBlock true) (locked : before.threads.watcher = .locked) :
      Moves setup before { before with threads := { before.threads with stop := true, watcher := .unlocking } }
  | unlock (stopping : Bool) (main : before.main = .inBlock stopping) (unlocking : before.threads.watcher = .unlocking) :
      Moves setup before { before with threads := { before.threads with mu := none, watcher := .running }, main := .notifying stopping }
  | notify (stopping : Bool) (main : before.main = .notifying stopping) :
      Moves setup before { before with main := if stopping then .joining else .looping, woken := before.woken || waits before.threads.worker }
  | leave (main : before.main = .looping) : Moves setup before { before with main := .leaving }
  | join (main : before.main = .joining) (returned : before.threads.worker = .returned) : Moves setup before { before with main := .joined }
  | worker (action : Daemon.RunWorker.WorkerAction) (threads : Daemon.RunWorker.State) (other : action ≠ .wake)
      (stepped : Daemon.RunWorker.workerStep setup before.threads action = some threads) : Moves setup before { before with threads }
  | wake (threads : Daemon.RunWorker.State) (stepped : Daemon.RunWorker.workerStep setup before.threads .wake = some threads) :
      Moves setup before { before with threads, woken := false }

theorem moves_of_mainStep {action : Action} (stepped : mainStep before action = some after) : Moves setup before after := by
  cases action <;> cases main : before.main <;> simp only [mainStep, main, reduceCtorEq] at stepped
  case lock.looping | lock.leaving =>
    cases phase : before.threads.watcher <;> simp only [Daemon.RunWorker.watcherStep, phase, Option.map_none, reduceCtorEq] at stepped
    split at stepped <;> cases stepped
    next free => exact .lock _ main free phase
  case push.inBlock path stopping =>
    cases stopping <;> simp only [reduceCtorEq] at stepped
    cases phase : before.threads.watcher <;> simp only [Daemon.RunWorker.watcherStep, phase, Option.map_none, reduceCtorEq] at stepped
    cases stepped
    exact main ▸ .push path main phase
  case setStop.inBlock stopping =>
    cases stopping <;> simp only [reduceCtorEq] at stepped
    cases phase : before.threads.watcher <;> simp only [Daemon.RunWorker.watcherStep, phase, Option.map_none, reduceCtorEq] at stepped
    cases stepped
    exact main ▸ .setStop main phase
  case unlock.inBlock stopping =>
    cases phase : before.threads.watcher <;> simp only [Daemon.RunWorker.watcherStep, phase, Option.map_none, reduceCtorEq] at stepped
    cases stepped
    exact .unlock stopping main phase
  case notify.notifying stopping =>
    cases stepped
    exact .notify stopping main
  case leave.looping =>
    cases stepped
    exact .leave main
  case join.joining =>
    split at stepped <;> cases stepped
    next returned => exact .join main returned

theorem step_moves {action : Action} (stepped : step setup before action = some after) : Moves setup before after := by
  cases action with
  | worker action =>
    cases action with
    | wake =>
      rw [step] at stepped
      split at stepped
      next =>
        obtain ⟨threads, moved, rfl⟩ := Option.map_eq_some_iff.mp stepped
        exact .wake threads moved
      next => cases stepped
    | _ =>
      obtain ⟨threads, moved, rfl⟩ := Option.map_eq_some_iff.mp stepped
      refine .worker _ threads ?_ moved
      nofun
  | spurious =>
    obtain ⟨threads, moved, rfl⟩ := Option.map_eq_some_iff.mp stepped
    exact .wake threads moved
  | _ => exact moves_of_mainStep stepped

theorem initial_invariant (world : World) : Invariant (initial world) where
  block := by simp [initial, Daemon.RunWorker.initial]
  asleep := nofun
  awaited := nofun
  stopping := by simp [initial, Daemon.RunWorker.initial, Stopping]
  joined := nofun
  left := nofun

theorem Invariant.moves (invariant : Invariant before) (moves : Moves setup before after) : Invariant after := by
  obtain ⟨block, asleep, awaited, stopping, joined, left⟩ := invariant
  cases moves with
  | lock stops from_ free running =>
    have outside : ¬ ∃ stopping, before.main = .inBlock stopping := fun inside => block.mp inside running
    have idle : ¬ Due before := by
      rintro (⟨inside, _⟩ | ⟨_, notifies⟩)
      · exact outside inside
      · cases stops <;> simp [from_] at notifies
    refine ⟨by simp, asleep, fun sleeps unwoken ready => absurd (awaited sleeps unwoken ready) idle, ?_, nofun, left⟩
    rw [stopping]
    cases stops <;> simp [Stopping, from_]
  | push path main locked =>
    have unset : before.threads.stop ≠ true := by
      rw [Ne, stopping]
      simp [Stopping, main]
    refine ⟨by simp [main], asleep, fun _ _ _ => Or.inl ⟨⟨_, main⟩, rfl⟩, ?_, joined, fun leaves => absurd (left leaves).1 unset⟩
    rw [stopping]
    simp [Stopping, main]
  | setStop main locked =>
    exact ⟨by simp [main], asleep, fun _ _ _ => Or.inl ⟨⟨_, main⟩, rfl⟩, by simp [Stopping, main], joined,
      fun leaves => ⟨rfl, (left leaves).2⟩⟩
  | unlock stops main unlocking =>
    refine ⟨by simp, asleep, fun _ _ _ => Or.inr ⟨_, rfl⟩, ?_, nofun, left⟩
    rw [stopping]
    simp [Stopping, main, unlocking]
  | notify stops main =>
    have running : before.threads.watcher = .running := by
      by_contra inside
      obtain ⟨_, impossible⟩ := block.mpr inside
      rw [main] at impossible
      cases impossible
    refine ⟨by cases stops <;> simp [running], fun woken => ?_, fun sleeps unwoken _ => ?_, ?_, by cases stops <;> simp, left⟩
    · rcases (Bool.or_eq_true _ _).mp woken with already | waiting
      · exact asleep already
      · revert waiting
        cases before.threads.worker <;> simp [waits]
    · have sleeps : before.threads.worker = .asleep := sleeps
      simp [sleeps, waits] at unwoken
    · rw [stopping]
      cases stops <;> simp [Stopping, main]
  | leave main =>
    have idle : ¬ Due before := by simp [Due, main]
    refine ⟨by simpa [main] using block, asleep, fun sleeps unwoken ready => absurd (awaited sleeps unwoken ready) idle, ?_, nofun, left⟩
    rw [stopping]
    simp [Stopping, main]
  | join main returned =>
    have idle : ¬ Due before := by simp [Due, main]
    refine ⟨by simpa [main] using block, asleep, fun sleeps unwoken ready => absurd (awaited sleeps unwoken ready) idle, ?_,
      fun _ => returned, left⟩
    rw [stopping]
    simp [Stopping, main]
  | worker action threads other stepped =>
    obtain ⟨watcher, stop, _⟩ := worker_keeps stepped
    refine ⟨by rw [watcher]; exact block, fun woken => absurd (worker_wakes stepped (asleep woken)) other,
      fun sleeps _ ready => absurd ready (worker_sleeps stepped sleeps), ?_,
      fun ended => absurd (joined ended) (worker_not_returned stepped), worker_left stepped left⟩
    rw [stop, stopping]
    simp only [Stopping, watcher]
  | wake threads stepped =>
    obtain ⟨watcher, stop, _⟩ := worker_keeps stepped
    refine ⟨by rw [watcher]; exact block, nofun, fun sleeps _ ready => absurd ready (worker_sleeps stepped sleeps), ?_,
      fun ended => absurd (joined ended) (worker_not_returned stepped), worker_left stepped left⟩
    rw [stop, stopping]
    simp only [Stopping, watcher]

theorem Invariant.step {action : Action} (invariant : Invariant before) (stepped : step setup before action = some after) :
    Invariant after := invariant.moves (step_moves stepped)

/-- The two threads take the steps that they take without the condition variable. -/
theorem moves_project (moves : Moves setup before after) :
    after.threads = before.threads ∨ ∃ action, Daemon.RunWorker.step setup before.threads action = some after.threads := by
  cases moves with
  | lock stops from_ free running => exact Or.inr ⟨.watcher .lock, by simp [Daemon.RunWorker.step, Daemon.RunWorker.watcherStep, running, free]⟩
  | push path main locked => exact Or.inr ⟨.watcher (.push path), by simp [Daemon.RunWorker.step, Daemon.RunWorker.watcherStep, locked]⟩
  | setStop main locked => exact Or.inr ⟨.watcher .setStop, by simp [Daemon.RunWorker.step, Daemon.RunWorker.watcherStep, locked]⟩
  | unlock stops main unlocking => exact Or.inr ⟨.watcher .unlock, by simp [Daemon.RunWorker.step, Daemon.RunWorker.watcherStep, unlocking]⟩
  | notify stops main => exact Or.inl rfl
  | leave main => exact Or.inl rfl
  | join main returned => exact Or.inl rfl
  | worker action threads other stepped => exact Or.inr ⟨.worker action, stepped⟩
  | wake threads stepped => exact Or.inr ⟨.worker .wake, stepped⟩

theorem run_projects {world : World} {actions : List Action} {state : State} (ran : run setup (initial world) actions = some state) :
    ∃ inner, Daemon.RunWorker.run setup (Daemon.RunWorker.initial world) inner = some state.threads := by
  apply @Transition.run_invariant State Action (step setup)
    (fun state => ∃ inner, Daemon.RunWorker.run setup (Daemon.RunWorker.initial world) inner = some state.threads) ?_ _ _ _ ⟨[], rfl⟩ ran
  intro before action after ⟨inner, reached⟩ stepped
  rcases moves_project (step_moves stepped) with same | ⟨move, moved⟩
  · exact ⟨inner, reached.trans (congrArg some same.symm)⟩
  · refine ⟨inner ++ [move], ?_⟩
    rw [Daemon.RunWorker.run] at reached ⊢
    rw [Transition.run_append, reached, Option.bind_some, Transition.run, moved]
    rfl

theorem run_invariant {world : World} {actions : List Action} {state : State} (ran : run setup (initial world) actions = some state) :
    Invariant state ∧ QueueOrder.Invariant state.threads := by
  obtain ⟨inner, reached⟩ := run_projects ran
  exact ⟨Transition.run_invariant Invariant.step (initial_invariant world) ran, QueueOrder.run_keeps reached⟩

theorem run_further {start state last : State} {actions more : List Action} (ran : run setup start actions = some state)
    (further : run setup state more = some last) : run setup start (actions ++ more) = some last := by
  rw [run] at ran further ⊢
  rw [Transition.run_append, ran]
  exact further

/-- Where nothing is queued and the worker holds no path, all that was pushed has been processed. -/
theorem all_processed {world : World} {actions : List Action} {state : State} (ran : run setup (initial world) actions = some state)
    (empty : state.threads.pending = []) (hand : inHand state.threads.worker = []) (free : current state.threads.worker = []) :
    state.threads.finished.map Prod.fst = state.threads.pushed ∧
      state.threads.world = processAll setup state.threads.finished world := by
  obtain ⟨inner, reached⟩ := run_projects ran
  have ordered := (run_invariant ran).2.ordered
  have order := ordered.order
  have passed := ordered.passed
  rw [empty, hand, List.append_nil, List.append_nil] at order
  rw [free, List.append_nil] at passed
  exact ⟨by rw [order, passed], QueueOrder.world_processed reached⟩

section Progress
variable {state : State}

/-- How many steps the worker has left for a queue of a length. -/
def workerRank (pending : Nat) : Daemon.RunWorker.WorkerPhase → Nat
  | .unlocking _ => 7 * pending + 7
  | .calling _ => 7 * pending + 6
  | .processing _ => 7 * pending + 5
  | .starting | .asleep => 7 * pending + 4
  | .testing => 7 * pending + 3
  | .checking => 7 * pending + 2
  | .popping => 7 * pending + 1
  | .leaving => 1
  | .returned => 0

theorem workerRank_le (pending : Nat) (phase : Daemon.RunWorker.WorkerPhase) : workerRank pending phase ≤ 7 * pending + 7 := by
  cases phase <;> simp only [workerRank] <;> omega

/-- Each step of the worker brings it nearer to the end, unless it falls asleep. -/
theorem worker_descends {before after : Daemon.RunWorker.State} {action : Daemon.RunWorker.WorkerAction}
    (stepped : Daemon.RunWorker.workerStep setup before action = some after) :
    after.worker = .asleep ∨ workerRank after.pending.length after.worker < workerRank before.pending.length before.worker := by
  cases action <;> cases phase : before.worker <;> simp only [Daemon.RunWorker.workerStep, phase, reduceCtorEq] at stepped
  case lock.starting | wake.asleep =>
    split at stepped <;> cases stepped
    right
    simp only [workerRank]
    omega
  case test.testing =>
    split at stepped <;> cases stepped
    · right
      simp only [workerRank]
      omega
    · exact Or.inl rfl
  case check.checking =>
    cases stepped
    right
    dsimp only
    split <;> simp only [workerRank] <;> omega
  case pop.popping =>
    split at stepped
    next path rest same =>
      cases stepped
      right
      simp only [workerRank, same, List.length_cons]
      omega
    next => cases stepped
  all_goals
    cases stepped
    right
    simp only [workerRank]
    omega

/-- Where the main thread holds no lock, an awake worker can go on. -/
theorem worker_ready (queue : QueueOrder.Invariant state.threads) (running : state.threads.watcher = .running)
    (awake : state.threads.worker = .asleep → state.woken = true) (active : state.threads.worker ≠ .returned) :
    ∃ action, (step setup state (.worker action)).isSome = true := by
  obtain ⟨⟨worker, watcher⟩, ordered⟩ := queue
  have free (unlocked : ¬ Locks state.threads.worker) : state.threads.mu = none := by
    cases held : state.threads.mu with
    | none => rfl
    | some thread =>
      cases thread with
      | watcher => exact absurd running (watcher.mp held)
      | worker => exact absurd (worker.mp held) unlocked
  cases phase : state.threads.worker with
  | starting =>
    have open_ := free (by simp [phase, Locks])
    exact ⟨.lock, by simp [step, workerStep, Daemon.RunWorker.workerStep, phase, open_]⟩
  | testing =>
    refine ⟨.test, ?_⟩
    simp only [step, workerStep, Daemon.RunWorker.workerStep, phase, Option.isSome_map]
    split <;> rfl
  | asleep =>
    have open_ := free (by simp [phase, Locks])
    exact ⟨.wake, by simp [step, wake, Daemon.RunWorker.workerStep, phase, open_, awake phase]⟩
  | checking => exact ⟨.check, by simp [step, workerStep, Daemon.RunWorker.workerStep, phase]⟩
  | popping =>
    have waiting := ordered.ready phase
    refine ⟨.pop, ?_⟩
    simp only [step, workerStep, Daemon.RunWorker.workerStep, phase, Option.isSome_map]
    split
    next => rfl
    next empty => exact absurd empty waiting
  | unlocking path => exact ⟨.unlock, by simp [step, workerStep, Daemon.RunWorker.workerStep, phase]⟩
  | calling path => exact ⟨.call, by simp [step, workerStep, Daemon.RunWorker.workerStep, phase]⟩
  | processing path => exact ⟨.finish calmCall, by simp [step, workerStep, Daemon.RunWorker.workerStep, phase]⟩
  | leaving => exact ⟨.unlock, by simp [step, workerStep, Daemon.RunWorker.workerStep, phase]⟩
  | returned => exact absurd phase active

theorem running_of_main (invariant : Invariant state) (outside : ∀ stopping, state.main ≠ .inBlock stopping) :
    state.threads.watcher = .running := by
  by_contra inside
  obtain ⟨stopping, main⟩ := invariant.block.mpr inside
  exact outside stopping main

end Progress

section Rest
variable {state : State}

/-- The worker sleeps, and nothing is on its way to wake it. -/
def Rests (state : State) : Prop := state.threads.worker = .asleep ∧ state.woken = false ∧ ¬ Due state

theorem waits_iff {phase : Daemon.RunWorker.WorkerPhase} : waits phase = true ↔ phase = .asleep := by
  cases phase <;> simp [waits]

/-- How many steps the worker has left while the main thread takes none. -/
def restRank (state : State) : Nat :=
  if waits state.threads.worker ∧ state.woken = false then 0 else workerRank state.threads.pending.length state.threads.worker

theorem restRank_le (state : State) : restRank state ≤ 7 * state.threads.pending.length + 7 := by
  unfold restRank
  split
  · exact Nat.zero_le _
  · exact workerRank_le ..

theorem rest_descends (invariant : Invariant before) {action : Daemon.RunWorker.WorkerAction}
    (stepped : step setup before (.worker action) = some after) : restRank after < restRank before := by
  have moved {threads : Daemon.RunWorker.State} (other : action ≠ .wake)
      (moved : Daemon.RunWorker.workerStep setup before.threads action = some threads) :
      restRank { before with threads } < restRank before := by
    have awake : before.threads.worker ≠ .asleep := fun asleep => other (worker_wakes moved asleep)
    have unwoken : before.woken = false := Bool.eq_false_iff.mpr fun woken => awake (invariant.asleep woken)
    have own : restRank before = workerRank before.threads.pending.length before.threads.worker :=
      if_neg fun sleeps => awake (waits_iff.mp sleeps.1)
    rw [own]
    rcases worker_descends moved with asleep | less
    · rw [restRank, if_pos ⟨waits_iff.mpr asleep, unwoken⟩]
      have active := worker_not_returned moved
      revert active
      cases before.threads.worker <;> simp [workerRank]
    · refine lt_of_le_of_lt ?_ less
      rw [restRank]
      split
      · exact Nat.zero_le _
      · exact Nat.le_refl _
  cases action with
  | wake =>
    rw [step] at stepped
    split at stepped
    next woken =>
      obtain ⟨threads, left, rfl⟩ := Option.map_eq_some_iff.mp stepped
      have less := (worker_descends left).resolve_left (by rw [(worker_leaves_wait left).2]; nofun)
      rw [restRank, if_neg (by rw [(worker_leaves_wait left).2]; simp [waits]), restRank, if_neg (by simp [woken])]
      exact less
    next => cases stepped
  | _ =>
    obtain ⟨threads, taken, rfl⟩ := Option.map_eq_some_iff.mp stepped
    exact moved nofun taken

theorem worker_main {action : Daemon.RunWorker.WorkerAction} (stepped : step setup before (.worker action) = some after) :
    after.main = before.main := by
  cases action with
  | wake =>
    rw [step] at stepped
    split at stepped
    next =>
      obtain ⟨threads, _, rfl⟩ := Option.map_eq_some_iff.mp stepped
      rfl
    next => cases stepped
  | _ =>
    obtain ⟨threads, _, rfl⟩ := Option.map_eq_some_iff.mp stepped
    rfl

/-- The main thread is in its loop or behind it, outside the blocks. -/
def Outside (state : State) : Prop := state.main = .looping ∨ state.main = .leaving

theorem Outside.not_inBlock (outside : Outside before) (stopping : Bool) : before.main ≠ .inBlock stopping := by
  rcases outside with looping | leaving
  · simp [looping]
  · simp [leaving]

theorem Outside.not_due (invariant : Invariant before) (outside : Outside before) : ¬ Due before := by
  have running := running_of_main invariant outside.not_inBlock
  rcases outside with looping | leaving
  · simp [Due, running, looping]
  · simp [Due, running, leaving]

theorem Outside.not_stopping (outside : Outside before) : ¬ Stopping before := by
  rcases outside with looping | leaving
  · simp [Stopping, looping]
  · simp [Stopping, leaving]

/-- The worker moves alone. -/
def Alone (state : State) : Prop := Invariant state ∧ Outside state

theorem Alone.worker {action : Daemon.RunWorker.WorkerAction} (alone : Alone before)
    (stepped : step setup before (.worker action) = some after) : Alone after := by
  refine ⟨alone.1.step stepped, ?_⟩
  rw [Outside, worker_main stepped]
  exact alone.2

end Rest

/-- A worker that rests has processed all that was pushed. While the main thread is in its loop or behind it and enters no block, the
worker comes to rest by itself, in a number of steps that the queue bounds. -/
theorem pushes_handled {world : World} {actions : List Action} {state : State} (ran : run setup (initial world) actions = some state) :
    (Rests state → state.threads.stop = false ∧ state.threads.finished.map Prod.fst = state.threads.pushed ∧
      state.threads.world = processAll setup state.threads.finished world) ∧
    (Outside state → ∀ (moves : List Daemon.RunWorker.WorkerAction) (last : State), run setup state (moves.map .worker) = some last →
      moves.length ≤ 7 * state.threads.pending.length + 7 ∧
        (Rests last ∨ ∃ action, (step setup last (.worker action)).isSome = true)) := by
  have invariant := (run_invariant ran).1
  constructor
  · intro ⟨asleep, unwoken, idle⟩
    have nothing : ¬ (state.threads.stop = true ∨ state.threads.pending ≠ []) := fun ready => idle (invariant.awaited asleep unwoken ready)
    obtain ⟨unset, empty⟩ := not_or.mp nothing
    exact ⟨Bool.eq_false_iff.mpr unset, all_processed ran (not_not.mp empty) (by rw [asleep]; rfl) (by rw [asleep]; rfl)⟩
  · intro outside moves last further
    have alone := further
    rw [run, Transition.run_map] at alone
    have main : Alone last :=
      Transition.run_invariant (fun held stepped => Alone.worker held stepped) ⟨invariant, outside⟩ alone
    have short : moves.length + restRank last ≤ restRank state :=
      Transition.run_descends Alone.worker (fun held stepped => rest_descends held.1 stepped) ⟨invariant, outside⟩ alone
    have bound := restRank_le state
    refine ⟨by omega, ?_⟩
    have reached := run_further ran further
    have running := running_of_main main.1 main.2.not_inBlock
    by_cases rests : last.threads.worker = .asleep ∧ last.woken = false
    · exact Or.inl ⟨rests.1, rests.2, main.2.not_due main.1⟩
    · refine Or.inr (worker_ready (run_invariant reached).2 running (fun asleep => ?_) fun returned => ?_)
      · exact Bool.not_eq_false _ ▸ fun unwoken => rests ⟨asleep, unwoken⟩
      · have stop := (main.1.left (by rw [returned]; trivial)).1
        exact main.2.not_stopping (main.1.stopping.mp stop)

/-- A dump arrives while the worker sleeps. -/
def oneDump : List Action :=
  [.worker .lock, .worker .test, .lock, .push [1], .unlock, .notify, .worker .wake, .worker .test, .worker .check, .worker .pop,
    .worker .unlock, .worker .call, .worker (.finish calmCall), .worker .lock, .worker .test]

theorem oneDump_handled : ∃ state, run plainSetup (initial ⟨[], [], [], []⟩) oneDump = some state ∧
    state.threads.finished.map Prod.fst = [[1]] ∧ state.threads.finished.map Prod.fst = state.threads.pushed := by
  refine ⟨_, rfl, rfl, ?_⟩
  refine ((@pushes_handled plainSetup ⟨[], [], [], []⟩ oneDump _ rfl).1 ⟨rfl, rfl, ?_⟩).2.1
  rintro (⟨⟨_, impossible⟩, _⟩ | ⟨_, impossible⟩)
  · cases impossible
  · cases impossible

section Stopping
variable {state : State}

/-- How many steps the main thread has left once it has set the flag. -/
def mainRank : MainPhase → Nat
  | .inBlock _ => 3
  | .notifying _ => 2
  | .joining => 1
  | _ => 0

def rank (state : State) : Nat := workerRank state.threads.pending.length state.threads.worker + mainRank state.main

theorem rank_le (state : State) : rank state ≤ 7 * state.threads.pending.length + 10 := by
  have worker := workerRank_le state.threads.pending.length state.threads.worker
  have main : mainRank state.main ≤ 3 := by cases state.main <;> simp [mainRank]
  unfold rank
  omega

theorem stopping_descends (invariant : Invariant before) (stop : before.threads.stop = true) (moves : Moves setup before after) :
    after.threads.stop = true ∧ rank after < rank before := by
  have stopping := invariant.stopping.mp stop
  cases moves with
  | lock stops from_ free running => cases stops <;> simp [Stopping, from_] at stopping
  | push path main locked => simp [Stopping, main] at stopping
  | setStop main locked => simp [Stopping, main, locked] at stopping
  | leave main => simp [Stopping, main] at stopping
  | unlock stops main unlocking => exact ⟨stop, by simp [rank, mainRank, main]⟩
  | notify stops main =>
    have stops : stops = true := by simpa [Stopping, main] using stopping
    exact ⟨stop, by simp [rank, mainRank, main, stops]⟩
  | join main returned => exact ⟨stop, by simp [rank, mainRank, main]⟩
  | worker action threads other stepped =>
    have set : threads.stop = true := (worker_keeps stepped).2.1.trans stop
    refine ⟨set, Nat.add_lt_add_right ?_ _⟩
    refine (worker_descends stepped).resolve_left fun asleep => ?_
    exact worker_sleeps stepped asleep (Or.inl set)
  | wake threads stepped =>
    refine ⟨(worker_keeps stepped).2.1.trans stop, Nat.add_lt_add_right ?_ _⟩
    refine (worker_descends stepped).resolve_left ?_
    rw [(worker_leaves_wait stepped).2]
    nofun

/-- The stop flag is set. -/
def Ending (state : State) : Prop := Invariant state ∧ state.threads.stop = true

theorem Ending.step {action : Action} (ending : Ending before) (stepped : step setup before action = some after) : Ending after :=
  ⟨ending.1.step stepped, (stopping_descends ending.1 ending.2 (step_moves stepped)).1⟩

theorem Ending.descends {action : Action} (ending : Ending before) (stepped : Daemon.WorkerWakeups.step setup before action = some after) :
    rank after < rank before := (stopping_descends ending.1 ending.2 (step_moves stepped)).2

/-- Until the main thread has joined the worker, one of the two can go on, without a spurious wake-up. -/
theorem stopping_ready (invariant : Invariant state) (queue : QueueOrder.Invariant state.threads) (stop : state.threads.stop = true)
    (unfinished : state.main ≠ .joined) : ∃ action, action ≠ .spurious ∧ (step setup state action).isSome = true := by
  rcases invariant.stopping.mp stop with ⟨main, unlocking⟩ | main | main | main
  · exact ⟨.unlock, by simp, by simp [step, mainStep, main, Daemon.RunWorker.watcherStep, unlocking]⟩
  · exact ⟨.notify, by simp, by simp [step, mainStep, main]⟩
  · by_cases returned : state.threads.worker = .returned
    · exact ⟨.join, by simp, by simp [step, mainStep, main, returned]⟩
    · have running := running_of_main invariant (by simp [main])
      have awake : state.threads.worker = .asleep → state.woken = true := by
        intro asleep
        by_contra unwoken
        have due := invariant.awaited asleep (Bool.eq_false_iff.mpr unwoken) (Or.inl stop)
        simp [Due, main] at due
      have able : ∃ action, (step setup state (.worker action)).isSome = true := worker_ready queue running awake returned
      obtain ⟨action, ready⟩ := able
      exact ⟨.worker action, by simp, ready⟩
  · exact absurd main unfinished

end Stopping

/-- Once the stop flag is set the two threads take a bounded number of further steps, in whatever order, and never depend on a spurious
wake-up before the main thread has joined the worker. Then everything pushed has been processed. -/
theorem shutdown_ends {world : World} {actions more : List Action} {state last : State}
    (ran : run setup (initial world) actions = some state) (stop : state.threads.stop = true)
    (further : run setup state more = some last) :
    more.length ≤ 7 * state.threads.pending.length + 10 ∧
      (last.main ≠ .joined → ∃ action, action ≠ .spurious ∧ (step setup last action).isSome = true) ∧
      (last.main = .joined → last.threads.worker = .returned ∧ last.threads.finished.map Prod.fst = last.threads.pushed ∧
        last.threads.world = processAll setup last.threads.finished world) := by
  have invariant := (run_invariant ran).1
  have short := Transition.run_descends Ending.step Ending.descends ⟨invariant, stop⟩ further
  have set : Ending last := Transition.run_invariant Ending.step ⟨invariant, stop⟩ further
  have reached := run_further ran further
  have queue := (run_invariant reached).2
  have bound := rank_le state
  refine ⟨by omega, stopping_ready set.1 queue set.2, fun joined => ?_⟩
  have returned := set.1.joined joined
  have empty := (set.1.left (by rw [returned]; trivial)).2
  exact ⟨returned, all_processed reached empty (by rw [returned]; rfl) (by rw [returned]; rfl)⟩

/-- The flag is set while a dump waits. -/
def stopWithDump : List Action := [.lock, .push [1], .unlock, .notify, .leave, .lock, .setStop]

def drainAndJoin : List Action :=
  [.unlock, .worker .lock, .worker .test, .worker .check, .worker .pop, .worker .unlock, .worker .call, .worker (.finish calmCall),
    .notify, .worker .lock, .worker .test, .worker .check, .worker .unlock, .join]

theorem stopWithDump_ends : ∃ state last, run plainSetup (initial ⟨[], [], [], []⟩) stopWithDump = some state ∧
    run plainSetup state drainAndJoin = some last ∧ last.threads.pushed = [[1]] ∧
    last.threads.finished.map Prod.fst = last.threads.pushed :=
  ⟨_, _, rfl, rfl, rfl, ((@shutdown_ends plainSetup ⟨[], [], [], []⟩ stopWithDump drainAndJoin _ _ rfl rfl rfl).2.2 rfl).2.1⟩

end Crashomon.Proofs.WorkerWakeups
