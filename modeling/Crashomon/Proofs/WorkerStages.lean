import Crashomon.Proofs.QueueOrder
import Mathlib.Logic.Relation

/-! The worker thread's stages and ProcessNewMinidump. A pass of the worker that
nothing interrupts computes what the function computes in one piece, and the
worker with its mutex does nothing that the one without does not. -/

namespace Crashomon.Proofs.WorkerStages
open Bytes Transition Daemon Daemon.DiskManager Daemon.MinidumpReader Daemon.Worker
open Daemon.Watcher hiding run

def afterLoop : Status → WorkerPhase
  | .ok _ => .pruningExports
  | .error _ => .waiting

theorem removing_run {setup : Setup} {calls : DirectoryCalls} {reports : List Report} {total : Nat} {state : State}
    (phase : state.worker = .removing reports total calls) :
    ∃ turns, run (step setup) state (List.replicate turns (.worker .removeNext)) = some { state with
      worker := afterLoop (pruneReports setup.config calls reports total state.world.pending).1
      world := { state.world with pending := (pruneReports setup.config calls reports total state.world.pending).2 } } := by
  induction reports generalizing state total with
  | nil =>
    refine ⟨1, ?_⟩
    simp only [List.replicate_one, run, step, workerStep, phase, removeStep, pruneReports, afterLoop, Option.bind_some]
  | cons report rest ih =>
    have turn : step setup state (.worker .removeNext) = some (removeStep setup state calls (report :: rest) total) := by
      simp only [step, workerStep, phase]
    rw [removeStep] at turn
    rw [pruneReports]
    split at turn
    next within =>
      obtain ⟨turns, ended⟩ := @ih total { state with worker := .removing rest total calls } rfl
      refine ⟨turns + 1, ?_⟩
      rw [List.replicate_succ, run, turn, Option.bind_some, ended, if_pos within]
    next exceeds =>
      rw [if_neg exceeds]
      split at turn
      next failed =>
        refine ⟨1, ?_⟩
        rw [List.replicate_one, run, turn, Option.bind_some, run, if_pos failed]
        rfl
      next removed =>
        obtain ⟨turns, ended⟩ := @ih (u64 (total - report.size)) { state with
          worker := .removing rest (u64 (total - report.size)) calls
          world := { state.world with pending := removeReport calls report state.world.pending } } rfl
        refine ⟨turns + 1, ?_⟩
        rw [List.replicate_succ, run, turn, Option.bind_some, ended, if_neg removed]

/-- A failed removal is an internal error, never a missing directory. -/
theorem pruneReports_error {config : DiskManagerConfig} {calls : DirectoryCalls} {reports : List Report} {total : Nat}
    {files : List StoredFile} {failure : StatusError}
    (failed : (pruneReports config calls reports total files).1 = .error failure) : failure.code = .internal := by
  induction reports generalizing total files with
  | nil => cases failed
  | cons report rest ih =>
    rw [pruneReports] at failed
    split at failed
    next => exact ih failed
    next =>
      split at failed
      next =>
        cases failed
        rfl
      next => exact ih failed

private theorem exports_run {setup : Setup} {state : State} (phase : state.worker = .pruningExports) (calls : DirectoryCalls) :
    run (step setup) state [.worker (.pruneExports calls)] = some { state with
      worker := .waiting
      world := if setup.config.exportPath = [] then state.world
        else { state.world with exported := (pruneExportDir setup.sort setup.config calls state.world.exported).2 } } := by
  simp only [run, step, workerStep, phase, Option.bind_some]

/-- Pruning goes on to the exports: all went well, or there is no pending directory. -/
def GoesOn : Status → Prop
  | .ok _ => True
  | .error failure => failure.code = .notFound

section Prune
variable {setup : Setup} {call : Circumstances} {world : World} {status : Status} {kept : List StoredFile}

theorem pruneWorld_goesOn (pruned : prunePendingDir setup.sort setup.config call.pendingCalls world.pending = (status, kept))
    (onward : GoesOn status) :
    pruneWorld setup call world = if setup.config.exportPath = [] then { world with pending := kept }
      else { world with
        pending := kept
        exported := (pruneExportDir setup.sort setup.config call.exportCalls world.exported).2 } := by
  have both : pruneMinidumps setup.sort setup.config call.pendingCalls call.exportCalls world.pending world.exported =
      ((if setup.config.exportPath = [] then (.ok (), world.exported)
        else pruneExportDir setup.sort setup.config call.exportCalls world.exported).1, kept,
        (if setup.config.exportPath = [] then (.ok (), world.exported)
          else pruneExportDir setup.sort setup.config call.exportCalls world.exported).2) := by
    rw [pruneMinidumps, pruned]
    cases status with
    | ok _ => rfl
    | error failure => exact if_pos onward
  rw [pruneWorld, both]
  split
  next => rfl
  next => rfl

theorem pruneWorld_stops {failure : StatusError} (severe : failure.code ≠ .notFound)
    (pruned : prunePendingDir setup.sort setup.config call.pendingCalls world.pending = (.error failure, kept)) :
    pruneWorld setup call world = { world with pending := kept } := by
  have both : pruneMinidumps setup.sort setup.config call.pendingCalls call.exportCalls world.pending world.exported =
      (.error failure, kept, world.exported) := by
    rw [pruneMinidumps, pruned]
    exact if_neg severe
  rw [pruneWorld, both]

private theorem exports_complete {state : State} (phase : state.worker = .pruningExports)
    (pruned : prunePendingDir setup.sort setup.config call.pendingCalls world.pending = (status, kept)) (onward : GoesOn status)
    (here : state.world = { world with pending := kept }) :
    run (step setup) state [.worker (.pruneExports call.exportCalls)] =
      some { state with worker := .waiting, world := pruneWorld setup call world } := by
  rw [exports_run phase, pruneWorld_goesOn pruned onward, here]

theorem pruning_run (call : Circumstances) {state : State} (phase : state.worker = .listing) :
    ∃ actions : List WorkerAction, run (step setup) state (actions.map .worker) =
      some { state with worker := .waiting, world := pruneWorld setup call state.world } := by
  have listed : step setup state (.worker (.list call.pendingCalls)) = some (listStep setup state call.pendingCalls) := by
    simp only [step, workerStep, phase]
  unfold listStep at listed
  split at listed
  next unlimited =>
    have pruned : prunePendingDir setup.sort setup.config call.pendingCalls state.world.pending = (.ok (), state.world.pending) :=
      if_pos unlimited
    refine ⟨[.list call.pendingCalls, .pruneExports call.exportCalls], ?_⟩
    rw [List.map_cons, run, listed, Option.bind_some]
    exact exports_complete rfl pruned trivial rfl
  next limited =>
    have pruned : prunePendingDir setup.sort setup.config call.pendingCalls state.world.pending = _ := if_neg limited
    split at listed
    next reports found =>
      rw [found] at pruned
      obtain ⟨turns, ended⟩ := @removing_run setup call.pendingCalls reports (totalBytes reports)
        { state with worker := .removing reports (totalBytes reports) call.pendingCalls } rfl
      cases outcome : pruneReports setup.config call.pendingCalls reports (totalBytes reports) state.world.pending with
      | mk status kept =>
        dsimp only at pruned ended
        rw [outcome] at pruned ended
        cases status with
        | ok _ =>
          refine ⟨.list call.pendingCalls :: (List.replicate turns .removeNext ++ [.pruneExports call.exportCalls]), ?_⟩
          rw [List.map_cons, run, listed, Option.bind_some, List.map_append, run_append, List.map_replicate, ended,
            Option.bind_some]
          exact exports_complete rfl pruned trivial rfl
        | error failure =>
          have internal : failure.code = .internal := pruneReports_error (congrArg Prod.fst outcome)
          refine ⟨.list call.pendingCalls :: List.replicate turns .removeNext, ?_⟩
          rw [List.map_cons, run, listed, Option.bind_some, List.map_replicate, ended,
            pruneWorld_stops (by rw [internal]; decide) pruned]
          rfl
    next failure found =>
      rw [found] at pruned
      split at listed
      next absent =>
        refine ⟨[.list call.pendingCalls, .pruneExports call.exportCalls], ?_⟩
        rw [List.map_cons, run, listed, Option.bind_some]
        exact exports_complete rfl pruned absent rfl
      next severe =>
        refine ⟨[.list call.pendingCalls], ?_⟩
        rw [List.map_cons, run, listed, Option.bind_some, pruneWorld_stops severe pruned]
        rfl

end Prune

/-- A pass of the worker without any other thread in between is ProcessNewMinidump. -/
theorem pass_processes {setup : Setup} {state : State} {path : ByteString} (call : Circumstances)
    (phase : state.worker = .patching path) :
    ∃ actions : List WorkerAction, run (step setup) state (actions.map .worker) =
      some { state with worker := .waiting, world := processNewMinidump setup call path state.world } := by
  have patched : step setup state (.worker (.patch call)) = some { state with
      worker := .reporting path
      world := { state.world with pending := patchMinidump setup call path state.world.pending } } := by
    simp only [step, workerStep, phase]
  obtain ⟨actions, ended⟩ := @pruning_run setup call { state with
    worker := .listing
    world := reportMinidump setup call path
      { state.world with pending := patchMinidump setup call path state.world.pending } } rfl
  refine ⟨.patch call :: .report call :: actions, ?_⟩
  rw [List.map_cons, run, patched, Option.bind_some, List.map_cons, run]
  exact ended

section Simulation
open QueueOrder (inHand)

variable {setup : Setup} {frame : State} {before after : RunWorker.State}

/-- The stage of a worker with a mutex: from the pop on it has the path. -/
def stageOf : RunWorker.WorkerPhase → WorkerPhase
  | .unlocking path | .calling path | .processing path => .patching path
  | .leaving | .returned => .returned
  | _ => .waiting

/-- The queue, the worker and its world are those of the threads with the mutex. -/
def withThreads (frame : State) (threads : RunWorker.State) : State :=
  { frame with
    worker := stageOf threads.worker
    pending := threads.pending
    stop := threads.stop
    world := threads.world
    processed := threads.processed ++ inHand threads.worker }

theorem workerStep_simulated {action : RunWorker.WorkerAction} (stepped : RunWorker.workerStep setup before action = some after) :
    ∃ actions : List WorkerAction, run (step setup) (withThreads frame before) (actions.map .worker) = some (withThreads frame after) := by
  cases action <;> cases phase : before.worker <;> simp only [RunWorker.workerStep, phase, reduceCtorEq] at stepped
  case lock.starting | wake.asleep =>
    split at stepped <;> cases stepped
    exact ⟨[], by simp [run, withThreads, phase, stageOf, inHand]⟩
  case test.testing =>
    split at stepped <;> cases stepped
    · exact ⟨[], by simp [run, withThreads, phase, stageOf, inHand]⟩
    · exact ⟨[], by simp [run, withThreads, phase, stageOf, inHand]⟩
  case check.checking =>
    cases stepped
    by_cases ends : before.stop = true ∧ before.pending = []
    · exact ⟨[.return], by simp [run, step, workerStep, withThreads, phase, stageOf, inHand, ends]⟩
    · refine ⟨[], ?_⟩
      rw [withThreads, withThreads, if_neg ends]
      simp [run, phase, stageOf, inHand]
  case pop.popping =>
    split at stepped
    next path rest queued =>
      cases stepped
      exact ⟨[.dequeue], by simp [run, step, workerStep, withThreads, phase, stageOf, inHand, queued]⟩
    next => cases stepped
  case unlock.unlocking path | unlock.leaving =>
    cases stepped
    exact ⟨[], by simp [run, withThreads, phase, stageOf, inHand]⟩
  case call.calling path =>
    cases stepped
    exact ⟨[], by simp [run, withThreads, phase, stageOf, inHand]⟩
  case finish.processing call path =>
    cases stepped
    have busy : (withThreads frame before).worker = .patching path := by rw [withThreads, phase, stageOf]
    obtain ⟨actions, ended⟩ := @pass_processes setup _ path call busy
    exact ⟨actions, by rw [ended]; simp [withThreads, phase, stageOf, inHand]⟩

/-- What reaches the queue from the other thread. -/
inductive Arrives (before : State) : State → Prop
  | push (path : ByteString) : Arrives before { before with pending := before.pending ++ [path] }
  | stop : Arrives before { before with stop := true }

theorem watcherStep_simulated {action : RunWorker.WatcherAction} (stepped : RunWorker.watcherStep before action = some after) :
    withThreads frame after = withThreads frame before ∨ Arrives (withThreads frame before) (withThreads frame after) := by
  cases action <;> cases phase : before.watcher <;> simp only [RunWorker.watcherStep, phase, reduceCtorEq] at stepped
  case lock.running =>
    split at stepped <;> cases stepped
    exact Or.inl rfl
  case push.locked path =>
    cases stepped
    exact Or.inr (.push path)
  case setStop.locked =>
    cases stepped
    exact Or.inr .stop
  case unlock.unlocking =>
    cases stepped
    exact Or.inl rfl

/-- What the main thread does to the queue arrives there in the same way. -/
theorem mainStep_arrives {before after : State} {action : MainAction} (stepped : mainStep setup before action = some after) :
    ∃ queue, (queue = before ∨ Arrives before queue) ∧ after = { queue with main := after.main, inotify := after.inotify } := by
  cases action <;> cases phase : before.main <;> simp only [mainStep, phase, reduceCtorEq] at stepped
  case enqueue.enqueuing events =>
    cases events with
    | nil =>
      cases stepped
      exact ⟨before, Or.inl rfl, rfl⟩
    | cons event rest =>
      cases stepped
      cases enqueued (DiskManager.pendingDir setup.config) event with
      | none => exact ⟨before, Or.inl rfl, by rw [Option.toList_none, List.append_nil]⟩
      | some path => exact ⟨_, Or.inr (.push path), rfl⟩
  case setStop.stopping =>
    cases stepped
    exact ⟨_, Or.inr .stop, rfl⟩
  all_goals
    first
    | (cases stepped; exact ⟨before, Or.inl rfl, rfl⟩)
    | (split at stepped <;> cases stepped; exact ⟨before, Or.inl rfl, rfl⟩)

/-- The worker takes a step, or something arrives. -/
def Turns (setup : Setup) (before after : State) : Prop :=
  (∃ action, workerStep setup before action = some after) ∨ Arrives before after

theorem turns_of_run {before after : State} {actions : List WorkerAction}
    (ran : run (step setup) before (actions.map .worker) = some after) : Relation.ReflTransGen (Turns setup) before after := by
  induction actions generalizing before with
  | nil =>
    cases ran
    exact .refl
  | cons action rest ih =>
    obtain ⟨next, stepped, remaining⟩ := run_cons ran
    exact .head (Or.inl ⟨action, stepped⟩) (ih remaining)

/-- Whatever the two threads do with the mutex, the worker without it can do as well, with the same paths and the same world. -/
theorem run_simulated {actions : List RunWorker.Action} (ran : RunWorker.run setup before actions = some after) :
    Relation.ReflTransGen (Turns setup) (withThreads frame before) (withThreads frame after) := by
  induction actions generalizing before with
  | nil =>
    cases ran
    exact .refl
  | cons action rest ih =>
    obtain ⟨next, stepped, remaining⟩ := run_cons ran
    refine .trans ?_ (ih remaining)
    cases action with
    | watcher action =>
      rcases @watcherStep_simulated frame _ _ _ stepped with same | arrives
      · rw [same]
      · exact .single (Or.inr arrives)
    | worker action =>
      obtain ⟨moves, moved⟩ := @workerStep_simulated setup frame _ _ _ stepped
      exact turns_of_run moved

end Simulation

end Crashomon.Proofs.WorkerStages
