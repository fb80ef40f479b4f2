import Crashomon.Daemon.RunWorker

/-! The condition variable of the WorkerState and the main thread around the worker's loop, daemon/watcher.cpp.
Behind each block in which it pushes a path or sets the stop flag the main thread notifies, and in the end it
joins the worker. -/

namespace Crashomon.Daemon.WorkerWakeups
open Worker

inductive MainPhase where
  /-- In RunEventLoop, outside the blocks. -/
  | looping
  /-- In the block of a lock_guard, to push a path or to set the stop flag. -/
  | inBlock (stopping : Bool)
  /-- Behind the block, before notify_one. -/
  | notifying (stopping : Bool)
  /-- Behind RunEventLoop and the join of the handler thread. -/
  | leaving
  /-- In the join of the worker thread. -/
  | joining
  | joined
  deriving DecidableEq

structure State where
  threads : RunWorker.State
  main : MainPhase
  /-- A notification has reached the worker, which has not left the wait yet. -/
  woken : Bool

def initial (world : World) : State := ⟨RunWorker.initial world, .looping, false⟩

inductive Action where
  | lock
  | push (path : ByteString)
  | setStop
  | unlock
  | notify
  /-- RunEventLoop returns, and the handler thread ends. -/
  | leave
  | join
  | worker (action : RunWorker.WorkerAction)
  /-- The worker leaves the wait without a notification. -/
  | spurious

def waits : RunWorker.WorkerPhase → Bool
  | .asleep => true
  | _ => false

def mainStep (state : State) (action : Action) : Option State :=
  match action, state.main with
  | .lock, .looping =>
    (RunWorker.watcherStep state.threads .lock).map fun threads => { state with threads, main := .inBlock false }
  | .lock, .leaving =>
    (RunWorker.watcherStep state.threads .lock).map fun threads => { state with threads, main := .inBlock true }
  | .push path, .inBlock false =>
    (RunWorker.watcherStep state.threads (.push path)).map fun threads => { state with threads }
  | .setStop, .inBlock true => (RunWorker.watcherStep state.threads .setStop).map fun threads => { state with threads }
  | .unlock, .inBlock stopping =>
    (RunWorker.watcherStep state.threads .unlock).map fun threads => { state with threads, main := .notifying stopping }
  -- A notification that finds nobody waiting is lost.
  | .notify, .notifying stopping =>
    some { state with main := if stopping then .joining else .looping, woken := state.woken || waits state.threads.worker }
  | .leave, .looping => some { state with main := .leaving }
  | .join, .joining =>
    match state.threads.worker with
    | .returned => some { state with main := .joined }
    | _ => none
  | _, _ => none

def workerStep (setup : Setup) (state : State) (action : RunWorker.WorkerAction) : Option State :=
  (RunWorker.workerStep setup state.threads action).map fun threads => { state with threads }

def wake (setup : Setup) (state : State) : Option State :=
  (RunWorker.workerStep setup state.threads .wake).map fun threads => { state with threads, woken := false }

def step (setup : Setup) (state : State) : Action → Option State
  | .worker .wake => if state.woken then wake setup state else none
  | .spurious => wake setup state
  | .worker action => workerStep setup state action
  | action => mainStep state action

def run (setup : Setup) : State → List Action → Option State := Transition.run (step setup)

end Crashomon.Daemon.WorkerWakeups
