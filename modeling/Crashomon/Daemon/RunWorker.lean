import Crashomon.Base.Transition
import Crashomon.Daemon.Worker

/-! The worker thread's loop RunWorker, daemon/worker.cpp, and the thread that pushes
paths and sets the stop flag, daemon/watcher.cpp. Both take the mutex of the
WorkerState; each access to the state is a step of its own. -/

namespace Crashomon.Daemon.RunWorker
open Worker

inductive Thread where
  | watcher
  | worker
  deriving DecidableEq

inductive WatcherPhase where
  /-- Outside every lock_guard. -/
  | running
  | locked
  /-- At the end of the block of the lock_guard. -/
  | unlocking

inductive WorkerPhase where
  /-- Before the unique_lock. -/
  | starting
  /-- At the predicate of the wait, the lock held. -/
  | testing
  /-- Asleep in the wait, the lock released. -/
  | asleep
  /-- After the wait. -/
  | checking
  | popping
  | unlocking (path : ByteString)
  /-- Behind the locked block. -/
  | calling (path : ByteString)
  /-- In ProcessNewMinidump. -/
  | processing (path : ByteString)
  /-- At the return inside the locked block. -/
  | leaving
  | returned

structure State where
  mu : Option Thread
  pending : List ByteString
  stop : Bool
  watcher : WatcherPhase
  worker : WorkerPhase
  world : World
  /-- The paths pushed so far, and those pushed when the worker last checked for the end. -/
  pushed : List ByteString
  checked : List ByteString
  /-- The paths passed to ProcessNewMinidump so far, oldest first, and the calls that have returned. -/
  processed : List ByteString
  finished : List (ByteString × Circumstances)

def initial (world : World) : State := ⟨none, [], false, .running, .starting, world, [], [], [], []⟩

inductive WatcherAction where
  | lock
  | push (path : ByteString)
  | setStop
  | unlock

inductive WorkerAction where
  | lock
  | test
  /-- A notification or a spurious wake-up; the lock is taken again. -/
  | wake
  | check
  | pop
  | unlock
  | call
  | finish (call : Circumstances)

inductive Action where
  | watcher (action : WatcherAction)
  | worker (action : WorkerAction)

def watcherStep (state : State) (action : WatcherAction) : Option State :=
  match action, state.watcher with
  | .lock, .running => if state.mu = none then some { state with mu := some .watcher, watcher := .locked } else none
  | .push path, .locked =>
    some { state with pending := state.pending ++ [path], watcher := .unlocking, pushed := state.pushed ++ [path] }
  | .setStop, .locked => some { state with stop := true, watcher := .unlocking }
  | .unlock, .unlocking => some { state with mu := none, watcher := .running }
  | _, _ => none

def workerStep (setup : Setup) (state : State) (action : WorkerAction) : Option State :=
  match action, state.worker with
  | .lock, .starting => if state.mu = none then some { state with mu := some .worker, worker := .testing } else none
  | .test, .testing =>
    if state.stop ∨ state.pending ≠ [] then some { state with worker := .checking }
    else some { state with mu := none, worker := .asleep }
  | .wake, .asleep => if state.mu = none then some { state with mu := some .worker, worker := .testing } else none
  | .check, .checking =>
    some { state with
      worker := if state.stop ∧ state.pending = [] then .leaving else .popping
      checked := state.pushed }
  | .pop, .popping =>
    match state.pending with
    | path :: rest => some { state with pending := rest, worker := .unlocking path }
    -- front() of an empty queue.
    | [] => none
  | .unlock, .unlocking path => some { state with mu := none, worker := .calling path }
  | .unlock, .leaving => some { state with mu := none, worker := .returned }
  | .call, .calling path => some { state with worker := .processing path, processed := state.processed ++ [path] }
  | .finish call, .processing path =>
    some { state with
      worker := .starting
      world := processNewMinidump setup call path state.world
      finished := state.finished ++ [(path, call)] }
  | _, _ => none

def step (setup : Setup) (state : State) : Action → Option State
  | .watcher action => watcherStep state action
  | .worker action => workerStep setup state action

def run (setup : Setup) : State → List Action → Option State := Transition.run (step setup)

end Crashomon.Daemon.RunWorker
