import Crashomon.Base.Transition
import Crashomon.Daemon.Worker

/-! The watcher daemon after its setup, daemon/watcher.cpp: the event loop and
the shutdown of RunWatcher, the Crashpad handler thread, the kernel's inotify
queue and the worker thread, which take steps in any order. -/

namespace Crashomon.Daemon.Watcher
open Bytes DiskManager MinidumpReader Worker

/-- The annotations of the process that the exception handler writes into every dump. -/
def kNoAnnotations : List (ByteString × ByteString) := []

/-- An event of the watch on the pending directory; its mask has IN_MOVED_TO. -/
structure InotifyEvent where
  name : ByteString
  deriving DecidableEq, Repr

def enqueued (dir : ByteString) (event : InotifyEvent) : Option ByteString :=
  if event.name.length < 4 ∨ event.name.drop (event.name.length - 4) ≠ ascii ".dmp" then none
  else some (dir ++ slash :: event.name)

inductive MainPhase where
  | checking
  | polling
  /-- poll has reported the inotify descriptor. -/
  | reading
  | enqueuing (events : List InotifyEvent)
  | closing
  | joiningHandler
  | stopping
  | joiningWorker
  | returned
  deriving DecidableEq

inductive WorkerPhase where
  /-- In the wait of RunWorker. -/
  | waiting
  /-- ProcessNewMinidump has been called. -/
  | patching (path : ByteString)
  | reporting (path : ByteString)
  | listing
  | removing (reports : List Report) (total : Nat) (calls : DirectoryCalls)
  | pruningExports
  | returned

structure State where
  main : MainPhase
  worker : WorkerPhase
  stopRequested : Bool
  handlerAlive : Bool
  /-- Events the kernel holds, oldest first. -/
  inotify : List InotifyEvent
  /-- WorkerState: the queue of paths and the stop flag. -/
  pending : List ByteString
  stop : Bool
  world : World
  /-- The .dmp paths renamed into the pending directory so far, oldest first. -/
  renamed : List ByteString
  /-- The paths passed to ProcessNewMinidump so far, oldest first. -/
  processed : List ByteString

def initial (files : List StoredFile) : State :=
  ⟨.checking, .waiting, false, true, [], [], false, ⟨files, [], [], []⟩, [], []⟩

inductive MainAction where
  | check
  /-- poll times out, is interrupted or reports a new client only. -/
  | pollIdle
  | pollFailed
  | pollReadable
  | read (count : Nat)
  | readInterrupted
  | readFailed
  /-- One turn of EnqueueInotifyEvents. -/
  | enqueue
  | closeClient
  | joinHandler
  | setStop
  | joinWorker

inductive HandlerAction where
  | rename (name : ByteString) (data : Buffer) (mtime : Int)
  | exit

inductive WorkerAction where
  | dequeue
  | patch (call : Circumstances)
  | report (call : Circumstances)
  | list (calls : DirectoryCalls)
  /-- One turn of the deletion loop, or its end. -/
  | removeNext
  | pruneExports (calls : DirectoryCalls)
  | return

inductive Action where
  | signal
  | main (action : MainAction)
  | handler (action : HandlerAction)
  | worker (action : WorkerAction)

def mainStep (setup : Setup) (state : State) (action : MainAction) : Option State :=
  match action, state.main with
  | .check, .checking => some { state with main := if state.stopRequested then .closing else .polling }
  | .pollIdle, .polling => some { state with main := .checking }
  | .pollFailed, .polling => some { state with main := .closing }
  | .pollReadable, .polling => if state.inotify = [] then none else some { state with main := .reading }
  | .read count, .reading =>
    if count = 0 ∨ state.inotify.length < count then none
    else some { state with main := .enqueuing (state.inotify.take count), inotify := state.inotify.drop count }
  | .readInterrupted, .reading => some { state with main := .checking }
  | .readFailed, .reading => some { state with main := .closing }
  | .enqueue, .enqueuing [] => some { state with main := .checking }
  | .enqueue, .enqueuing (event :: rest) =>
    some { state with
      main := .enqueuing rest
      pending := state.pending ++ (enqueued (pendingDir setup.config) event).toList }
  | .closeClient, .closing => some { state with main := .joiningHandler }
  | .joinHandler, .joiningHandler => if state.handlerAlive then none else some { state with main := .stopping }
  | .setStop, .stopping => some { state with main := .joiningWorker, stop := true }
  | .joinWorker, .joiningWorker =>
    match state.worker with
    | .returned => some { state with main := .returned }
    | _ => none
  | _, _ => none

def handlerStep (setup : Setup) (state : State) : HandlerAction → Option State
  | .rename name data mtime =>
    if state.handlerAlive then
      some { state with
        inotify := state.inotify ++ [⟨name⟩]
        world := { state.world with pending := place ⟨pendingDir setup.config ++ slash :: name, data, mtime⟩ state.world.pending }
        renamed := state.renamed ++ (enqueued (pendingDir setup.config) ⟨name⟩).toList }
    else none
  | .exit => if state.handlerAlive then some { state with handlerAlive := false } else none

/-- PrunePendingDir up to its deletion loop. -/
def listStep (setup : Setup) (state : State) (calls : DirectoryCalls) : State :=
  if setup.config.maxBytes = 0 ∧ setup.config.maxAgeSeconds = 0 then { state with worker := .pruningExports }
  else match listCrashReports setup.sort calls (pendingDir setup.config) state.world.pending with
    | .ok reports => { state with worker := .removing reports (totalBytes reports) calls }
    | .error failure =>
      if failure.code = .notFound then { state with worker := .pruningExports } else { state with worker := .waiting }

def removeStep (setup : Setup) (state : State) (calls : DirectoryCalls) : List Report → (total : Nat) → State
  | [], _ => { state with worker := .pruningExports }
  | report :: rest, total =>
    if ¬ OverSize setup.config total ∧ ¬ OverAge setup.config calls.time report.mtime then
      { state with worker := .removing rest total calls }
    else if ¬ removable calls report state.world.pending then { state with worker := .waiting }
    else { state with
      worker := .removing rest (u64 (total - report.size)) calls
      world := { state.world with pending := removeReport calls report state.world.pending } }

def workerStep (setup : Setup) (state : State) (action : WorkerAction) : Option State :=
  match action, state.worker with
  | .dequeue, .waiting =>
    match state.pending with
    | path :: rest => some { state with worker := .patching path, pending := rest, processed := state.processed ++ [path] }
    | [] => none
  | .return, .waiting => if state.stop ∧ state.pending = [] then some { state with worker := .returned } else none
  | .patch call, .patching path =>
    some { state with
      worker := .reporting path
      world := { state.world with pending := patchMinidump setup call path state.world.pending } }
  | .report call, .reporting path =>
    some { state with worker := .listing, world := reportMinidump setup call path state.world }
  | .list calls, .listing => some (listStep setup state calls)
  | .removeNext, .removing reports total calls => some (removeStep setup state calls reports total)
  | .pruneExports calls, .pruningExports =>
    some { state with
      worker := .waiting
      world := if setup.config.exportPath = [] then state.world
        else { state.world with exported := (pruneExportDir setup.sort setup.config calls state.world.exported).2 } }
  | _, _ => none

def step (setup : Setup) (state : State) : Action → Option State
  | .signal => some { state with stopRequested := true }
  | .main action => mainStep setup state action
  | .handler action => handlerStep setup state action
  | .worker action => workerStep setup state action

def run (setup : Setup) : State → List Action → Option State := Transition.run (step setup)

end Crashomon.Daemon.Watcher
