import Mathlib.Data.List.Count
import Crashomon.Daemon.Watcher

/-! Where the renamed dumps are. Every path is with the worker, in its queue, in
the batch being enqueued or in the kernel's queue, in the order of the renames;
only what the kernel still holds when the event loop ends is lost. -/

namespace Crashomon.Proofs.WatcherQueues
open Bytes Daemon.DiskManager Daemon.Worker Daemon.Watcher

def paths (setup : Setup) (events : List InotifyEvent) : List ByteString :=
  events.filterMap (enqueued (pendingDir setup.config))

def batch : MainPhase → List InotifyEvent
  | .enqueuing events => events
  | _ => []

/-- What a step does to the places where a path can be. -/
inductive Moves (setup : Setup) (before after : State) : Prop where
  | stays (renamed : after.renamed = before.renamed) (processed : after.processed = before.processed)
      (pending : after.pending = before.pending) (held : batch after.main = batch before.main)
      (inotify : after.inotify = before.inotify)
  | renames (name : ByteString) (renamed : after.renamed = before.renamed ++ paths setup [⟨name⟩])
      (processed : after.processed = before.processed) (pending : after.pending = before.pending)
      (main : after.main = before.main) (inotify : after.inotify = before.inotify ++ [⟨name⟩])
  | reads (renamed : after.renamed = before.renamed) (processed : after.processed = before.processed)
      (pending : after.pending = before.pending) (main : before.main = .reading)
      (inotify : before.inotify = batch after.main ++ after.inotify)
  | enqueues (event : InotifyEvent) (rest : List InotifyEvent) (renamed : after.renamed = before.renamed)
      (processed : after.processed = before.processed) (pending : after.pending = before.pending ++ paths setup [event])
      (main : before.main = .enqueuing (event :: rest)) (next : after.main = .enqueuing rest)
      (inotify : after.inotify = before.inotify)
  | dequeues (path : ByteString) (renamed : after.renamed = before.renamed)
      (processed : after.processed = before.processed ++ [path]) (pending : before.pending = path :: after.pending)
      (main : after.main = before.main) (inotify : after.inotify = before.inotify)

private theorem paths_singleton (setup : Setup) (event : InotifyEvent) :
    paths setup [event] = (enqueued (pendingDir setup.config) event).toList := by
  cases found : enqueued (pendingDir setup.config) event <;> simp [paths, found]

private theorem paths_cons {setup : Setup} (event : InotifyEvent) (rest : List InotifyEvent) :
    paths setup (event :: rest) = paths setup [event] ++ paths setup rest := by
  simp only [paths, ← List.filterMap_append, List.singleton_append]

theorem mainStep_moves {setup : Setup} {before after : State} {action : MainAction}
    (stepped : mainStep setup before action = some after) : Moves setup before after := by
  cases action <;> cases phase : before.main <;> simp only [mainStep, phase, reduceCtorEq] at stepped
  case check.checking =>
    cases stepped
    refine .stays rfl rfl rfl ?_ rfl
    cases before.stopRequested <;> simp [batch, phase]
  case pollReadable.polling =>
    split at stepped
    next => cases stepped
    next => cases stepped; exact .stays rfl rfl rfl (by simp [batch, phase]) rfl
  case read.reading count =>
    split at stepped
    next => cases stepped
    next => cases stepped; exact .reads rfl rfl rfl phase (List.take_append_drop count before.inotify).symm
  case enqueue.enqueuing events =>
    cases events with
    | nil => cases stepped; exact .stays rfl rfl rfl (by simp [batch, phase]) rfl
    | cons event rest =>
      cases stepped
      exact .enqueues event rest rfl rfl (by rw [paths_singleton]) phase rfl rfl
  case joinHandler.joiningHandler =>
    split at stepped
    next => cases stepped
    next => cases stepped; exact .stays rfl rfl rfl (by simp [batch, phase]) rfl
  case joinWorker.joiningWorker =>
    split at stepped
    next => cases stepped; exact .stays rfl rfl rfl (by simp [batch, phase]) rfl
    next => cases stepped
  all_goals cases stepped
  all_goals exact .stays rfl rfl rfl (by simp [batch, phase]) rfl

theorem handlerStep_moves {setup : Setup} {before after : State} {action : HandlerAction}
    (stepped : handlerStep setup before action = some after) : Moves setup before after := by
  cases action with
  | rename name data mtime =>
    simp only [handlerStep] at stepped
    split at stepped
    next =>
      cases stepped
      exact .renames name (by rw [paths_singleton]) rfl rfl rfl rfl
    next => cases stepped
  | exit =>
    simp only [handlerStep] at stepped
    split at stepped
    next => cases stepped; exact .stays rfl rfl rfl rfl rfl
    next => cases stepped

theorem listStep_stays (setup : Setup) (state : State) (calls : DirectoryCalls) :
    Moves setup state (listStep setup state calls) := by
  unfold listStep
  split
  next => exact .stays rfl rfl rfl rfl rfl
  next =>
    split
    next => exact .stays rfl rfl rfl rfl rfl
    next =>
      split
      next => exact .stays rfl rfl rfl rfl rfl
      next => exact .stays rfl rfl rfl rfl rfl

theorem removeStep_stays (setup : Setup) (state : State) (calls : DirectoryCalls) (reports : List Report) (total : Nat) :
    Moves setup state (removeStep setup state calls reports total) := by
  cases reports with
  | nil => exact .stays rfl rfl rfl rfl rfl
  | cons report rest =>
    rw [removeStep]
    split
    next => exact .stays rfl rfl rfl rfl rfl
    next =>
      split
      next => exact .stays rfl rfl rfl rfl rfl
      next => exact .stays rfl rfl rfl rfl rfl

theorem workerStep_moves {setup : Setup} {before after : State} {action : WorkerAction}
    (stepped : workerStep setup before action = some after) : Moves setup before after := by
  cases action <;> cases phase : before.worker <;> simp only [workerStep, phase, reduceCtorEq] at stepped
  case dequeue.waiting =>
    cases queue : before.pending with
    | nil => simp [queue] at stepped
    | cons path rest =>
      simp only [queue] at stepped
      cases stepped
      exact .dequeues path rfl rfl queue rfl rfl
  case return.waiting =>
    split at stepped
    next => cases stepped; exact .stays rfl rfl rfl rfl rfl
    next => cases stepped
  case list.listing calls =>
    cases stepped
    exact listStep_stays setup before calls
  case removeNext.removing reports total calls =>
    cases stepped
    exact removeStep_stays setup before calls reports total
  all_goals cases stepped
  all_goals exact .stays rfl rfl rfl rfl rfl

theorem step_moves {setup : Setup} {before after : State} {action : Action}
    (stepped : step setup before action = some after) : Moves setup before after := by
  cases action with
  | signal => cases stepped; exact .stays rfl rfl rfl rfl rfl
  | main action => exact mainStep_moves stepped
  | handler action => exact handlerStep_moves stepped
  | worker action => exact workerStep_moves stepped

/-- Every renamed path is in exactly one place, first renamed furthest on. -/
def Accounted (setup : Setup) (state : State) : Prop :=
  state.renamed = state.processed ++ state.pending ++ paths setup (batch state.main) ++ paths setup state.inotify

theorem Accounted.step {setup : Setup} {before after : State} (accounted : Accounted setup before)
    (moves : Moves setup before after) : Accounted setup after := by
  unfold Accounted at accounted ⊢
  cases moves with
  | stays renamed processed pending held inotify => rw [renamed, processed, pending, held, inotify, accounted]
  | renames name renamed processed pending main inotify =>
    rw [renamed, processed, pending, main, inotify, accounted]
    simp only [paths, List.filterMap_append, List.append_assoc]
  | reads renamed processed pending main inotify =>
    rw [renamed, processed, pending, accounted, inotify, main]
    simp only [paths, batch, List.filterMap_append, List.filterMap_nil, List.append_nil, List.append_assoc]
  | enqueues event rest renamed processed pending main next inotify =>
    rw [renamed, processed, pending, next, inotify, accounted, main]
    simp only [batch, paths_cons event rest, List.append_assoc]
  | dequeues path renamed processed pending main inotify =>
    rw [renamed, processed, main, inotify, accounted, pending]
    simp only [List.append_assoc, List.cons_append, List.nil_append]

/-- How far the shutdown has come. -/
structure Phased (state : State) : Prop where
  stopped : state.stop = true → state.main = .joiningWorker ∨ state.main = .returned
  drained : state.worker = .returned → state.stop = true ∧ state.pending = []
  joined : state.main = .returned → state.worker = .returned

theorem mainStep_phased {setup : Setup} {before after : State} {action : MainAction} (phased : Phased before)
    (stepped : mainStep setup before action = some after) : Phased after := by
  have running (other : MainPhase) (phase : before.main = other) (early : other ≠ .joiningWorker ∧ other ≠ .returned) :
      before.stop = false := by
    cases stop : before.stop with
    | false => rfl
    | true =>
      rcases phased.stopped stop with joining | done
      · exact absurd (phase.symm.trans joining) early.1
      · exact absurd (phase.symm.trans done) early.2
  have awake (stop : before.stop = false) : before.worker ≠ .returned := by
    intro done
    rw [(phased.drained done).1] at stop
    cases stop
  cases action <;> cases phase : before.main <;> simp only [mainStep, phase, reduceCtorEq] at stepped
  case setStop.stopping =>
    cases stepped
    have asleep := awake (running _ phase ⟨by simp, by simp⟩)
    exact ⟨fun _ => .inl rfl, fun done => absurd done asleep, nofun⟩
  case joinWorker.joiningWorker =>
    split at stepped
    next done =>
      cases stepped
      exact ⟨fun _ => .inr rfl, phased.drained, fun _ => done⟩
    next => cases stepped
  case check.checking =>
    cases stepped
    have stop := running _ phase ⟨by simp, by simp⟩
    refine ⟨fun stopped => absurd (stop.symm.trans stopped) (by simp), fun done => absurd done (awake stop), fun done => ?_⟩
    cases requested : before.stopRequested <;> simp [requested] at done
  case enqueue.enqueuing events =>
    have stop := running _ phase ⟨by simp, by simp⟩
    cases events with
    | nil =>
      cases stepped
      exact ⟨fun stopped => absurd (stop.symm.trans stopped) (by simp), fun done => absurd done (awake stop), nofun⟩
    | cons event rest =>
      cases stepped
      exact ⟨fun stopped => absurd (stop.symm.trans stopped) (by simp), fun done => absurd done (awake stop), nofun⟩
  all_goals have stop := running _ phase ⟨by simp, by simp⟩
  all_goals first | cases stepped | (split at stepped <;> cases stepped)
  all_goals exact ⟨fun stopped => absurd (stop.symm.trans stopped) (by simp), fun done => absurd done (awake stop), nofun⟩

theorem handlerStep_kept {setup : Setup} {before after : State} {action : HandlerAction}
    (stepped : handlerStep setup before action = some after) :
    after.main = before.main ∧ after.worker = before.worker ∧ after.stop = before.stop ∧ after.pending = before.pending := by
  cases action <;> simp only [handlerStep] at stepped <;> split at stepped <;> cases stepped <;> exact ⟨rfl, rfl, rfl, rfl⟩

theorem workerStep_kept {setup : Setup} {before after : State} {action : WorkerAction}
    (stepped : workerStep setup before action = some after) :
    after.main = before.main ∧ after.stop = before.stop ∧ after.inotify = before.inotify ∧ before.worker ≠ .returned ∧
      (after.worker = .returned → before.stop = true ∧ after.pending = []) := by
  cases action <;> cases phase : before.worker <;> simp only [workerStep, phase, reduceCtorEq] at stepped
  case dequeue.waiting =>
    cases queue : before.pending with
    | nil => simp [queue] at stepped
    | cons path rest =>
      simp only [queue] at stepped
      cases stepped
      exact ⟨rfl, rfl, rfl, by simp, nofun⟩
  case return.waiting =>
    split at stepped
    next idle => cases stepped; exact ⟨rfl, rfl, rfl, by simp, fun _ => idle⟩
    next => cases stepped
  case list.listing calls =>
    cases stepped
    unfold listStep
    split
    next => exact ⟨rfl, rfl, rfl, by simp, nofun⟩
    next =>
      split
      next => exact ⟨rfl, rfl, rfl, by simp, nofun⟩
      next => split <;> exact ⟨rfl, rfl, rfl, by simp, nofun⟩
  case removeNext.removing reports total calls =>
    cases stepped
    cases reports with
    | nil => exact ⟨rfl, rfl, rfl, by simp, nofun⟩
    | cons report rest =>
      rw [removeStep]
      split
      next => exact ⟨rfl, rfl, rfl, by simp, nofun⟩
      next => split <;> exact ⟨rfl, rfl, rfl, by simp, nofun⟩
  all_goals cases stepped
  all_goals exact ⟨rfl, rfl, rfl, by simp, nofun⟩

theorem Phased.step {setup : Setup} {before after : State} {action : Action} (phased : Phased before)
    (stepped : step setup before action = some after) : Phased after := by
  cases action with
  | signal => cases stepped; exact ⟨phased.stopped, phased.drained, phased.joined⟩
  | main action => exact mainStep_phased phased stepped
  | handler action =>
    obtain ⟨main, worker, stop, pending⟩ := handlerStep_kept stepped
    refine ⟨?_, ?_, ?_⟩
    · rw [stop, main]
      exact phased.stopped
    · rw [worker, stop, pending]
      exact phased.drained
    · rw [main, worker]
      exact phased.joined
  | worker action =>
    obtain ⟨main, stop, _, awake, last⟩ := workerStep_kept stepped
    refine ⟨?_, ?_, fun done => ?_⟩
    · rw [stop, main]
      exact phased.stopped
    · rw [stop]
      exact last
    · rw [main] at done
      exact absurd (phased.joined done) awake

def Left : MainPhase → Prop
  | .checking | .polling | .reading | .enqueuing _ => False
  | _ => True

def Leaves (state : State) : Action → Prop
  | .main .check => state.main = .checking ∧ state.stopRequested = true
  | .main .pollFailed => state.main = .polling
  | .main .readFailed => state.main = .reading
  | _ => False

def Announces (setup : Setup) : Action → Prop
  | .handler (.rename name _ _) => paths setup [⟨name⟩] ≠ []
  | _ => False

/-- The loop ends with no .dmp event unread, and no .dmp file is renamed after its end. -/
structure Timely (setup : Setup) (state : State) (action : Action) : Prop where
  read : Leaves state action → paths setup state.inotify = []
  early : Left state.main → ¬ Announces setup action

def AllTimely (setup : Setup) : State → List Action → Prop := Transition.Throughout (step setup) (Timely setup)

theorem timely_iff {setup : Setup} {state : State} {action : Action} : Timely setup state action ↔
    (Leaves state action → paths setup state.inotify = []) ∧ (Left state.main → ¬ Announces setup action) :=
  ⟨fun ⟨read, early⟩ => ⟨read, early⟩, fun ⟨read, early⟩ => ⟨read, early⟩⟩

/-- After the event loop nothing is unread exactly when every step was timely. -/
def Unread (setup : Setup) (state : State) : Prop := Left state.main → paths setup state.inotify = []

theorem mainStep_unread {setup : Setup} {before after : State} {action : MainAction}
    (stepped : mainStep setup before action = some after) :
    Unread setup after ↔ Unread setup before ∧ Timely setup before (.main action) := by
  rw [timely_iff]
  unfold Unread
  cases action <;> cases phase : before.main <;> simp only [mainStep, phase, reduceCtorEq] at stepped
  case check.checking =>
    cases stepped
    cases requested : before.stopRequested <;> simp [Left, Leaves, phase, requested]
  case enqueue.enqueuing events =>
    cases events with
    | nil => cases stepped; simp [Left, Leaves]
    | cons event rest => cases stepped; simp [Left, Leaves]
  case joinWorker.joiningWorker =>
    split at stepped
    next => cases stepped; simp [Left, Leaves, Announces]
    next => cases stepped
  all_goals first | cases stepped | (split at stepped <;> cases stepped)
  all_goals simp [Left, Leaves, Announces, phase]

theorem handlerStep_unread {setup : Setup} {before after : State} {action : HandlerAction}
    (stepped : handlerStep setup before action = some after) :
    Unread setup after ↔ Unread setup before ∧ Timely setup before (.handler action) := by
  rw [timely_iff]
  unfold Unread
  cases action with
  | exit =>
    simp only [handlerStep] at stepped
    split at stepped <;> cases stepped
    simp [Leaves, Announces]
  | rename name data mtime =>
    simp only [handlerStep] at stepped
    split at stepped <;> cases stepped
    have split : paths setup (before.inotify ++ [⟨name⟩]) = paths setup before.inotify ++ paths setup [⟨name⟩] :=
      List.filterMap_append
    simp only [Leaves, Announces, split, List.append_eq_nil_iff, false_implies, true_and, not_not]
    exact ⟨fun both => ⟨fun left => (both left).1, fun left => (both left).2⟩, fun ⟨old, new⟩ left => ⟨old left, new left⟩⟩

theorem step_unread {setup : Setup} {before after : State} {action : Action}
    (stepped : step setup before action = some after) :
    Unread setup after ↔ Unread setup before ∧ Timely setup before action := by
  cases action with
  | signal =>
    cases stepped
    simp [Unread, timely_iff, Leaves, Announces]
  | main action => exact mainStep_unread stepped
  | handler action => exact handlerStep_unread stepped
  | worker action =>
    obtain ⟨main, _, inotify, _⟩ := workerStep_kept stepped
    rw [timely_iff, Unread, Unread, main, inotify]
    simp [Leaves, Announces]

/-- What holds in every state that a run reaches. -/
structure Invariant (setup : Setup) (state : State) : Prop where
  accounted : Accounted setup state
  phased : Phased state

theorem Invariant.step {setup : Setup} {before after : State} {action : Action} (invariant : Invariant setup before)
    (stepped : step setup before action = some after) : Invariant setup after :=
  ⟨invariant.accounted.step (step_moves stepped), invariant.phased.step stepped⟩

theorem Invariant.run {setup : Setup} {before after : State} {actions : List Action} (invariant : Invariant setup before)
    (ran : run setup before actions = some after) : Invariant setup after :=
  Transition.run_invariant Invariant.step invariant ran

theorem run_unread {setup : Setup} {before after : State} {actions : List Action}
    (ran : run setup before actions = some after) :
    Unread setup after ↔ Unread setup before ∧ AllTimely setup before actions :=
  Transition.run_holds_iff step_unread ran

theorem initial_invariant (setup : Setup) (files : List StoredFile) : Invariant setup (initial files) :=
  ⟨rfl, nofun, nofun,
    nofun⟩

/-- When RunWatcher returns, each renamed dump has been processed exactly once if
and only if the event loop was left in time. -/
theorem processed_once_iff {setup : Setup} {files : List StoredFile} {actions : List Action} {final : State}
    (ran : run setup (initial files) actions = some final) (returned : final.main = .returned) :
    (∀ path, final.processed.count path = final.renamed.count path) ↔ AllTimely setup (initial files) actions := by
  obtain ⟨accounted, phased⟩ := (initial_invariant setup files).run ran
  have idle := (phased.drained (phased.joined returned)).2
  have places : final.renamed = final.processed ++ paths setup final.inotify := by
    have all : final.renamed = final.processed ++ final.pending ++ paths setup (batch final.main) ++ paths setup final.inotify :=
      accounted
    rw [all, idle, returned]
    simp [batch, paths]
  have start : Unread setup (initial files) := fun impossible => False.elim impossible
  have timely : paths setup final.inotify = [] ↔ AllTimely setup (initial files) actions := by
    have whole := run_unread ran
    rw [Unread, returned] at whole
    exact ⟨fun empty => (whole.mp fun _ => empty).2, fun all => whole.mpr ⟨start, all⟩ trivial⟩
  rw [← timely, places]
  simp only [List.count_append]
  constructor
  · intro counts
    apply List.eq_nil_iff_forall_not_mem.mpr
    intro path member
    have positive := List.count_pos_iff.mpr member
    have same := counts path
    omega
  · intro empty path
    rw [empty, List.count_nil, Nat.add_zero]

def plainSetup : Setup := ⟨⟨ascii "/db", [], 0, 0⟩, [], fun _ => [], false, stableSort⟩

def calmCalls : DirectoryCalls := ⟨true, true, fun _ => some true, fun _ => true, fun _ => true, 0, []⟩

def calmCall : Circumstances := ⟨.ok (), none, 0, .error (Daemon.internalError []), 0, [], false, 0, calmCalls, calmCalls⟩

def renameDump : Action := .handler (.rename (ascii "a.dmp") [] 0)

def shutdown : List Action :=
  [.main .closeClient, .handler .exit, .main .joinHandler, .main .setStop, .worker .return, .main .joinWorker]

def orderly : List Action :=
  [renameDump, .main .check, .main .pollReadable, .main (.read 1), .main .enqueue, .main .enqueue, .worker .dequeue,
    .worker (.patch calmCall), .worker (.report calmCall), .worker (.list calmCalls), .worker (.pruneExports calmCalls),
    .signal, .main .check] ++ shutdown

theorem orderly_processes_all :
    ∃ final, run plainSetup (initial []) orderly = some final ∧
      ((∀ path, final.processed.count path = final.renamed.count path) ↔ AllTimely plainSetup (initial []) orderly) := by
  have ran : (run plainSetup (initial []) orderly).map State.main = some .returned := by decide +kernel
  obtain ⟨final, reached, returned⟩ := Option.map_eq_some_iff.mp ran
  exact ⟨final, reached, processed_once_iff reached returned⟩

/-- The signal ends the loop before the handler thread renames its last dump. -/
theorem late_dump_lost :
    ∃ final, run plainSetup (initial []) ([.signal, .main .check, renameDump] ++ shutdown) = some final ∧
      final.main = .returned ∧ ¬ ∀ path, final.processed.count path = final.renamed.count path := by
  have ran : (run plainSetup (initial []) ([.signal, .main .check, renameDump] ++ shutdown)).map
      (fun final => (final.main, final.processed, final.renamed)) = some (.returned, [], [ascii "/db/pending/a.dmp"]) := by
    decide +kernel
  obtain ⟨final, reached, same⟩ := Option.map_eq_some_iff.mp ran
  obtain ⟨returned, places⟩ := Prod.mk.inj same
  obtain ⟨processed, renamed⟩ := Prod.mk.inj places
  refine ⟨final, reached, returned, fun counts => ?_⟩
  have impossible := counts (ascii "/db/pending/a.dmp")
  rw [processed, renamed, List.count_singleton_self] at impossible
  cases impossible

end Crashomon.Proofs.WatcherQueues
