import Crashomon.Proofs.SocketOwnership
import Mathlib.Data.List.TakeWhile

/-! The socket file over the lives of its daemons: starts that do not overlap, crashes that leave
the file behind and clean stops. Where sun_path holds the whole path, a start is refused only by a
live daemon and a clean stop leaves no file. A longer path is bound under one name and unlinked
under another. -/

namespace Crashomon.Proofs.SocketLifetime
open Daemon.CrashSocket SocketOwnership

/-- All calls of CreateListenSocket and RunWatcher name the same file. -/
def OnePath (socketPath : ByteString) : Prop :=
  ∀ (first second : Call) (one other : ByteString),
    first.path socketPath = some one → second.path socketPath = some other → one = other

/-- What the system answers where descriptors are at hand and the directory is writable: a connect
reaches every socket that listens, a bind fails on an existing name. -/
def Answered (socketPath : ByteString) (state : State) (action : Action) : Prop :=
  match action.call with
  | .socket works | .listen works => works = true
  | .connect answered =>
    answered = true ↔ ∃ owner, state.entries (sunPath socketPath) = some (.bound owner) ∧ Open (state.phase owner)
  | .unlink removes => removes = true
  | .bind works => works = true ↔ state.entries (sunPath socketPath) = none
  | _ => True

@[mk_iff] structure Orderly (socketPath : ByteString) (state : State) (action : Action) : Prop where
  answered : Answered socketPath state action
  /-- Starts do not overlap. -/
  begins : ∀ works, action.call = .socket works → ∀ other, ¬ Calling (state.phase other)

/-- Some orderly run from the stale files of earlier runs ends in the state. -/
def Reaches (socketPath : ByteString) (state : State) : Prop :=
  ∃ stale actions, stale [] = false ∧
    Transition.Throughout (step socketPath) (Orderly socketPath) (initial stale) actions ∧
    run socketPath (initial stale) actions = some state

/-- The state of the run, the action taken there and where it leads. -/
structure Taken (socketPath : ByteString) (before : State) (action : Action) (after : State) : Prop where
  reached : Reaches socketPath before
  orderly : Orderly socketPath before action
  stepped : step socketPath before action = some after

/-- A live daemon listens on the socket that the path names. -/
def Alive (socketPath : ByteString) (state : State) : Prop :=
  ∃ owner, state.entries (cString socketPath) = some (.bound owner) ∧ Open (state.phase owner)

/-- CreateListenSocket succeeds exactly where no live daemon holds the path. -/
structure Starts (socketPath : ByteString) : Prop where
  refused : ∀ before action after, Taken socketPath before action after → Calling (before.phase action.daemon) →
    action.call ≠ .exit → after.phase action.daemon = .gone → Alive socketPath before
  accepted : ∀ before action after, Taken socketPath before action after → before.phase action.daemon = .permitted →
    after.phase action.daemon = .listening → ∀ other, Serves (after.phase other) → other = action.daemon
  proceeds : ∀ state daemon, Reaches socketPath state → Calling (state.phase daemon) →
    ∃ call after, call ≠ .exit ∧ Taken socketPath state ⟨daemon, call⟩ after

/-- A daemon that has stopped cleanly leaves its socket at no path. -/
def Stops (socketPath : ByteString) : Prop :=
  ∀ before action after, Taken socketPath before action after → before.phase action.daemon = .removed →
    ∀ path, after.entries path ≠ some (.bound action.daemon)

variable {socketPath : ByteString} {before after state : State} {action : Action}

/-- Where a process may be whose socket still has a name: it holds it, has crashed, or has only
tried to unlink the address of an empty path. -/
def Leaves (name : ByteString) (phase : Phase) : Prop :=
  Holds phase ∨ (name ≠ [] ∧ phase = .gone) ∨ (name = [] ∧ phase = .removed)

/-- Behind the unlink of the call. The address of an empty path must be free behind the probe. -/
def Cleared (name : ByteString) (phase : Phase) : Prop :=
  phase = .unlinked ∨ (name = [] ∧ phase = .probed)

/-- What every orderly run keeps on a path that fits. -/
structure Kept (socketPath : ByteString) (state : State) : Prop where
  one : OneCall socketPath state
  owners : ∀ path owner, state.entries path = some (.bound owner) →
    path = cString socketPath ∧ Leaves (cString socketPath) (state.phase owner)
  files : state.entries [] ≠ some .foreign
  vacant : ∀ daemon, Cleared (cString socketPath) (state.phase daemon) → state.entries (cString socketPath) = none

theorem Cleared.calling {name : ByteString} {phase : Phase} (cleared : Cleared name phase) : Calling phase := by
  obtain unlinked | ⟨_, probed⟩ := cleared
  · simp [unlinked, Calling]
  · simp [probed, Calling]

theorem Answered.silent (fits : (cString socketPath).length < sunPathSize) (answered : Answered socketPath state action)
    (called : action.call = .connect false) (owner : Nat) (named : state.entries (cString socketPath) = some (.bound owner)) :
    ¬ Open (state.phase owner) := by
  simp only [Answered, called, sunPath_eq fits, Bool.false_eq_true, false_iff, not_exists, not_and] at answered
  exact answered owner named

theorem initial_kept {stale : ByteString → Bool} (files : stale [] = false) : Kept socketPath (initial stale) where
  one := initial_oneCall stale
  owners path owner found := by
    simp only [initial] at found
    split at found <;> cases found
  files := by simp [initial, files]
  vacant daemon cleared := by simp [initial, Cleared] at cleared

/-- An unanswered probe of the empty path finds its address free. -/
theorem Kept.free (kept : Kept socketPath state) {daemon : Nat} (created : state.phase daemon = .created)
    (silent : ∀ owner, state.entries (cString socketPath) = some (.bound owner) → ¬ Open (state.phase owner))
    (empty : cString socketPath = []) : state.entries (cString socketPath) = none := by
  cases entry : state.entries (cString socketPath) with
  | none => rfl
  | some found =>
    cases found with
    | foreign =>
      rw [empty] at entry
      exact absurd entry kept.files
    | bound owner =>
      obtain ⟨_, holds | ⟨nonempty, _⟩ | ⟨_, removed⟩⟩ := kept.owners _ owner entry
      · exact absurd holds (kept.one.unanswered created (silent owner entry))
      · exact absurd empty nonempty
      · exact absurd (Or.inr (Or.inr removed)) (silent owner entry)

/-- A name that is behind the unlink is free. -/
theorem unlink_vacant {name : ByteString} (free : name = [] → state.entries name = none) :
    (state.unlink name true).entries name = none := by
  unfold State.unlink
  split
  · simp
  next kept => exact free (by simpa using kept)

/-- The part of the step lemma that only the process of the step decides. -/
structure Own (socketPath : ByteString) (daemon : Nat) (state : State) : Prop where
  leaves : ∀ path, state.entries path = some (.bound daemon) →
    path = cString socketPath ∧ Leaves (cString socketPath) (state.phase daemon)
  vacant : Cleared (cString socketPath) (state.phase daemon) → state.entries (cString socketPath) = none

theorem Kept.own_leave (kept : Kept socketPath state) (daemon : Nat) : Own socketPath daemon (state.leave daemon) where
  leaves path found := by
    obtain ⟨named, other⟩ := entries_leave found
    have same := (kept.owners path daemon named).1
    refine ⟨same, Or.inr (Or.inl ⟨?_, by simp⟩)⟩
    rintro empty
    exact other (same.trans empty) rfl
  vacant cleared := by simp [Cleared] at cleared

theorem Kept.own_enter (kept : Kept socketPath state) {daemon : Nat} {phase : Phase}
    (leaves : Leaves (cString socketPath) (state.phase daemon) → Leaves (cString socketPath) phase)
    (vacant : Cleared (cString socketPath) phase → state.entries (cString socketPath) = none) :
    Own socketPath daemon (state.enter daemon phase) where
  leaves path found := by
    obtain ⟨same, left⟩ := kept.owners path daemon found
    exact ⟨same, by simpa using leaves left⟩
  vacant cleared := vacant (by simpa using cleared)

theorem Kept.own_unlink (kept : Kept socketPath state) {daemon : Nat} {phase : Phase}
    (leaves : cString socketPath = [] → Leaves (cString socketPath) (state.phase daemon) → Leaves (cString socketPath) phase)
    (vacant : Cleared (cString socketPath) phase → cString socketPath = [] → state.entries (cString socketPath) = none) :
    Own socketPath daemon ((state.unlink (cString socketPath) true).enter daemon phase) where
  leaves path found := by
    rw [entries_enter] at found
    obtain ⟨same, left⟩ := kept.owners path daemon (entries_unlink found)
    refine ⟨same, ?_⟩
    have empty : cString socketPath = [] := by
      by_contra nonempty
      rw [same, unlink_vacant (fun absent => absurd absent nonempty)] at found
      cases found
    simpa using leaves empty left
  vacant cleared := unlink_vacant (vacant (by simpa using cleared))

theorem step_own (fits : (cString socketPath).length < sunPathSize) (kept : Kept socketPath before)
    (answered : Answered socketPath before action) (stepped : step socketPath before action = some after) :
    Own socketPath action.daemon after := by
  obtain ⟨daemon, call⟩ := action
  simp only [step, sunPath_eq fits] at stepped
  cases call <;> cases phase : before.phase daemon <;> simp only [phase, reduceCtorEq] at stepped
  case socket.idle works =>
    split at stepped <;> cases stepped
    · apply kept.own_enter <;> simp [phase, Leaves, Holds, Cleared]
    · exact kept.own_leave daemon
  case connect.created answer =>
    split at stepped
    · split at stepped <;> cases stepped
      exact kept.own_leave daemon
    next unanswered =>
      cases stepped
      have silent := answered.silent fits (by simpa using unanswered)
      apply kept.own_enter
      · simp [phase, Leaves, Holds]
      · intro cleared
        exact kept.free phase silent (by simpa [Cleared] using cleared)
  case unlink.probed removes =>
    cases stepped
    simp only [Answered] at answered
    rw [answered]
    apply kept.own_unlink
    · simp [phase, Leaves, Holds]
    · intro _ empty
      exact kept.vacant daemon (Or.inr ⟨empty, phase⟩)
  case unlink.stopping removes =>
    cases stepped
    simp only [Answered] at answered
    rw [answered]
    apply kept.own_unlink
    · intro empty _
      exact Or.inr (Or.inr ⟨empty, rfl⟩)
    · simp [Cleared]
  case bind.unlinked works =>
    split at stepped
    · split at stepped <;> cases stepped
      refine ⟨?_, by simp [Cleared]⟩
      intro path found
      by_cases same : path = cString socketPath
      · exact ⟨same, Or.inl (by simp [Holds])⟩
      · rw [entries_enter, entries_put, Function.update_of_ne same] at found
        exact absurd (kept.owners path daemon found).1 same
    · cases stepped
      exact kept.own_leave daemon
  case listen.permitted works =>
    split at stepped <;> cases stepped
    · apply kept.own_enter <;> simp [Leaves, Holds, Cleared]
    · exact kept.own_leave daemon
  case chmod.bound | stop.listening =>
    cases stepped
    apply kept.own_enter <;> simp [Leaves, Holds, Cleared]
  all_goals
    cases stepped
    exact kept.own_leave daemon

theorem bind_unlinked {works : Bool} (called : action.call = .bind works)
    (stepped : step socketPath before action = some after) : before.phase action.daemon = .unlinked := by
  obtain ⟨daemon, call⟩ := action
  simp only at called
  subst called
  cases phase : before.phase daemon <;> simp [step, phase] at stepped
  exact rfl

theorem step_kept (fits : (cString socketPath).length < sunPathSize) (kept : Kept socketPath before)
    (orderly : Orderly socketPath before action) (stepped : step socketPath before action = some after) :
    Kept socketPath after := by
  have moves := step_moves stepped
  have own := step_own fits kept orderly.answered stepped
  refine ⟨step_oneCall fits kept.one orderly.begins (orderly.answered.silent fits) stepped, ?owners, ?files, ?vacant⟩
  case owners =>
    intro path owner found
    by_cases self : owner = action.daemon
    · subst self
      exact own.leaves path found
    · obtain earlier | ⟨_, _, own⟩ := moves.entries path _ found
      · rw [moves.others owner self]
        exact kept.owners path owner earlier
      · exact absurd (by simpa using own) self
  case files =>
    intro found
    obtain earlier | ⟨_, _, own⟩ := moves.entries [] _ found
    · exact kept.files earlier
    · cases own
  case vacant =>
    intro daemon cleared
    by_cases self : daemon = action.daemon
    · subst self
      exact own.vacant cleared
    · rw [moves.others daemon self] at cleared
      cases entry : after.entries (cString socketPath) with
      | none => rfl
      | some found =>
        obtain earlier | ⟨bound, _⟩ := moves.entries _ _ entry
        · rw [kept.vacant daemon cleared] at earlier
          cases earlier
        · -- Only a process behind its own unlink binds, and no second call is under way.
          have unlinked := bind_unlinked bound stepped
          exact absurd (kept.one.alone daemon action.daemon cleared.calling (by simp [unlinked, Calling])) self

theorem reaches_kept (fits : (cString socketPath).length < sunPathSize) (reaches : Reaches socketPath state) :
    Kept socketPath state := by
  obtain ⟨stale, actions, files, orderly, ran⟩ := reaches
  exact Transition.run_keeps (fun kept orderly stepped => step_kept fits kept orderly stepped) (initial_kept files) orderly ran

/-- The call goes on from each of its phases with what the system answers there. -/
theorem call_proceeds (daemon : Nat) (reached : Reaches socketPath state) (calling : Calling (state.phase daemon)) :
    ∃ call after, call ≠ .exit ∧ Taken socketPath state ⟨daemon, call⟩ after := by
  classical
  have orderly : ∀ call, Answered socketPath state ⟨daemon, call⟩ → (∀ works, call ≠ .socket works) →
      Orderly socketPath state ⟨daemon, call⟩ := by
    intro call answered later
    exact ⟨answered, fun works called => absurd called (later works)⟩
  cases phase : state.phase daemon <;> simp only [phase, Calling] at calling
  case created =>
    by_cases alive : ∃ owner, state.entries (sunPath socketPath) = some (.bound owner) ∧ Open (state.phase owner)
    · obtain ⟨owner, named, listens⟩ := alive
      have answers : Answers state (sunPath socketPath) := by
        simp only [Answers, named]
        exact listens
      refine ⟨.connect true, state.leave daemon, by simp, reached, orderly _ ?_ (by simp), ?_⟩
      · simp only [Answered, true_iff]
        exact ⟨owner, named, listens⟩
      · simp [step, phase, answers]
    · refine ⟨.connect false, state.enter daemon .probed, by simp, reached, orderly _ ?_ (by simp), ?_⟩
      · simpa [Answered] using alive
      · simp [step, phase]
  case probed =>
    refine ⟨.unlink true, (state.unlink (cString socketPath) true).enter daemon .unlinked, by simp, reached,
      orderly _ ?_ (by simp), ?_⟩
    · simp [Answered]
    · simp [step, phase]
  case unlinked =>
    by_cases free : state.entries (sunPath socketPath) = none
    · refine ⟨.bind true, (state.put (sunPath socketPath) (some (.bound daemon))).enter daemon .bound, by simp, reached,
        orderly _ ?_ (by simp), ?_⟩
      · simp [Answered, free]
      · simp [step, phase, free]
    · refine ⟨.bind false, state.leave daemon, by simp, reached, orderly _ ?_ (by simp), ?_⟩
      · simp [Answered, free]
      · simp [step, phase]
  case bound =>
    exact ⟨.chmod, state.enter daemon .permitted, by simp, reached, orderly _ trivial (by simp), by simp [step, phase]⟩
  case permitted =>
    refine ⟨.listen true, state.enter daemon .listening, by simp, reached, orderly _ ?_ (by simp), ?_⟩
    · simp [Answered]
    · simp [step, phase]

/-- A call that returns -1 has found a listener, or a name that its unlink has left. -/
theorem refused_cases (taken : Taken socketPath before action after) (calling : Calling (before.phase action.daemon))
    (lives : action.call ≠ .exit) (gone : after.phase action.daemon = .gone) :
    (∃ owner, before.entries (sunPath socketPath) = some (.bound owner) ∧ Open (before.phase owner)) ∨
    (before.phase action.daemon = .unlinked ∧ before.entries (sunPath socketPath) ≠ none) := by
  obtain ⟨_, orderly, stepped⟩ := taken
  have answered := orderly.answered
  obtain ⟨daemon, call⟩ := action
  simp only [step] at stepped
  cases call <;> cases phase : before.phase daemon <;> simp only [phase, reduceCtorEq] at stepped
  case connect.created answer =>
    split at stepped
    next yes => exact Or.inl (answered.mp yes)
    · cases stepped
      simp at gone
  case bind.unlinked works =>
    split at stepped
    · split at stepped <;> cases stepped
      simp at gone
    next failed => exact Or.inr ⟨rfl, fun free => failed (answered.mpr free)⟩
  case listen.permitted works =>
    simp only [Answered] at answered
    rw [answered] at stepped
    cases stepped
    simp at gone
  case unlink.probed | chmod.bound =>
    cases stepped
    simp at gone
  all_goals simp [phase, Calling] at calling lives

theorem fits_starts (fits : (cString socketPath).length < sunPathSize) : Starts socketPath where
  refused before action after taken calling lives gone := by
    have kept := reaches_kept fits taken.reached
    obtain ⟨owner, named, listens⟩ | ⟨unlinked, found⟩ := refused_cases taken calling lives gone
    · rw [sunPath_eq fits] at named
      exact ⟨owner, named, listens⟩
    · rw [sunPath_eq fits] at found
      exact absurd (kept.vacant action.daemon (Or.inl unlinked)) found
  accepted before action after taken _ listening other serves := by
    have kept := step_kept fits (reaches_kept fits taken.reached) taken.orderly taken.stepped
    exact kept.one.named.owned.single other action.daemon serves (Or.inl listening)
  proceeds state daemon reached calling := call_proceeds daemon reached calling

theorem fits_stops (fits : (cString socketPath).length < sunPathSize) : Stops socketPath := by
  intro before action after taken removed path found
  obtain ⟨reached, orderly, stepped⟩ := taken
  have own := step_own fits (reaches_kept fits reached) orderly.answered stepped
  obtain ⟨daemon, call⟩ := action
  simp only at removed own found
  cases call <;> simp [step, removed] at stepped
  subst stepped
  obtain ⟨earlier, freed⟩ := entries_leave found
  obtain ⟨same, holds | ⟨nonempty, _⟩ | ⟨empty, _⟩⟩ := (reaches_kept fits reached).owners path daemon earlier
  · simp [removed, Holds] at holds
  next gone =>
    rw [removed] at gone
    cases gone
  · exact freed (same.trans empty) rfl

theorem cString_clean (clean : 0 ∉ socketPath) : cString socketPath = socketPath := by
  refine List.takeWhile_eq_self_iff.mpr ?_
  intro byte member
  have : byte ≠ 0 := ne_of_mem_of_not_mem member clean
  simpa using this

theorem Taken.reaches (taken : Taken socketPath before action after) : Reaches socketPath after := by
  obtain ⟨⟨stale, actions, files, orderly, ran⟩, next, stepped⟩ := taken
  refine ⟨stale, actions ++ [action], files, Transition.throughout_snoc orderly ran next, ?_⟩
  rw [run] at ran ⊢
  rw [Transition.run_append, ran, Option.bind_some, Transition.run, stepped]
  rfl

@[simp] theorem enter_enter (daemon : Nat) (phase later : Phase) :
    (state.enter daemon phase).enter daemon later = state.enter daemon later := by
  simp [State.enter]

@[simp] theorem enter_put (daemon : Nat) (phase : Phase) (path : ByteString) (entry : Option Daemon.CrashSocket.Entry) :
    (state.enter daemon phase).put path entry = (state.put path entry).enter daemon phase := rfl

@[simp] theorem enter_unlink (daemon : Nat) (phase : Phase) (name : ByteString) (removes : Bool) :
    (state.enter daemon phase).unlink name removes = (state.unlink name removes).enter daemon phase := by
  unfold State.unlink
  split <;> rfl

theorem unlink_free {name : ByteString} (free : state.entries name = none) (removes : Bool) :
    state.unlink name removes = state := by
  unfold State.unlink
  split
  · rw [State.put, Function.update_eq_self_iff.mpr free.symm]
  · rfl

theorem leave_kept {daemon : Nat} (kept : state.entries [] ≠ some (.bound daemon)) :
    state.leave daemon = state.enter daemon .gone := by
  rw [State.leave, if_neg kept]

/-- A call that finds no listener gets behind its unlink. -/
theorem Reaches.unlinked (reached : Reaches socketPath state) (daemon : Nat) (idle : state.phase daemon = .idle)
    (alone : ∀ other, ¬ Calling (state.phase other))
    (silent : ∀ owner, state.entries (sunPath socketPath) = some (.bound owner) → ¬ Open (state.phase owner)) :
    Reaches socketPath ((state.unlink (cString socketPath) true).enter daemon .unlinked) := by
  have created : Taken socketPath state ⟨daemon, .socket true⟩ (state.enter daemon .created) :=
    ⟨reached, ⟨rfl, fun _ _ => alone⟩, by simp [step, idle]⟩
  have probed : Taken socketPath (state.enter daemon .created) ⟨daemon, .connect false⟩ (state.enter daemon .probed) := by
    refine ⟨created.reaches, ⟨?_, by simp⟩, by simp [step]⟩
    simp only [Answered, Bool.false_eq_true, false_iff, not_exists, not_and]
    intro owner named
    by_cases self : owner = daemon
    · simp [self, Open]
    · simpa [Function.update_of_ne self] using silent owner named
  have unlinked : Taken socketPath (state.enter daemon .probed) ⟨daemon, .unlink true⟩
      ((state.unlink (cString socketPath) true).enter daemon .unlinked) :=
    ⟨probed.reaches, ⟨rfl, by simp⟩, by simp [step]⟩
  exact unlinked.reaches

/-- A bind on a free address leads to a daemon that listens. -/
theorem Reaches.listening {daemon : Nat} (reached : Reaches socketPath (state.enter daemon .unlinked))
    (free : state.entries (sunPath socketPath) = none) :
    Reaches socketPath ((state.put (sunPath socketPath) (some (.bound daemon))).enter daemon .listening) := by
  have bound : Taken socketPath (state.enter daemon .unlinked) ⟨daemon, .bind true⟩
      ((state.put (sunPath socketPath) (some (.bound daemon))).enter daemon .bound) :=
    ⟨reached, ⟨by simp [Answered, free], by simp⟩, by simp [step, free]⟩
  have permitted : Taken socketPath _ ⟨daemon, .chmod⟩
      ((state.put (sunPath socketPath) (some (.bound daemon))).enter daemon .permitted) :=
    ⟨bound.reaches, ⟨trivial, by simp⟩, by simp [step]⟩
  have listening : Taken socketPath _ ⟨daemon, .listen true⟩
      ((state.put (sunPath socketPath) (some (.bound daemon))).enter daemon .listening) :=
    ⟨permitted.reaches, ⟨rfl, by simp⟩, by simp [step]⟩
  exact listening.reaches

/-- The end of RunWatcher. -/
theorem Reaches.removed {daemon : Nat} (reached : Reaches socketPath (state.enter daemon .listening)) :
    Reaches socketPath ((state.unlink (cString socketPath) true).enter daemon .removed) := by
  have stopping : Taken socketPath _ ⟨daemon, .stop⟩ (state.enter daemon .stopping) :=
    ⟨reached, ⟨trivial, by simp⟩, by simp [step]⟩
  have removed : Taken socketPath (state.enter daemon .stopping) ⟨daemon, .unlink true⟩
      ((state.unlink (cString socketPath) true).enter daemon .removed) :=
    ⟨stopping.reaches, ⟨rfl, by simp⟩, by simp [step]⟩
  exact removed.reaches

/-- The socket of the first daemon stands under the truncated name. -/
def abandoned (socketPath : ByteString) : State :=
  (initial fun _ => false).put (sunPath socketPath) (some (.bound 0))

/-- The unlink of a long path does not reach the truncated one. -/
theorem abandoned_name (other : cString socketPath ≠ sunPath socketPath) :
    (abandoned socketPath).entries (cString socketPath) = none := by
  simp [abandoned, initial, Function.update_of_ne other]

theorem long_life (other : cString socketPath ≠ sunPath socketPath) :
    Reaches socketPath ((abandoned socketPath).enter 0 .removed) := by
  have start : Reaches socketPath (initial fun _ => false) := ⟨fun _ => false, [], rfl, trivial, rfl⟩
  have unlinked := start.unlinked 0 rfl (by simp [initial, Calling]) (by simp [initial])
  rw [unlink_free rfl] at unlinked
  have removed := (unlinked.listening rfl).removed
  rw [← abandoned, unlink_free (abandoned_name other)] at removed
  exact removed

theorem long_address (other : cString socketPath ≠ sunPath socketPath) : sunPath socketPath ≠ [] := by
  rw [ne_eq, sunPath_eq_iff] at other
  apply List.ne_nil_of_length_pos
  simp only [sunPath, List.length_take, sunPathSize] at other ⊢
  omega

theorem long_exit (other : cString socketPath ≠ sunPath socketPath) :
    Taken socketPath ((abandoned socketPath).enter 0 .removed) ⟨0, .exit⟩ ((abandoned socketPath).enter 0 .gone) := by
  refine ⟨long_life other, ⟨trivial, by simp⟩, ?_⟩
  have kept : ((abandoned socketPath).enter 0 .removed).entries [] ≠ some (.bound 0) := by
    simp [abandoned, initial, Function.update_of_ne (long_address other).symm]
  simp [step, leave_kept kept]

/-- The first daemon's clean stop leaves its file. -/
theorem long_stops (other : cString socketPath ≠ sunPath socketPath) : ¬ Stops socketPath := by
  intro stops
  have left : ((abandoned socketPath).enter 0 .gone).entries (sunPath socketPath) = some (.bound 0) := by
    simp [abandoned]
  exact stops _ _ _ (long_exit other) (by simp) _ left

/-- The next start fails at its bind although no daemon is alive. -/
theorem long_starts (other : cString socketPath ≠ sunPath socketPath) : ¬ Starts socketPath := by
  intro starts
  have ended := (long_exit other).reaches
  have unlinked := ended.unlinked 1 rfl ?alone ?silent
  case alone =>
    intro daemon
    by_cases first : daemon = 0 <;> simp [abandoned, initial, Calling, first]
  case silent =>
    intro owner named
    have first : owner = 0 := by simpa [abandoned, eq_comm] using named
    simp [first, Open]
  rw [enter_unlink, unlink_free (abandoned_name other)] at unlinked
  have taken : Taken socketPath (((abandoned socketPath).enter 0 .gone).enter 1 .unlinked) ⟨1, .bind false⟩
      (State.leave (((abandoned socketPath).enter 0 .gone).enter 1 .unlinked) 1) := by
    refine ⟨unlinked, ⟨?_, by simp⟩, ?_⟩
    · simp [Answered, abandoned]
    · simp [step]
  obtain ⟨owner, named, _⟩ := starts.refused _ _ _ taken (by simp [Calling]) (by simp) (by simp)
  rw [entries_enter, entries_enter, abandoned_name other] at named
  cases named

theorem onePath_iff : OnePath socketPath ↔ cString socketPath = sunPath socketPath := by
  refine ⟨fun same => same (.unlink true) (.connect true) _ _ rfl rfl, ?_⟩
  intro same first second one other path otherPath
  have only : ∀ (call : Call) (path : ByteString), call.path socketPath = some path → path = sunPath socketPath := by
    intro call path called
    cases call <;> simp only [Call.path, same, Option.some.injEq, reduceCtorEq] at called <;> exact called.symm
  rw [only first one path, only second other otherPath]

/-- The calls name one file, a start is refused only by a live daemon, and a clean stop leaves no
file: each exactly for the paths that sun_path holds. -/
theorem lifetime_iff_fits (clean : 0 ∉ socketPath) :
    (OnePath socketPath ↔ socketPath.length ≤ 107) ∧ (Starts socketPath ↔ socketPath.length ≤ 107) ∧
      (Stops socketPath ↔ socketPath.length ≤ 107) := by
  have fits_iff : cString socketPath = sunPath socketPath ↔ socketPath.length ≤ 107 := by
    rw [sunPath_eq_iff, cString_clean clean, sunPathSize]
    omega
  have fits : socketPath.length ≤ 107 → (cString socketPath).length < sunPathSize :=
    fun short => sunPath_eq_iff.mp (fits_iff.mpr short)
  refine ⟨onePath_iff.trans fits_iff, ⟨?_, fun short => fits_starts (fits short)⟩, ⟨?_, fun short => fits_stops (fits short)⟩⟩
  · intro starts
    by_contra long
    exact long_starts (fun same => long (fits_iff.mp same)) starts
  · intro stops
    by_contra long
    exact long_stops (fun same => long (fits_iff.mp same)) stops

theorem default_path_lives : OnePath defaultPath ∧ Starts defaultPath ∧ Stops defaultPath := by
  obtain ⟨path, starts, stops⟩ := @lifetime_iff_fits defaultPath (by decide)
  exact ⟨path.mpr (by decide), starts.mpr (by decide), stops.mpr (by decide)⟩

/-- 108 characters: the socket is bound without the last one. -/
theorem long_path_misses :
    ¬ ∀ socketPath : ByteString, 0 ∉ socketPath → OnePath socketPath ∧ Starts socketPath ∧ Stops socketPath := by
  intro lives
  have long : cString (List.replicate 108 97) ≠ sunPath (List.replicate 108 97) := by decide
  exact long_starts long (lives (List.replicate 108 97) (by decide)).2.1

end Crashomon.Proofs.SocketLifetime
