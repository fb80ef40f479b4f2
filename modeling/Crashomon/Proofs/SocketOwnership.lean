import Crashomon.Daemon.CrashSocket

/-! Who owns the socket path. A call that probes before another call binds and unlinks
afterwards steals the path; where no unlink hits the socket of another process, the path
names the socket of every daemon that runs. -/

namespace Crashomon.Proofs.SocketOwnership
open Daemon.CrashSocket

/-- The process has bound its socket and not removed it: it will listen on it, or does. -/
def Holds : Phase → Prop
  | .bound | .permitted | .listening | .stopping => True
  | _ => False

instance : DecidablePred Holds := fun phase => by
  cases phase <;> (unfold Holds; infer_instance)

/-- The call has returned the descriptor and the daemon has not begun to remove the socket. -/
def Serves (phase : Phase) : Prop := phase = .listening ∨ phase = .stopping

/-- What the path must do for every daemon that runs. -/
structure Owned (socketPath : ByteString) (state : State) : Prop where
  named : ∀ daemon, Serves (state.phase daemon) → state.entries (cString socketPath) = some (.bound daemon)
  single : ∀ first second, Serves (state.phase first) → Serves (state.phase second) → first = second

/-- An unlink does not hit the socket of another process. -/
def Spares (socketPath : ByteString) (state : State) (action : Action) : Prop :=
  match action.call, state.entries (cString socketPath) with
  | .unlink _, some (.bound owner) => Holds (state.phase owner) → owner = action.daemon
  | _, _ => True

instance (socketPath : ByteString) (state : State) (action : Action) : Decidable (Spares socketPath state action) := by
  unfold Spares
  split <;> infer_instance

def Named (socketPath : ByteString) (state : State) : Prop :=
  ∀ daemon, Holds (state.phase daemon) → state.entries (cString socketPath) = some (.bound daemon)

variable {socketPath : ByteString} {before after state : State}

theorem sunPath_eq (fits : (cString socketPath).length < sunPathSize) : sunPath socketPath = cString socketPath := by
  unfold sunPathSize at fits
  exact List.take_of_length_le (by unfold sunPathSize; omega)

/-- A path that sun_path cannot hold has another name there. -/
theorem sunPath_eq_iff : cString socketPath = sunPath socketPath ↔ (cString socketPath).length < sunPathSize := by
  refine ⟨?_, fun fits => (sunPath_eq fits).symm⟩
  intro same
  have length := congrArg List.length same
  simp only [sunPath, List.length_take, sunPathSize] at length ⊢
  omega

@[simp] theorem phase_enter (daemon : Nat) (phase : Phase) :
    (state.enter daemon phase).phase = Function.update state.phase daemon phase := rfl

@[simp] theorem entries_enter (daemon : Nat) (phase : Phase) : (state.enter daemon phase).entries = state.entries := rfl

@[simp] theorem phase_put (path : ByteString) (entry : Option Daemon.CrashSocket.Entry) : (state.put path entry).phase = state.phase := rfl

@[simp] theorem entries_put (path : ByteString) (entry : Option Daemon.CrashSocket.Entry) :
    (state.put path entry).entries = Function.update state.entries path entry := rfl

/-- Closing a process's descriptors frees at most its own address. -/
theorem entries_leave {daemon : Nat} {path : ByteString} {entry : Daemon.CrashSocket.Entry}
    (found : (state.leave daemon).entries path = some entry) :
    state.entries path = some entry ∧ (path = [] → entry ≠ .bound daemon) := by
  unfold State.leave at found
  split at found
  next own =>
    rw [entries_enter, entries_put] at found
    by_cases empty : path = []
    · simp [empty] at found
    · rw [Function.update_of_ne empty] at found
      exact ⟨found, fun same => absurd same empty⟩
  next other =>
    refine ⟨found, ?_⟩
    rintro rfl rfl
    exact other found

@[simp] theorem phase_leave (daemon : Nat) : (state.leave daemon).phase = Function.update state.phase daemon .gone := by
  unfold State.leave
  split <;> rfl

theorem entries_leave_other {daemon owner : Nat} {path : ByteString} (other : owner ≠ daemon)
    (found : state.entries path = some (.bound owner)) : (state.leave daemon).entries path = some (.bound owner) := by
  unfold State.leave
  split
  next own =>
    have apart : path ≠ [] := by
      rintro rfl
      rw [own] at found
      cases found
      exact other rfl
    rw [entries_enter, entries_put, Function.update_of_ne apart]
    exact found
  next => exact found

@[simp] theorem phase_unlink (name : ByteString) (removes : Bool) : (state.unlink name removes).phase = state.phase := by
  unfold State.unlink
  split <;> rfl

theorem entries_unlink {name path : ByteString} {removes : Bool} {entry : Daemon.CrashSocket.Entry}
    (found : (state.unlink name removes).entries path = some entry) : state.entries path = some entry := by
  unfold State.unlink at found
  split at found
  · rw [entries_put] at found
    by_cases same : path = name
    · simp [same] at found
    · rwa [Function.update_of_ne same] at found
  · exact found

theorem Named.owned (named : Named socketPath state) : Owned socketPath state := by
  have holds : ∀ daemon, Serves (state.phase daemon) → Holds (state.phase daemon) := by
    intro daemon serves
    cases serves with
    | inl phase => simp [phase, Holds]
    | inr phase => simp [phase, Holds]
  refine ⟨fun daemon serves => named daemon (holds daemon serves), ?_⟩
  intro first second one other
  have same := (named first (holds first one)).symm.trans (named second (holds second other))
  simpa using same

/-- A process that enters a phase in which it holds nothing leaves the names of the others. -/
theorem Named.enter (named : Named socketPath state) {daemon : Nat} {phase : Phase} (free : ¬ Holds phase) :
    Named socketPath (state.enter daemon phase) := by
  intro owner holds
  by_cases same : owner = daemon
  · subst same
    exact absurd (by simpa using holds) free
  · rw [phase_enter, Function.update_of_ne same] at holds
    exact named owner holds

theorem Named.advance (named : Named socketPath state) {daemon : Nat} {phase : Phase} (held : Holds (state.phase daemon)) :
    Named socketPath (state.enter daemon phase) := by
  intro owner holds
  by_cases same : owner = daemon
  · subst same
    exact named owner held
  · rw [phase_enter, Function.update_of_ne same] at holds
    exact named owner holds

theorem Named.leave (named : Named socketPath state) (daemon : Nat) : Named socketPath (state.leave daemon) := by
  intro owner holds
  by_cases same : owner = daemon
  · subst same
    simp [Holds] at holds
  · rw [phase_leave, Function.update_of_ne same] at holds
    exact entries_leave_other same (named owner holds)

theorem Named.unlink (named : Named socketPath state) {daemon : Nat} {removes : Bool} {phase : Phase} (free : ¬ Holds phase)
    (spares : Spares socketPath state ⟨daemon, .unlink removes⟩) :
    Named socketPath ((state.unlink (cString socketPath) removes).enter daemon phase) := by
  intro owner holds
  by_cases same : owner = daemon
  · subst same
    exact absurd (by simpa using holds) free
  · have held : Holds (state.phase owner) := by simpa [Function.update_of_ne same] using holds
    simp only [Spares, named owner held] at spares
    exact absurd (spares held) same

theorem Named.bind (named : Named socketPath state) {daemon : Nat} (free : state.entries (cString socketPath) = none) :
    Named socketPath ((state.put (cString socketPath) (some (.bound daemon))).enter daemon .bound) := by
  intro owner holds
  by_cases same : owner = daemon
  · subst same
    simp
  · have held : Holds (state.phase owner) := by simpa [Function.update_of_ne same] using holds
    simp [named owner held] at free

theorem step_named (fits : (cString socketPath).length < sunPathSize) {action : Action} (named : Named socketPath before)
    (spares : Spares socketPath before action) (stepped : step socketPath before action = some after) :
    Named socketPath after := by
  obtain ⟨daemon, call⟩ := action
  simp only [step, sunPath_eq fits] at stepped
  cases call <;> cases phase : before.phase daemon <;> simp only [phase, reduceCtorEq] at stepped
  case socket.idle works =>
    split at stepped <;> cases stepped
    · exact named.enter (by simp [Holds])
    · exact named.leave daemon
  case connect.created answered =>
    split at stepped
    · split at stepped
      · cases stepped
        exact named.leave daemon
      · cases stepped
    · cases stepped
      exact named.enter (by simp [Holds])
  case unlink.probed removes =>
    cases stepped
    exact named.unlink (by simp [Holds]) spares
  case unlink.stopping removes =>
    cases stepped
    exact named.unlink (by simp [Holds]) spares
  case bind.unlinked works =>
    split at stepped
    · split at stepped
      next free =>
        cases stepped
        exact named.bind free
      next => cases stepped
    · cases stepped
      exact named.leave daemon
  case listen.permitted works =>
    split at stepped <;> cases stepped
    · exact named.advance (by simp [phase, Holds])
    · exact named.leave daemon
  case chmod.bound | stop.listening =>
    cases stepped
    exact named.advance (by simp [phase, Holds])
  all_goals
    cases stepped
    exact named.leave daemon

theorem initial_named (present : ByteString → Bool) : Named socketPath (initial present) :=
  fun _ holds => absurd holds (by simp [initial, Holds])

/-- The process is inside CreateListenSocket. -/
def Calling : Phase → Prop
  | .created | .probed | .unlinked | .bound | .permitted => True
  | _ => False

/-- A call begins only when no other is under way, and the probe fails only where nobody answers. -/
def Separate (socketPath : ByteString) (state : State) (action : Action) : Prop :=
  match action.call with
  | .socket _ => ∀ other, ¬ Calling (state.phase other)
  | .connect false => ¬ Answers state (sunPath socketPath)
  | _ => True

structure OneCall (socketPath : ByteString) (state : State) : Prop where
  named : Named socketPath state
  alone : ∀ first second, Calling (state.phase first) → Calling (state.phase second) → first = second
  clear : ∀ daemon owner, state.phase daemon = .probed → state.entries (cString socketPath) = some (.bound owner) →
    ¬ Holds (state.phase owner)

theorem OneCall.spares (one : OneCall socketPath state) (action : Action)
    (possible : (step socketPath state action).isSome) : Spares socketPath state action := by
  obtain ⟨daemon, call⟩ := action
  unfold Spares
  split
  next removes owner called entry =>
    intro holds
    simp only at called
    subst called
    cases phase : state.phase daemon <;> simp [step, phase] at possible
    case probed => exact absurd holds (one.clear daemon owner phase entry)
    case stopping =>
      have own := one.named daemon (by simp [phase, Holds])
      rw [entry] at own
      simpa using own
  next => trivial

/-- The process has a socket that listens. -/
def Open (phase : Phase) : Prop := phase = .listening ∨ phase = .stopping ∨ phase = .removed

instance : DecidablePred Open := fun phase => by
  unfold Open
  infer_instance

/-- A process that holds its socket listens or is still inside the call. -/
theorem holds_cases {phase : Phase} (holds : Holds phase) : Calling phase ∨ Serves phase := by
  cases phase <;> simp_all [Holds, Calling, Serves]

/-- A probe that no listener answers leaves no holder behind the name, as long as no other call is under way. -/
theorem OneCall.unanswered (one : OneCall socketPath state) {daemon owner : Nat} (calling : state.phase daemon = .created)
    (silent : ¬ Open (state.phase owner)) : ¬ Holds (state.phase owner) := by
  intro holds
  obtain busy | serves := holds_cases holds
  · have same := one.alone owner daemon busy (by simp [calling, Calling])
    rw [same, calling] at holds
    exact holds
  · obtain listens | stops := serves
    · exact silent (Or.inl listens)
    · exact silent (Or.inr (Or.inl stops))

/-- What one step may change, seen from the process that takes it. -/
structure Moves (socketPath : ByteString) (before : State) (action : Action) (after : State) : Prop where
  others : ∀ other, other ≠ action.daemon → after.phase other = before.phase other
  calling : Calling (after.phase action.daemon) → Calling (before.phase action.daemon) ∨ ∃ works, action.call = .socket works
  probed : after.phase action.daemon = .probed → before.phase action.daemon = .created ∧ action.call = .connect false
  holds : Holds (after.phase action.daemon) → Holds (before.phase action.daemon) ∨ Calling (before.phase action.daemon)
  entries : ∀ path entry, after.entries path = some entry → before.entries path = some entry ∨
    action.call = .bind true ∧ path = sunPath socketPath ∧ entry = .bound action.daemon

theorem moves_leave (daemon : Nat) (call : Call) : Moves socketPath state ⟨daemon, call⟩ (state.leave daemon) where
  others other apart := by simp [Function.update_of_ne apart]
  calling busy := by simp [Calling] at busy
  probed reached := by simp at reached
  holds held := by simp [Holds] at held
  entries _ _ found := Or.inl (entries_leave found).1

/-- A step that only takes the process from one phase to another. -/
theorem moves_enter {daemon : Nat} {call : Call} {phase : Phase}
    (calling : Calling phase → Calling (state.phase daemon) ∨ ∃ works, call = .socket works)
    (probed : phase = .probed → state.phase daemon = .created ∧ call = .connect false)
    (holds : Holds phase → Holds (state.phase daemon) ∨ Calling (state.phase daemon)) :
    Moves socketPath state ⟨daemon, call⟩ (state.enter daemon phase) where
  others other apart := by simp [Function.update_of_ne apart]
  calling busy := calling (by simpa using busy)
  probed reached := probed (by simpa using reached)
  holds held := holds (by simpa using held)
  entries _ _ found := Or.inl found

theorem moves_unlink {daemon : Nat} {removes : Bool} {phase : Phase} (calling : Calling phase → Calling (state.phase daemon))
    (probed : phase ≠ .probed) (free : ¬ Holds phase) :
    Moves socketPath state ⟨daemon, .unlink removes⟩ ((state.unlink (cString socketPath) removes).enter daemon phase) where
  others other apart := by simp [Function.update_of_ne apart]
  calling busy := Or.inl (calling (by simpa using busy))
  probed reached := absurd (by simpa using reached) probed
  holds held := absurd (by simpa using held) free
  entries _ _ found := Or.inl (entries_unlink found)

theorem moves_bind {daemon : Nat} (unlinked : state.phase daemon = .unlinked) :
    Moves socketPath state ⟨daemon, .bind true⟩
      ((state.put (sunPath socketPath) (some (.bound daemon))).enter daemon .bound) where
  others other apart := by simp [Function.update_of_ne apart]
  calling _ := Or.inl (by simp [unlinked, Calling])
  probed reached := by simp at reached
  holds _ := Or.inr (by simp [unlinked, Calling])
  entries path entry found := by
    by_cases same : path = sunPath socketPath
    · subst same
      right
      simpa [eq_comm] using found
    · left
      simpa [Function.update_of_ne same] using found

theorem step_moves {action : Action} (stepped : step socketPath before action = some after) :
    Moves socketPath before action after := by
  obtain ⟨daemon, call⟩ := action
  simp only [step] at stepped
  cases call <;> cases phase : before.phase daemon <;> simp only [phase, reduceCtorEq] at stepped
  case socket.idle works =>
    split at stepped <;> cases stepped
    · apply moves_enter <;> simp [Holds]
    · exact moves_leave daemon _
  case connect.created answered =>
    split at stepped
    · split at stepped <;> cases stepped
      exact moves_leave daemon _
    · cases stepped
      apply moves_enter <;> simp_all [Calling, Holds]
  case unlink.probed removes | unlink.stopping removes =>
    cases stepped
    apply moves_unlink <;> simp [phase, Calling, Holds]
  case bind.unlinked works =>
    split at stepped
    next bound =>
      split at stepped <;> cases stepped
      rw [bound]
      exact moves_bind phase
    next =>
      cases stepped
      exact moves_leave daemon _
  case listen.permitted works =>
    split at stepped <;> cases stepped
    · apply moves_enter <;> simp [phase, Calling]
    · exact moves_leave daemon _
  case chmod.bound | stop.listening =>
    cases stepped
    apply moves_enter <;> simp [phase, Calling, Holds]
  all_goals
    cases stepped
    exact moves_leave daemon _

/-- The path names no daemon's socket. -/
def Unnamed (socketPath : ByteString) (state : State) : Prop :=
  ∀ daemon, state.entries (cString socketPath) ≠ some (.bound daemon)

theorem step_unnamed (other : cString socketPath ≠ sunPath socketPath) {action : Action} (unnamed : Unnamed socketPath before)
    (stepped : step socketPath before action = some after) : Unnamed socketPath after := by
  intro owner found
  obtain kept | ⟨_, bound, _⟩ := (step_moves stepped).entries _ _ found
  · exact unnamed owner kept
  · exact other bound

/-- A path that does not fit sun_path never names a socket of the daemons. -/
theorem long_path_unnamed (long : sunPathSize ≤ (cString socketPath).length) {present : ByteString → Bool} {actions : List Action}
    {last : State} (ran : run socketPath (initial present) actions = some last) : Unnamed socketPath last := by
  have other : cString socketPath ≠ sunPath socketPath := by
    rw [ne_eq, sunPath_eq_iff]
    omega
  have start : Unnamed socketPath (initial present) := by
    intro daemon
    simp only [initial]
    split <;> simp
  exact Transition.run_invariant (fun unnamed stepped => step_unnamed other unnamed stepped) start ran

/-- One call at a time stays so: a call begins only when no other is under way, and a probe fails only
where no process listens. -/
theorem step_oneCall (fits : (cString socketPath).length < sunPathSize) {action : Action} (one : OneCall socketPath before)
    (first : ∀ works, action.call = .socket works → ∀ other, ¬ Calling (before.phase other))
    (silent : action.call = .connect false → ∀ owner, before.entries (cString socketPath) = some (.bound owner) →
      ¬ Open (before.phase owner))
    (stepped : step socketPath before action = some after) : OneCall socketPath after := by
  have moves := step_moves stepped
  have spares := one.spares action (by simp [stepped])
  refine ⟨step_named fits one.named spares stepped, ?alone, ?clear⟩
  case alone =>
    have fresh : ∀ other, other ≠ action.daemon → Calling (after.phase action.daemon) → ¬ Calling (after.phase other) := by
      intro other apart calling busy
      rw [moves.others other apart] at busy
      obtain before | ⟨works, called⟩ := moves.calling calling
      · exact apart (one.alone other action.daemon busy before)
      · exact first works called other busy
    intro first second one' other
    by_cases left : first = action.daemon
    · by_cases right : second = action.daemon
      · exact left.trans right.symm
      · exact absurd other (fresh second right (left ▸ one'))
    · by_cases right : second = action.daemon
      · exact absurd one' (fresh first left (right ▸ other))
      · rw [moves.others first left] at one'
        rw [moves.others second right] at other
        exact one.alone first second one' other
  case clear =>
    intro daemon owner probed entry holds
    have found := moves.entries _ _ entry
    by_cases self : daemon = action.daemon
    · subst self
      obtain ⟨created, called⟩ := moves.probed probed
      obtain kept | ⟨bound, _⟩ := found
      · by_cases same : owner = action.daemon
        · rw [same, probed] at holds
          exact holds
        · rw [moves.others owner same] at holds
          exact one.unanswered created (silent called owner kept) holds
      · rw [called] at bound
        cases bound
    · rw [moves.others daemon self] at probed
      by_cases same : owner = action.daemon
      · obtain held | busy := moves.holds (same ▸ holds)
        · exact one.clear daemon action.daemon probed (one.named action.daemon held) held
        · exact self (one.alone daemon action.daemon (by simp [probed, Calling]) busy)
      · have kept : before.entries (cString socketPath) = some (.bound owner) := by
          obtain kept | ⟨_, _, own⟩ := found
          · exact kept
          · exact absurd (by simpa using own) same
        rw [moves.others owner same] at holds
        exact one.clear daemon owner probed kept holds

theorem Separate.silent (fits : (cString socketPath).length < sunPathSize) {action : Action}
    (separate : Separate socketPath state action) (called : action.call = .connect false) (owner : Nat)
    (entry : state.entries (cString socketPath) = some (.bound owner)) : ¬ Open (state.phase owner) := by
  intro listens
  simp only [Separate, called, sunPath_eq fits, Answers, entry] at separate
  exact separate listens

theorem Separate.first {action : Action} (separate : Separate socketPath state action) (works : Bool)
    (called : action.call = .socket works) (other : Nat) : ¬ Calling (state.phase other) := by
  simp only [Separate, called] at separate
  exact separate other

theorem initial_oneCall (present : ByteString → Bool) : OneCall socketPath (initial present) := by
  refine ⟨initial_named present, ?_, ?_⟩
  · intro first second calling
    exact absurd calling (by simp [initial, Calling])
  · intro daemon owner probed
    cases probed

/-- Calls that do not overlap and are answered by every listener never steal the path. -/
theorem separate_calls_keep_path (fits : (cString socketPath).length < sunPathSize) {present : ByteString → Bool}
    {actions : List Action} {last : State}
    (separate : Transition.Throughout (step socketPath) (Separate socketPath) (initial present) actions)
    (ran : run socketPath (initial present) actions = some last) : Owned socketPath last := by
  have one : OneCall socketPath last :=
    Transition.run_keeps (fun one separate stepped => step_oneCall fits one separate.first (separate.silent fits) stepped)
      (initial_oneCall present) separate ran
  exact one.named.owned

theorem spared_run_keeps_path (fits : (cString socketPath).length < sunPathSize) {present : ByteString → Bool}
    {actions : List Action} {last : State}
    (spared : Transition.Throughout (step socketPath) (Spares socketPath) (initial present) actions)
    (ran : run socketPath (initial present) actions = some last) : Owned socketPath last := by
  apply Named.owned
  exact Transition.run_keeps (fun named spares stepped => step_named fits named spares stepped) (initial_named present) spared ran

/-- In every run in which no unlink hits the socket of another process, or in which the calls do not overlap,
the path names the socket of every daemon that runs, so there is at most one. A path that does not fit names none. -/
theorem path_names_owner {present : ByteString → Bool} {actions : List Action} {last : State}
    (ran : run socketPath (initial present) actions = some last) :
    ((cString socketPath).length < sunPathSize →
      Transition.Throughout (step socketPath) (Spares socketPath) (initial present) actions ∨
        Transition.Throughout (step socketPath) (Separate socketPath) (initial present) actions → Owned socketPath last) ∧
      (sunPathSize ≤ (cString socketPath).length → Unnamed socketPath last) := by
  refine ⟨?_, fun long => long_path_unnamed long ran⟩
  rintro fits (spared | separate)
  · exact spared_run_keeps_path fits spared ran
  · exact separate_calls_keep_path fits separate ran

def defaultPath : ByteString := ascii "/run/crashomon/handler.sock"

def start (daemon : Nat) : List Action :=
  [⟨daemon, .unlink true⟩, ⟨daemon, .bind true⟩, ⟨daemon, .chmod⟩, ⟨daemon, .listen true⟩]

def refusedStart : List Action :=
  [⟨0, .socket true⟩, ⟨0, .connect false⟩] ++ start 0 ++ [⟨1, .socket true⟩, ⟨1, .connect true⟩]

/-- One daemon starts on a stale socket and a second one finds it alive. -/
theorem second_start_refused :
    ∃ last, run defaultPath (initial fun _ => true) refusedStart = some last ∧ last.phase 1 = .gone ∧
      Owned defaultPath last := by
  have spared : Transition.Throughout (step defaultPath) (Spares defaultPath) (initial fun _ => true) refusedStart := by
    decide
  exact ⟨_, rfl, rfl, (path_names_owner rfl).1 (by decide) (Or.inl spared)⟩

/-- Both daemons probe before either binds; the second then removes the socket of the first. -/
theorem late_unlink_steals :
    ¬ ∀ (actions : List Action) (last : State),
      run defaultPath (initial fun _ => false) actions = some last → Owned defaultPath last := by
  intro owned
  have taken := owned ([⟨0, .socket true⟩, ⟨1, .socket true⟩, ⟨0, .connect false⟩, ⟨1, .connect false⟩] ++ start 0 ++ start 1) _ rfl
  have same : (0 : Nat) = 1 := taken.single 0 1 (Or.inl rfl) (Or.inl rfl)
  cases same

end Crashomon.Proofs.SocketOwnership
