import Crashomon.Proofs.RegistrationTables

/-! Which daemon answers which connection, and until when: a client whose connection is taken in is told the
pid and the shared end of one daemon; a connection that is still in the queue when the event loop has ended
gets no answer while the daemon lives. -/

namespace Crashomon.Proofs.RegistrationAnswers
open Lib.Config Lib.Connect Lib.Registration RegistrationSteps RegistrationTables

variable {cfg : ResolvedConfig} {pid : Nat → Int} {before after : State}

structure Linked (state : State) : Prop where
  own : ∀ client sock, ownSock (state.client client) = some sock → sock < state.sockets
  distinct : ∀ first second sock, ownSock (state.client first) = some sock → ownSock (state.client second) = some sock → first = second
  connecting : ∀ client sock started progress, state.client client = .connecting sock started progress → state.connection sock = .fresh
  serving : ∀ daemon sock, state.daemon daemon = .accepted sock ∨ state.daemon daemon = .answered sock →
    state.connection sock = .accepted daemon
  known : ∀ sock, state.connection sock ≠ .fresh → sock < state.sockets
  unanswered : ∀ sock daemon, state.connection sock = .fresh ∨ state.connection sock = .queued daemon → state.table.inFlight sock = []

theorem initial_linked : Linked initial where
  own client sock owns := by simp [initial, ownSock] at owns
  distinct first second sock owns := by simp [initial, ownSock] at owns
  connecting client sock started progress at' := by simp [initial] at at'
  serving daemon sock serves := by simp [initial] at serves
  known sock linked := by simp [initial] at linked
  unanswered _ _ _ := rfl

theorem hangUp_fresh {daemon : Nat} {connection : Connection} : hangUp daemon connection = .fresh ↔ connection = .fresh := by
  unfold hangUp
  split
  next linked => rcases linked with rfl | rfl <;> simp
  next => rfl

theorem hangUp_queued {daemon other : Nat} {connection : Connection} (queued : hangUp daemon connection = .queued other) :
    connection = .queued other := by
  unfold hangUp at queued
  split at queued
  · cases queued
  · exact queued

theorem hangUp_accepted {daemon other : Nat} (apart : other ≠ daemon) : hangUp daemon (.accepted other) = .accepted other := by
  simp [hangUp, apart]

theorem Linked.daemonStep (linked : Linked before) {daemon : Nat} {call : DaemonCall}
    (stepped : daemonStep pid before daemon call = some after) : Linked after := by
  have frame := daemonStep_frame stepped
  have connection := daemonStep_connection stepped
  refine ⟨?_, ?_, ?_, ?_, ?_, ?_⟩
  · rw [frame.client, frame.sockets]
    exact linked.own
  · rw [frame.client]
    exact linked.distinct
  · intro client sock started progress at'
    rw [frame.client] at at'
    have fresh := linked.connecting client sock started progress at'
    obtain same | ⟨queued, _⟩ | ⟨answered, _⟩ | ⟨same, _⟩ := connection sock
    · rw [same, fresh]
    · rw [fresh] at queued
      cases queued
    · have accepted := linked.serving daemon sock (Or.inr answered)
      rw [fresh] at accepted
      cases accepted
    · rw [same, fresh]
      rfl
  · intro other sock serves
    by_cases apart : other = daemon
    · subst apart
      obtain ⟨same, accepted⟩ | accepted | rfl := daemonStep_serving stepped serves
      · rw [same]
        exact linked.serving other sock (Or.inl accepted)
      · exact accepted
      · exact linked.serving other sock serves
    · rw [frame.others other apart] at serves
      have accepted := linked.serving other sock serves
      obtain same | ⟨queued, _⟩ | ⟨answered, _⟩ | ⟨same, _⟩ := connection sock
      · rw [same, accepted]
      · rw [accepted] at queued
        cases queued
      · have own := linked.serving daemon sock (Or.inr answered)
        rw [accepted] at own
        exact absurd (by simpa using own) apart
      · rw [same, accepted, hangUp_accepted apart]
  · intro sock used
    rw [frame.sockets]
    apply linked.known sock
    intro fresh
    obtain same | ⟨queued, _⟩ | ⟨answered, _⟩ | ⟨same, _⟩ := connection sock
    · exact used (same.trans fresh)
    · rw [fresh] at queued
      cases queued
    · have accepted := linked.serving daemon sock (Or.inr answered)
      rw [fresh] at accepted
      cases accepted
    · rw [fresh] at same
      exact used same
  · intro sock other waits
    have waited : before.connection sock = .fresh ∨ before.connection sock = .queued other := by
      obtain same | ⟨_, accepted, _⟩ | ⟨_, closed⟩ | ⟨same, _⟩ := connection sock
      · rwa [same] at waits
      · simp [accepted] at waits
      · simp [closed] at waits
      · rw [same] at waits
        obtain fresh | queued := waits
        · exact Or.inl (hangUp_fresh.mp fresh)
        · exact Or.inr (hangUp_queued queued)
    apply List.eq_nil_iff_forall_not_mem.mpr
    intro parcel member
    obtain old | ⟨accepted, _⟩ := daemonStep_inFlight stepped member
    · rw [linked.unanswered sock other waited] at old
      cases old
    · have serves := linked.serving daemon sock (Or.inl accepted)
      simp [serves] at waited

theorem ownSock_settled {phase : ClientPhase} (settled : Settled phase) : ownSock phase = none := by
  cases phase <;> simp_all [Settled, ownSock]

theorem Linked.clientStep (linked : Linked before) {client : Nat} {call : ClientCall}
    (stepped : clientStep cfg before client call = some after) : Linked after := by
  have frame := clientStep_frame stepped
  have daemons := clientStep_daemons stepped
  have owns : ∀ other sock, other ≠ client → ownSock (after.client other) = some sock → ownSock (before.client other) = some sock := by
    intro other sock apart own
    obtain same | ⟨settled, _⟩ := frame.others other apart
    · rwa [same] at own
    · rw [ownSock_settled settled] at own
      cases own
  refine ⟨?_, ?_, ?_, ?_, ?_, ?_⟩
  · intro other sock own
    by_cases self : other = client
    · subst self
      obtain old | ⟨rfl, more⟩ := frame.own sock own
      · exact Nat.lt_of_lt_of_le (linked.own other sock old) frame.sockets
      · exact more
    · exact Nat.lt_of_lt_of_le (linked.own other sock (owns other sock self own)) frame.sockets
  · have fresh : ∀ other sock, other ≠ client → ownSock (after.client client) = some sock → ownSock (after.client other) = some sock → False := by
      intro other sock apart mine theirs
      have theirs := owns other sock apart theirs
      obtain old | ⟨rfl, _⟩ := frame.own sock mine
      · exact apart (linked.distinct other client sock theirs old)
      · exact Nat.lt_irrefl _ (linked.own other _ theirs)
    intro first second sock one two
    by_cases left : first = client
    · by_cases right : second = client
      · exact left.trans right.symm
      · exact (fresh second sock right (left ▸ one) two).elim
    · by_cases right : second = client
      · exact (fresh first sock left (right ▸ two) one).elim
      · exact linked.distinct first second sock (owns first sock left one) (owns second sock right two)
  · intro other sock started progress at'
    have own : ownSock (after.client other) = some sock := by rw [at']; rfl
    have was : before.connection sock = .fresh := by
      by_cases self : other = client
      · subst self
        obtain ⟨earlier, connecting⟩ | rfl := frame.connecting sock started progress at'
        · exact linked.connecting other sock started earlier connecting
        · by_contra used
          exact Nat.lt_irrefl _ (linked.known _ used)
      · obtain same | ⟨settled, _⟩ := frame.others other self
        · exact linked.connecting other sock started progress (same ▸ at')
        · rw [ownSock_settled settled] at own
          cases own
    obtain same | ⟨daemon, begun, tries, connecting, _, waiting⟩ := frame.connection sock
    · rw [same, was]
    · by_cases self : other = client
      · rw [self, waiting] at at'
        cases at'
      · have theirs := owns other sock self own
        exact absurd (linked.distinct other client sock theirs (by rw [connecting]; rfl)) self
  · rw [daemons.1]
    intro daemon sock serves
    have accepted := linked.serving daemon sock serves
    obtain same | ⟨_, started, progress, connecting, _⟩ := frame.connection sock
    · rw [same, accepted]
    · have fresh := linked.connecting client sock started progress connecting
      rw [accepted] at fresh
      cases fresh
  · intro sock used
    obtain same | ⟨_, started, progress, connecting, _⟩ := frame.connection sock
    · rw [same] at used
      exact Nat.lt_of_lt_of_le (linked.known sock used) frame.sockets
    · exact Nat.lt_of_lt_of_le (linked.own client sock (by rw [connecting]; rfl)) frame.sockets
  · intro sock daemon waits
    have empty : before.table.inFlight sock = [] := by
      obtain same | ⟨_, started, progress, connecting, _⟩ := frame.connection sock
      · exact linked.unanswered sock daemon (same ▸ waits)
      · exact linked.unanswered sock daemon (Or.inl (linked.connecting client sock started progress connecting))
    apply List.eq_nil_iff_forall_not_mem.mpr
    intro parcel member
    have old := clientStep_inFlight stepped member
    rw [empty] at old
    cases old

theorem step_linked {action : Action} (linked : Linked before) (stepped : step cfg pid before action = some after) : Linked after := by
  cases action with
  | daemon number call => exact linked.daemonStep stepped
  | client number call => exact linked.clientStep stepped
  | handler number call =>
    have frame := handlerStep_frame stepped
    refine ⟨?_, ?_, ?_, ?_, ?_, ?_⟩
    all_goals simp only [frame.client, frame.sockets, frame.connection, frame.daemons, frame.inFlight]
    · exact linked.own
    · exact linked.distinct
    · exact linked.connecting
    · exact linked.serving
    · exact linked.known
    · exact linked.unanswered

theorem run_linked {actions : List Action} {last : State} (ran : run cfg pid initial actions = some last) : Linked last :=
  Transition.run_invariant step_linked initial_linked ran

/-- RunEventLoop has returned and the process goes on. -/
def PastLoop : DaemonPhase → Prop
  | .closing | .joining | .stopping => True
  | _ => False

/-- The client has connected and no accept4 has taken the connection. -/
structure Queued (state : State) (client sock daemon : Nat) : Prop where
  waiting : state.client client = .waiting sock
  queued : state.connection sock = .queued daemon

/-- The daemon does not end, and the client is neither interrupted nor killed. -/
def Lasts (client daemon : Nat) (_ : State) : Action → Prop
  | .daemon number .exit => number ≠ daemon
  | .client number (.recvmsg .error) | .client number .exit => number ≠ client
  | _ => True

theorem daemonStep_past {daemon : Nat} {call : DaemonCall} (past : PastLoop (before.daemon daemon))
    (stepped : daemonStep pid before daemon call = some after) : call = .exit ∨ PastLoop (after.daemon daemon) := by
  cases call <;> cases phase : before.daemon daemon <;> simp only [daemonStep, phase, reduceCtorEq] at stepped
  all_goals simp only [phase, PastLoop] at past
  case joinHandler.joining =>
    right
    split at stepped <;> cases stepped
    simp [State.enterDaemon, PastLoop]
  case resetClient.closing =>
    right
    cases stepped
    simp [State.enterDaemon, PastLoop]
  all_goals exact Or.inl rfl

structure Unanswered (pid : Nat → Int) (client sock daemon : Nat) (state : State) : Prop where
  sound : Sound pid state
  linked : Linked state
  waits : Queued state client sock daemon
  past : PastLoop (state.daemon daemon)

theorem step_unanswered {client sock daemon : Nat} {action : Action} (holds : Unanswered pid client sock daemon before)
    (lasts : Lasts client daemon before action) (stepped : step cfg pid before action = some after) :
    Unanswered pid client sock daemon after := by
  obtain ⟨sound, linked, ⟨waiting, queued⟩, past⟩ := holds
  suffices kept : Queued after client sock daemon ∧ PastLoop (after.daemon daemon) from
    ⟨step_sound sound stepped, step_linked linked stepped, kept.1, kept.2⟩
  cases action with
  | daemon number call =>
    have frame := daemonStep_frame stepped
    have stays : PastLoop (after.daemon daemon) := by
      by_cases self : number = daemon
      · subst self
        obtain rfl | past := daemonStep_past past stepped
        · exact absurd rfl lasts
        · exact past
      · rwa [frame.others daemon (Ne.symm self)]
    refine ⟨⟨frame.client ▸ waiting, ?_⟩, stays⟩
    obtain same | ⟨taken, _, accepted⟩ | ⟨answered, _⟩ | ⟨same, gone⟩ := daemonStep_connection stepped sock
    · rw [same, queued]
    · rw [queued] at taken
      cases taken
      simp [accepted, PastLoop] at stays
    · have accepted := linked.serving number sock (Or.inr answered)
      rw [queued] at accepted
      cases accepted
    · have apart : daemon ≠ number := by
        rintro rfl
        simp [gone, PastLoop] at stays
      rw [same, queued]
      simp [hangUp, apart]
  | handler number call =>
    have frame := handlerStep_frame stepped
    exact ⟨⟨frame.client ▸ waiting, frame.connection ▸ queued⟩, frame.daemons ▸ past⟩
  | client number call =>
    have frame := clientStep_frame stepped
    refine ⟨?_, (clientStep_daemons stepped).1 ▸ past⟩
    by_cases self : number = client
    · subst self
      -- Of the calls that are possible in recvmsg, only the two that are excluded return.
      have empty := linked.unanswered sock daemon (Or.inr queued)
      simp only [step] at stepped
      cases call <;> simp only [clientStep, waiting, reduceCtorEq] at stepped
      case recvmsg answer =>
        cases answer with
        | message room => simp [recvStep, empty] at stepped
        | endOfFile => simp [recvStep, queued] at stepped
        | error => exact absurd rfl lasts
      case fork child => simp [Settled] at stepped
      case exec => simp [Settled] at stepped
      case exit => exact absurd rfl lasts
    · refine ⟨?_, ?_⟩
      · obtain same | ⟨_, free, _⟩ := frame.others client (Ne.symm self)
        · rw [same, waiting]
        · exact absurd (sound.listed.clients client (by simp [waiting])) free
      · obtain same | ⟨_, started, progress, connecting, _⟩ := frame.connection sock
        · rw [same, queued]
        · have fresh := linked.connecting number sock started progress connecting
          rw [queued] at fresh
          cases fresh

/-- Nobody answers a connection that is still queued when RunEventLoop returns: as long as the daemon lives, which
may be until the last registered process ends, recvmsg does not return to the client by itself. -/
theorem unanswered_past_loop {client sock daemon : Nat} {earlier later : List Action} {middle last : State}
    (reached : run cfg pid initial earlier = some middle) (waits : Queued middle client sock daemon)
    (past : PastLoop (middle.daemon daemon)) (lasts : Transition.Throughout (step cfg pid) (Lasts client daemon) middle later)
    (ran : run cfg pid middle later = some last) : Queued last client sock daemon ∧ last.table.inFlight sock = [] := by
  have start : Unanswered pid client sock daemon middle := ⟨run_sound reached, run_linked reached, waits, past⟩
  obtain ⟨_, linked, still, _⟩ := Transition.run_keeps step_unanswered start lasts ran
  exact ⟨still, linked.unanswered sock daemon (Or.inr still.queued)⟩

/-- A client registers, the daemon is told to stop, and a second client connects. -/
def lateClient : List Action :=
  startDaemon 0 ++ connectClient 0 0 ++ answer 0 0 ++ finishClient 0 true ++ [.client 0 (.setHandlerSocket true true)] ++
    [.daemon 0 .stop, .daemon 0 .resetClient] ++ connectClient 1 0

/-- The first client goes on as another program, which hands the descriptor down. -/
def handedDown : List Action := [.client 0 .exec, .client 0 (.fork 2), .client 0 .exit]

theorem late_client_waits :
    ∃ middle last, run defaults (fun _ => 500) initial lateClient = some middle ∧
      run defaults (fun _ => 500) middle handedDown = some last ∧ Queued last 1 1 0 ∧ last.table.inFlight 1 = [] := by
  obtain ⟨middle, last, reached, ran, waits, past⟩ :
      ∃ middle last, run defaults (fun _ => 500) initial lateClient = some middle ∧
        run defaults (fun _ => 500) middle handedDown = some last ∧ Queued middle 1 1 0 ∧ PastLoop (middle.daemon 0) :=
    ⟨_, _, rfl, rfl, ⟨rfl, rfl⟩, trivial⟩
  refine ⟨middle, last, reached, ran, unanswered_past_loop reached waits past ?_ ran⟩
  simp [handedDown, Transition.Throughout, Lasts]

end Crashomon.Proofs.RegistrationAnswers
