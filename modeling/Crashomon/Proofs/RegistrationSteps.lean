import Crashomon.Lib.Registration

/-! What one step of the registration protocol can change: the phases, the messages in flight and the
references to an object. -/

namespace Crashomon.Proofs.RegistrationSteps
open Lib.Config Lib.Registration

variable {cfg : ResolvedConfig} {pid : Nat → Int} {before after : State}

attribute [local simp] State.enterDaemon State.enterHandler State.enterClient State.enterImage State.link State.withTable State.endDaemon

/-- A step of a daemon leaves the clients and the other daemons where they are. -/
structure DaemonFrame (before : State) (daemon : Nat) (after : State) : Prop where
  others : ∀ other, other ≠ daemon → after.daemon other = before.daemon other
  handlers : ∀ other, other ≠ daemon → after.handler other = before.handler other
  client : after.client = before.client
  inherited : after.inherited = before.inherited
  sockets : after.sockets = before.sockets

theorem daemonStep_frame {daemon : Nat} {call : DaemonCall} (stepped : daemonStep pid before daemon call = some after) :
    DaemonFrame before daemon after := by
  cases call <;> cases phase : before.daemon daemon <;> simp only [daemonStep, phase, reduceCtorEq] at stepped
  case accept.polling connection =>
    cases connection with
    | none =>
      cases stepped
      exact ⟨fun _ _ => rfl, fun _ _ => rfl, rfl, rfl, rfl⟩
    | some sock =>
      simp only at stepped
      split at stepped <;> cases stepped
      exact ⟨fun _ apart => by simp [apart], fun _ _ => rfl, rfl, rfl, rfl⟩
  case sendmsg.accepted works sock =>
    split at stepped
    · split at stepped <;> cases stepped
      exact ⟨fun _ apart => by simp [apart], fun _ _ => rfl, rfl, rfl, rfl⟩
    · cases stepped
      exact ⟨fun _ apart => by simp [apart], fun _ _ => rfl, rfl, rfl, rfl⟩
  case joinHandler.joining =>
    split at stepped <;> cases stepped
    exact ⟨fun _ apart => by simp [apart], fun _ _ => rfl, rfl, rfl, rfl⟩
  case createListenSocket.absent works | socketpair.listening works | inotifyInit.paired works | inotifyAddWatch.notifying works =>
    cases works <;> cases stepped <;> exact ⟨fun _ apart => by simp [apart], fun _ apart => by simp [apart], rfl, rfl, rfl⟩
  all_goals
    cases stepped
    exact ⟨fun _ apart => by simp [apart], fun _ apart => by simp [apart], rfl, rfl, rfl⟩

structure HandlerFrame (before : State) (daemon : Nat) (after : State) : Prop where
  daemons : after.daemon = before.daemon
  others : ∀ other, other ≠ daemon → after.handler other = before.handler other
  client : after.client = before.client
  inherited : after.inherited = before.inherited
  sockets : after.sockets = before.sockets
  processes : after.processes = before.processes
  connection : after.connection = before.connection
  inFlight : after.table.inFlight = before.table.inFlight

theorem handlerStep_frame {daemon : Nat} {call : HandlerCall} (stepped : handlerStep before daemon call = some after) :
    HandlerFrame before daemon after := by
  cases call <;> cases phase : before.handler daemon <;> simp only [handlerStep, phase, reduceCtorEq] at stepped
  case initializeWithClient.started works =>
    split at stepped <;> cases stepped <;> exact ⟨rfl, fun _ apart => by simp [apart], rfl, rfl, rfl, rfl, rfl, rfl⟩
  case return.running =>
    cases stepped
    exact ⟨rfl, fun _ apart => by simp [apart], rfl, rfl, rfl, rfl, rfl, rfl⟩

theorem recvStep_frame {client sock : Nat} {answer : Answer} (stepped : recvStep before client sock answer = some after) :
    after.daemon = before.daemon ∧ after.handler = before.handler := by
  cases answer <;> simp only [recvStep] at stepped
  case error =>
    cases stepped
    exact ⟨rfl, rfl⟩
  all_goals
    split at stepped <;> cases stepped
    exact ⟨rfl, rfl⟩

/-- A step of a client leaves the daemons where they are. -/
theorem clientStep_daemons {client : Nat} {call : ClientCall} (stepped : clientStep cfg before client call = some after) :
    after.daemon = before.daemon ∧ after.handler = before.handler := by
  cases call <;> cases phase : before.client client <;> simp only [clientStep, phase, reduceCtorEq] at stepped
  case recvmsg.waiting answer sock => exact recvStep_frame stepped
  all_goals first
    | (cases stepped; exact ⟨rfl, rfl⟩)
    | (split at stepped <;> cases stepped <;> exact ⟨rfl, rfl⟩)

theorem recvStep_inFlight {client sock other : Nat} {answer : Answer} {parcel : Parcel Header Object}
    (stepped : recvStep before client sock answer = some after) (member : parcel ∈ after.table.inFlight other) :
    parcel ∈ before.table.inFlight other := by
  cases answer <;> simp only [recvStep] at stepped
  case message room =>
    split at stepped <;> cases stepped
    by_cases same : other = sock
    · subst same
      apply List.mem_of_mem_tail
      cases room <;> simpa [Descriptors.advance, Descriptors.open] using member
    · cases room <;> simpa [Descriptors.advance, Descriptors.open, same] using member
  case endOfFile =>
    split at stepped <;> cases stepped
    exact member
  case error =>
    cases stepped
    exact member

/-- Closing a socket takes messages away and adds none. -/
theorem mem_discard {table : Descriptors Process Nat Header Object} {sock other : Nat} {parcel : Parcel Header Object}
    (member : parcel ∈ (table.discard sock).inFlight other) : parcel ∈ table.inFlight other := by
  by_cases same : other = sock
  · simp [Descriptors.discard, same] at member
  · simpa [Descriptors.discard, same] using member

theorem clientStep_inFlight {client sock : Nat} {call : ClientCall} {parcel : Parcel Header Object}
    (stepped : clientStep cfg before client call = some after) (member : parcel ∈ after.table.inFlight sock) :
    parcel ∈ before.table.inFlight sock := by
  cases call <;> cases phase : before.client client <;> simp only [clientStep, phase, reduceCtorEq] at stepped
  case recvmsg.waiting answer other => exact recvStep_inFlight stepped member
  case closeSock.closing =>
    cases stepped
    exact mem_discard member
  case exit.connecting | exit.waiting | exit.closing =>
    cases stepped
    exact mem_discard member
  case setHandlerSocket.sharing works keeps _ _ =>
    split at stepped <;> cases stepped
    · exact member
    · cases keeps <;> exact member
  all_goals first
    | (cases stepped; exact member)
    | (split at stepped <;> cases stepped <;> exact member)

theorem daemonStep_inFlight {daemon sock : Nat} {call : DaemonCall} {parcel : Parcel Header Object}
    (stepped : daemonStep pid before daemon call = some after) (member : parcel ∈ after.table.inFlight sock) :
    parcel ∈ before.table.inFlight sock ∨
      before.daemon daemon = .accepted sock ∧ before.Open (.sock sock) ∧ parcel = shareMessage (pid daemon) (.shared daemon) := by
  cases call <;> cases phase : before.daemon daemon <;> simp only [daemonStep, phase, reduceCtorEq] at stepped
  case sendmsg.accepted works other =>
    split at stepped
    · split at stepped <;> cases stepped
      by_cases same : sock = other
      · subst same
        have queued : parcel ∈ before.table.inFlight sock ++ [shareMessage (pid daemon) (.shared daemon)] := by
          simpa [Descriptors.send] using member
        obtain old | new := List.mem_append.mp queued
        · exact Or.inl old
        · exact Or.inr ⟨rfl, ‹_›, List.mem_singleton.mp new⟩
      · left
        simpa [Descriptors.send, same] using member
    · cases stepped
      exact Or.inl member
  case accept.polling connection =>
    left
    cases connection with
    | none =>
      cases stepped
      exact member
    | some other =>
      simp only at stepped
      split at stepped <;> cases stepped
      exact member
  case joinHandler.joining =>
    split at stepped <;> cases stepped
    exact Or.inl member
  case createListenSocket.absent works | socketpair.listening works | inotifyInit.paired works | inotifyAddWatch.notifying works =>
    cases works <;> cases stepped <;> exact Or.inl member
  all_goals
    cases stepped
    exact Or.inl member

/-- What a daemon does to the connections. -/
theorem daemonStep_connection {daemon : Nat} {call : DaemonCall} (stepped : daemonStep pid before daemon call = some after) (sock : Nat) :
    after.connection sock = before.connection sock ∨
      (before.connection sock = .queued daemon ∧ after.connection sock = .accepted daemon ∧ after.daemon daemon = .accepted sock) ∨
      (before.daemon daemon = .answered sock ∧ after.connection sock = .hungUp) ∨
      after.connection sock = hangUp daemon (before.connection sock) ∧ after.daemon daemon = .gone := by
  cases call <;> cases phase : before.daemon daemon <;> simp only [daemonStep, phase, reduceCtorEq] at stepped
  case accept.polling connection =>
    cases connection with
    | none =>
      cases stepped
      exact Or.inl rfl
    | some other =>
      simp only at stepped
      split at stepped <;> cases stepped
      by_cases same : sock = other
      · subst same
        right
        left
        simpa
      · left
        simp [same]
  case sendmsg.accepted works other =>
    left
    split at stepped
    · split at stepped <;> cases stepped
      rfl
    · cases stepped
      rfl
  case closeConn.answered other =>
    cases stepped
    by_cases same : sock = other
    · subst same
      right
      right
      left
      simp
    · left
      simp [same]
  case joinHandler.joining =>
    split at stepped <;> cases stepped
    exact Or.inl rfl
  case createListenSocket.absent works | socketpair.listening works | inotifyInit.paired works | inotifyAddWatch.notifying works =>
    cases works <;> cases stepped
    · right
      right
      right
      simp
    · exact Or.inl rfl
  case spawn.ready | stop.polling | resetClient.closing =>
    cases stepped
    exact Or.inl rfl
  all_goals
    cases stepped
    right
    right
    right
    simp

/-- Which connection a daemon serves after its step. -/
theorem daemonStep_serving {daemon sock : Nat} {call : DaemonCall} (stepped : daemonStep pid before daemon call = some after)
    (serving : after.daemon daemon = .accepted sock ∨ after.daemon daemon = .answered sock) :
    after.connection = before.connection ∧ before.daemon daemon = .accepted sock ∨ after.connection sock = .accepted daemon ∨
      after = before := by
  cases call <;> cases phase : before.daemon daemon <;> simp only [daemonStep, phase, reduceCtorEq] at stepped
  case accept.polling connection =>
    cases connection with
    | none =>
      cases stepped
      exact Or.inr (Or.inr rfl)
    | some other =>
      simp only at stepped
      split at stepped <;> cases stepped
      have same : other = sock := by simpa using serving
      subst same
      right
      left
      simp
  case sendmsg.accepted works other =>
    left
    split at stepped
    · split at stepped <;> cases stepped
      have same : other = sock := by simpa using serving
      exact ⟨rfl, by rw [same]⟩
    · cases stepped
      have same : other = sock := by simpa using serving
      exact ⟨rfl, by rw [same]⟩
  case joinHandler.joining =>
    split at stepped <;> cases stepped
    simp at serving
  case createListenSocket.absent works | socketpair.listening works | inotifyInit.paired works | inotifyAddWatch.notifying works =>
    cases works <;> cases stepped <;> simp at serving
  all_goals
    cases stepped
    simp at serving

/-- What a client does to the sockets, the connections and the process table. -/
structure ClientFrame (before : State) (client : Nat) (after : State) : Prop where
  others : ∀ other, other ≠ client → after.client other = before.client other ∨
    Settled (after.client other) ∧ .client other ∉ before.processes ∧ .client other ∈ after.processes
  sockets : before.sockets ≤ after.sockets
  own : ∀ sock, ownSock (after.client client) = some sock →
    ownSock (before.client client) = some sock ∨ sock = before.sockets ∧ before.sockets < after.sockets
  connecting : ∀ sock started progress, after.client client = .connecting sock started progress →
    (∃ earlier, before.client client = .connecting sock started earlier) ∨ sock = before.sockets
  connection : ∀ sock, after.connection sock = before.connection sock ∨
    ∃ daemon started progress, before.client client = .connecting sock started progress ∧ after.connection sock = .queued daemon ∧
      after.client client = .waiting sock
  processes : before.processes ⊆ after.processes
  there : before.client client ≠ .gone ∨ .client client ∈ after.processes
  inherited : ∀ other, after.inherited other = before.inherited other ∨ other = client ∧ before.client client ≠ .gone ∨
    .client other ∈ after.processes

/-- A step that opens no socket and connects none. -/
theorem ClientFrame.enters {client : Nat} {phase : ClientPhase} (enters : after.client = Function.update before.client client phase)
    (sockets : after.sockets = before.sockets) (connection : after.connection = before.connection)
    (processes : before.processes ⊆ after.processes) (there : before.client client ≠ .gone ∨ .client client ∈ after.processes)
    (own : ∀ sock, ownSock phase = some sock → ownSock (before.client client) = some sock)
    (connecting : ∀ sock started progress, phase = .connecting sock started progress →
      ∃ earlier, before.client client = .connecting sock started earlier)
    (inherited : ∀ other, other ≠ client ∨ before.client client = .gone → after.inherited other = before.inherited other) :
    ClientFrame before client after where
  others other apart := Or.inl (by simp [enters, apart])
  sockets := sockets.ge
  own sock owns := Or.inl (own sock (by simpa [enters] using owns))
  connecting sock started progress at' := Or.inl (connecting sock started progress (by simpa [enters] using at'))
  connection sock := Or.inl (congrFun connection sock)
  processes := processes
  there := there
  inherited other := by
    by_cases kept : other ≠ client ∨ before.client client = .gone
    · exact Or.inl (inherited other kept)
    · right
      left
      simpa using kept

theorem recvStep_client {client sock : Nat} {answer : Answer} (phase : before.client client = .waiting sock)
    (stepped : recvStep before client sock answer = some after) : ClientFrame before client after := by
  have alive : before.client client ≠ .gone := by simp [phase]
  cases answer <;> simp only [recvStep] at stepped
  case error =>
    cases stepped
    exact .enters rfl rfl rfl (List.Subset.refl _) (Or.inl alive) (by simp [ownSock, phase]) (by simp) fun _ _ => rfl
  all_goals
    split at stepped <;> cases stepped
    exact .enters rfl rfl rfl (List.Subset.refl _) (Or.inl alive) (by simp [ownSock, phase]) (by simp) fun _ _ => rfl

/-- A process that forks is not inside DoInit, and its copy is not either. -/
theorem ClientFrame.copies {client child : Nat} (settled : Settled (before.client client)) (free : .client child ∉ before.processes)
    (enters : after.client = Function.update before.client child (before.client client)) (sockets : after.sockets = before.sockets)
    (connection : after.connection = before.connection) (processes : after.processes = .client child :: before.processes)
    (inherited : ∀ other, other ≠ child → after.inherited other = before.inherited other) : ClientFrame before client after := by
  have same : after.client client = before.client client := by
    by_cases self : client = child
    · rw [enters, ← self, Function.update_self]
    · rw [enters, Function.update_of_ne self]
  refine ⟨?_, sockets.ge, ?_, ?_, fun sock => Or.inl (congrFun connection sock), ?_, ?_, ?_⟩
  · intro other _
    by_cases self : other = child
    · subst self
      right
      rw [enters, Function.update_self, processes]
      exact ⟨settled, free, List.mem_cons_self⟩
    · left
      rw [enters, Function.update_of_ne self]
  · intro sock owns
    exact Or.inl (same ▸ owns)
  · intro sock started progress connecting
    exact Or.inl ⟨progress, same ▸ connecting⟩
  · rw [processes]
    exact List.subset_cons_self _ _
  · left
    intro gone
    simp [gone, Settled] at settled
  · intro other
    by_cases self : other = child
    · right
      right
      rw [processes, self]
      exact List.mem_cons_self
    · exact Or.inl (inherited other self)

theorem clientStep_frame {client : Nat} {call : ClientCall} (stepped : clientStep cfg before client call = some after) :
    ClientFrame before client after := by
  cases call
  case fork child =>
    simp only [clientStep] at stepped
    split at stepped <;> cases stepped
    next free => exact .copies free.1 free.2 rfl rfl rfl rfl fun _ apart => by simp [apart]
  case exec =>
    simp only [clientStep] at stepped
    split at stepped <;> cases stepped
    next settled =>
      have alive : before.client client ≠ .gone := fun gone => by simp [gone, Settled] at settled
      exact .enters rfl rfl rfl (List.Subset.refl _) (Or.inl alive) (by simp [ownSock]) (by simp)
        fun _ kept => by simp [kept.resolve_right alive]
  all_goals cases phase : before.client client <;> simp only [clientStep, phase, reduceCtorEq] at stepped
  case recvmsg.waiting answer sock => exact recvStep_client phase stepped
  case begin.gone =>
    split at stepped <;> cases stepped
    exact .enters rfl rfl rfl (List.subset_cons_self _ _) (Or.inr List.mem_cons_self) (by simp [ownSock]) (by simp) fun _ _ => rfl
  all_goals have alive : before.client client ≠ .gone := by simp [phase]
  case socket.idle works now =>
    split at stepped <;> cases stepped
    · refine ⟨?_, Nat.le_succ _, ?_, ?_, fun _ => Or.inl rfl, List.Subset.refl _, Or.inl alive, fun _ => Or.inl rfl⟩
      · intro other apart
        left
        simp [apart]
      · intro sock owns
        right
        simpa [ownSock, eq_comm] using owns
      · intro sock started progress connecting
        right
        simp_all
    · exact .enters rfl rfl rfl (List.Subset.refl _) (Or.inl alive) (by simp [ownSock]) (by simp) fun _ _ => rfl
  case connect.connecting daemon sock started progress =>
    split at stepped <;> cases stepped
    refine ⟨?_, Nat.le_refl _, ?_, ?_, ?_, List.Subset.refl _, Or.inl alive, fun _ => Or.inl rfl⟩
    · intro other apart
      left
      simp [apart]
    · intro other owns
      left
      simpa [ownSock, phase] using owns
    · intro other begun tries connecting
      simp at connecting
    · intro other
      by_cases same : other = sock
      · right
        subst same
        exact ⟨daemon, started, progress, phase, by simp, by simp⟩
      · left
        simp [same]
  case connectFails.connecting errno now sock started progress =>
    split at stepped <;> cases stepped
    · exact .enters rfl rfl rfl (List.Subset.refl _) (Or.inl alive) (by simp [ownSock, phase]) (by simp [phase]) fun _ _ => rfl
    · exact .enters rfl rfl rfl (List.Subset.refl _) (Or.inl alive) (by simp [ownSock, phase]) (by simp) fun _ _ => rfl
  case closeSock.closing sock exchanged =>
    cases stepped
    refine .enters rfl rfl rfl (List.Subset.refl _) (Or.inl alive) ?_ ?_ fun _ _ => rfl <;> cases exchanged <;> simp [ownSock]
  case setHandlerSocket.sharing works keeps _ _ =>
    split at stepped <;> cases stepped <;>
      exact .enters rfl rfl rfl (List.Subset.refl _) (Or.inl alive) (by simp [ownSock]) (by simp) fun _ _ => rfl
  all_goals
    cases stepped
    exact .enters rfl rfl rfl (List.Subset.refl _) (Or.inl alive) (by simp [ownSock]) (by simp)
      fun _ kept => by simp [kept.resolve_right alive]

/-- Who is there is in the process table. -/
structure Listed (state : State) : Prop where
  empty : ∀ client, .client client ∉ state.processes → state.inherited client = []
  daemons : ∀ daemon, state.daemon daemon ≠ .absent → .daemon daemon ∈ state.processes
  clients : ∀ client, state.client client ≠ .gone → .client client ∈ state.processes

theorem daemonStep_listed (listed : Listed before) {daemon : Nat} {call : DaemonCall}
    (stepped : daemonStep pid before daemon call = some after) : Listed after := by
  have frame := daemonStep_frame stepped
  have grows : before.processes ⊆ after.processes ∧ .daemon daemon ∈ after.processes := by
    have present := listed.daemons daemon
    cases call <;> cases phase : before.daemon daemon <;> simp only [daemonStep, phase, reduceCtorEq] at stepped
    all_goals simp only [phase, ne_eq, reduceCtorEq, not_false_eq_true, forall_const, not_true_eq_false, false_implies] at present
    case accept.polling connection =>
      cases connection with
      | none =>
        cases stepped
        exact ⟨List.Subset.refl _, present⟩
      | some sock =>
        simp only at stepped
        split at stepped <;> cases stepped
        exact ⟨List.Subset.refl _, present⟩
    case sendmsg.accepted works sock =>
      split at stepped
      · split at stepped <;> cases stepped
        exact ⟨List.Subset.refl _, present⟩
      · cases stepped
        exact ⟨List.Subset.refl _, present⟩
    case joinHandler.joining =>
      split at stepped <;> cases stepped
      exact ⟨List.Subset.refl _, present⟩
    case createListenSocket.absent works =>
      cases works <;> cases stepped <;> exact ⟨List.subset_cons_self _ _, List.mem_cons_self⟩
    case socketpair.listening works | inotifyInit.paired works | inotifyAddWatch.notifying works =>
      cases works <;> cases stepped <;> exact ⟨List.Subset.refl _, present⟩
    all_goals
      cases stepped
      exact ⟨List.Subset.refl _, present⟩
  refine ⟨?_, ?_, ?_⟩
  · intro client unlisted
    rw [frame.inherited]
    exact listed.empty client fun there => unlisted (grows.1 there)
  · intro other there
    by_cases apart : other = daemon
    · exact apart ▸ grows.2
    · exact grows.1 (listed.daemons other (frame.others other apart ▸ there))
  · intro client there
    exact grows.1 (listed.clients client (frame.client ▸ there))

theorem clientStep_listed (listed : Listed before) {client : Nat} {call : ClientCall}
    (stepped : clientStep cfg before client call = some after) : Listed after := by
  have frame := clientStep_frame stepped
  refine ⟨?_, ?_, ?_⟩
  · intro other unlisted
    obtain same | ⟨rfl, alive⟩ | there := frame.inherited other
    · rw [same]
      exact listed.empty other fun there => unlisted (frame.processes there)
    · exact absurd (frame.processes (listed.clients other alive)) unlisted
    · exact absurd there unlisted
  · intro daemon present
    exact frame.processes (listed.daemons daemon ((clientStep_daemons stepped).1 ▸ present))
  · intro other present
    by_cases self : other = client
    · subst self
      obtain alive | there := frame.there
      · exact frame.processes (listed.clients other alive)
      · exact there
    · obtain same | ⟨_, _, there⟩ := frame.others other self
      · exact frame.processes (listed.clients other (same ▸ present))
      · exact there

section Shared
variable {number : Nat}

/-- Only socketpair makes a shared end; what is sent is open with the sender. -/
theorem daemonStep_shared {daemon : Nat} {call : DaemonCall}
    (sender : ∀ sock, before.daemon daemon = .accepted sock → before.table.Referenced (.shared daemon))
    (stepped : daemonStep pid before daemon call = some after) (referenced : after.table.Referenced (.shared number)) :
    before.table.Referenced (.shared number) ∨ number = daemon ∧ before.daemon daemon = .listening := by
  cases call <;> cases phase : before.daemon daemon <;> simp only [daemonStep, phase, reduceCtorEq] at stepped
  case createListenSocket.absent works | inotifyInit.paired works =>
    left
    cases works <;> cases stepped
    · exact referenced.of_exit
    · exact referenced.of_open.resolve_left (by simp [owned])
  case socketpair.listening works =>
    cases works <;> cases stepped
    · exact Or.inl referenced.of_exit
    · obtain same | rest := referenced.of_open
      · right
        simpa [owned, eq_comm] using same
      · exact Or.inl (rest.of_open.resolve_left (by simp [owned]))
  case inotifyAddWatch.notifying works =>
    left
    cases works <;> cases stepped
    · exact referenced.of_exit
    · exact referenced
  case accept.polling connection =>
    left
    cases connection with
    | none =>
      cases stepped
      exact referenced
    | some sock =>
      simp only at stepped
      split at stepped <;> cases stepped
      exact referenced.of_open.resolve_left (by simp [owned])
  case sendmsg.accepted works sock =>
    left
    split at stepped
    · split at stepped <;> cases stepped
      exact referenced.of_send (sender sock phase)
    · cases stepped
      exact referenced
  case closeConn.answered | resetClient.closing =>
    cases stepped
    exact Or.inl referenced.of_close
  case joinHandler.joining =>
    split at stepped <;> cases stepped
    exact Or.inl referenced
  case spawn.ready | stop.polling =>
    cases stepped
    exact Or.inl referenced
  all_goals
    cases stepped
    exact Or.inl referenced.of_exit

theorem handlerStep_shared {daemon : Nat} {call : HandlerCall} (stepped : handlerStep before daemon call = some after)
    (referenced : after.table.Referenced (.shared number)) : before.table.Referenced (.shared number) := by
  cases call <;> cases phase : before.handler daemon <;> simp only [handlerStep, phase, reduceCtorEq] at stepped
  case initializeWithClient.started works =>
    split at stepped <;> cases stepped
    · exact referenced
    · exact referenced.of_close
  case return.running =>
    cases stepped
    exact referenced.of_close

theorem recvStep_shared {client sock : Nat} {answer : Answer} (stepped : recvStep before client sock answer = some after)
    (referenced : after.table.Referenced (.shared number)) : before.table.Referenced (.shared number) := by
  cases answer <;> simp only [recvStep] at stepped
  case message room =>
    cases queued : before.table.inFlight sock with
    | nil =>
      rw [queued] at stepped
      cases stepped
    | cons parcel rest =>
      rw [queued] at stepped
      cases stepped
      cases room with
      | false => exact referenced.of_advance
      | true => exact referenced.of_receive (queued ▸ List.mem_cons_self)
  case endOfFile =>
    split at stepped <;> cases stepped
    exact referenced
  case error =>
    cases stepped
    exact referenced

/-- A client gets a shared end from a message or from another client. -/
theorem clientStep_shared {client : Nat} {call : ClientCall} (stepped : clientStep cfg before client call = some after)
    (referenced : after.table.Referenced (.shared number)) : before.table.Referenced (.shared number) := by
  cases call <;> cases phase : before.client client <;> simp only [clientStep, phase, reduceCtorEq] at stepped
  case recvmsg.waiting answer sock => exact recvStep_shared stepped referenced
  case socket.idle works now =>
    split at stepped <;> cases stepped
    · exact referenced.of_open.resolve_left (by simp [owned])
    · exact referenced
  case closeSock.closing =>
    cases stepped
    exact referenced.of_discard.of_close
  case setHandlerSocket.sharing works keeps _ _ =>
    split at stepped <;> cases stepped
    · exact referenced
    · cases keeps with
      | false => exact referenced.of_close
      | true => exact referenced
  case exit.connecting | exit.waiting | exit.closing =>
    cases stepped
    exact referenced.of_exit.of_discard
  case exit.idle | exit.sharing | exit.registered | exit.failed | exit.refused =>
    cases stepped
    exact referenced.of_exit
  case begin.gone | connectFails.connecting | connect.connecting =>
    split at stepped <;> cases stepped <;> exact referenced
  all_goals
    split at stepped <;> cases stepped
    first | exact referenced.of_fork | exact referenced.of_exec

end Shared
end Crashomon.Proofs.RegistrationSteps
