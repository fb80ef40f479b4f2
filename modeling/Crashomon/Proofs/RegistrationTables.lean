import Crashomon.Proofs.RegistrationSteps

/-! What every process of the registration protocol has open: its phase says it exactly, so no path
through DoInit or RunWatcher leaves a descriptor behind. -/

namespace Crashomon.Proofs.RegistrationTables
open Lib.Config Lib.Connect Lib.Registration RegistrationSteps

/-- The thread still has the end that RunWatcher has given to it. -/
def serverHeld (daemon : Nat) : HandlerPhase → List (Descriptor Object)
  | .failed | .returned => []
  | _ => [owned (.server daemon)]

def daemonHeld (daemon : Nat) (phase : DaemonPhase) (handler : HandlerPhase) : List (Descriptor Object) :=
  let polling := owned (.inotify daemon) :: owned (.shared daemon) :: (serverHeld daemon handler ++ [owned (.listener daemon)])
  match phase with
  | .absent | .gone => []
  | .listening => [owned (.listener daemon)]
  | .paired => [owned (.shared daemon), owned (.server daemon), owned (.listener daemon)]
  | .notifying | .ready => [owned (.inotify daemon), owned (.shared daemon), owned (.server daemon), owned (.listener daemon)]
  | .polling | .closing => polling
  | .accepted sock | .answered sock => owned (.conn sock) :: polling
  | .joining | .stopping => owned (.inotify daemon) :: (serverHeld daemon handler ++ [owned (.listener daemon)])

/-- What DoInit has opened and not closed. -/
def clientHeld : ClientPhase → List (Descriptor Object)
  | .connecting sock _ _ | .waiting sock | .closing sock none => [owned (.sock sock)]
  | .closing sock (some (_, shared)) => [received shared, owned (.sock sock)]
  | .sharing _ shared | .registered _ shared => [received shared]
  | .refused kept => kept.toList.map received
  | .idle | .failed | .gone => []

def expected (state : State) : Process → List (Descriptor Object)
  | .daemon daemon => daemonHeld daemon (state.daemon daemon) (state.handler daemon)
  | .client client => clientHeld (state.client client) ++ state.inherited client

/-- How far the two threads of a daemon can be at one time. -/
def Together : DaemonPhase → HandlerPhase → Prop
  | .absent, handler | .listening, handler | .paired, handler | .notifying, handler | .ready, handler => handler = .absent
  | .stopping, handler => handler = .returned ∨ handler = .failed
  | .gone, handler => handler = .killed
  | _, handler => handler ≠ .absent ∧ handler ≠ .killed

/-- The two parts of a message come from one daemon. -/
def Shares (pid : Nat → Int) (tells : Int) (shared : Object) : Prop := ∃ daemon, tells = pid daemon ∧ shared = .shared daemon

/-- What DoInit has been told is what AcceptAndShareSocket of one daemon has sent. -/
def Told (pid : Nat → Int) : ClientPhase → Prop
  | .closing _ (some (tells, shared)) | .sharing tells shared | .registered tells shared => Shares pid tells shared
  | .refused (some shared) => ∃ daemon, shared = .shared daemon
  | _ => True

variable {cfg : ResolvedConfig} {pid : Nat → Int} {before after : State}

attribute [local simp] State.enterDaemon State.enterHandler State.enterClient State.link State.withTable

theorem expected_enterDaemon (state : State) (daemon : Nat) (phase : DaemonPhase) :
    expected (state.enterDaemon daemon phase) =
      Function.update (expected state) (.daemon daemon) (daemonHeld daemon phase (state.handler daemon)) := by
  funext process
  cases process with
  | daemon number =>
    by_cases same : number = daemon
    · subst same
      simp [expected]
    · simp [expected, same]
  | client number => simp [expected]

theorem expected_enterHandler (state : State) (daemon : Nat) (phase : HandlerPhase) :
    expected (state.enterHandler daemon phase) =
      Function.update (expected state) (.daemon daemon) (daemonHeld daemon (state.daemon daemon) phase) := by
  funext process
  cases process with
  | daemon number =>
    by_cases same : number = daemon
    · subst same
      simp [expected]
    · simp [expected, same]
  | client number => simp [expected]

theorem expected_enterClient (state : State) (client : Nat) (phase : ClientPhase) :
    expected (state.enterClient client phase) =
      Function.update (expected state) (.client client) (clientHeld phase ++ state.inherited client) := by
  funext process
  cases process with
  | daemon number => simp [expected]
  | client number =>
    by_cases same : number = client
    · subst same
      simp [expected]
    · simp [expected, same]

theorem expected_enterImage (state : State) (client : Nat) (phase : ClientPhase) (inherited : List (Descriptor Object)) :
    expected (state.enterImage client phase inherited) =
      Function.update (expected state) (.client client) (clientHeld phase ++ inherited) := by
  funext process
  cases process with
  | daemon number => simp [expected, State.enterImage]
  | client number =>
    by_cases same : number = client
    · subst same
      simp [expected, State.enterImage]
    · simp [expected, State.enterImage, same]

theorem expected_endDaemon (state : State) (daemon : Nat) :
    expected (state.endDaemon daemon) = Function.update (expected state) (.daemon daemon) [] := by
  funext process
  cases process with
  | daemon number =>
    by_cases same : number = daemon
    · subst same
      simp [expected, State.endDaemon, daemonHeld]
    · simp [expected, State.endDaemon, same]
  | client number => simp [expected, State.endDaemon]

/-- Every process has open what its phase says. -/
def Exact (state : State) : Prop := ∀ process, state.table.held process = expected state process

/-- The tables of the processes that a step does not touch stay as expected. -/
theorem Exact.update {process : Process} {held : List (Descriptor Object)} (exact : Exact before)
    (table : after.table.held = Function.update before.table.held process held)
    (expects : expected after = Function.update (expected before) process held) : Exact after := by
  intro other
  rw [table, expects]
  by_cases same : other = process
  · subst same
    rw [Function.update_self, Function.update_self]
  · rw [Function.update_of_ne same, Function.update_of_ne same]
    exact exact other

/-- A step that opens and closes nothing. -/
theorem Exact.unchanged (exact : Exact before) (process : Process) (table : after.table.held = before.table.held)
    (expects : expected after = Function.update (expected before) process (before.table.held process)) : Exact after :=
  exact.update (table.trans (Function.update_eq_self process _).symm) expects

theorem Exact.enterDaemon {state : State} (exact : Exact state) {daemon : Nat} {phase : DaemonPhase}
    {held : List (Descriptor Object)} (own : held = daemonHeld daemon phase (state.handler daemon)) :
    Exact ((state.withTable (state.table.set (.daemon daemon) held)).enterDaemon daemon phase) := by
  refine exact.update rfl ?_
  rw [expected_enterDaemon, own]
  rfl

theorem Exact.passes (exact : Exact before) {daemon : Nat} {phase : DaemonPhase}
    (own : daemonHeld daemon (before.daemon daemon) (before.handler daemon) = daemonHeld daemon phase (before.handler daemon)) :
    Exact (before.enterDaemon daemon phase) := by
  have held : before.table.held (.daemon daemon) = daemonHeld daemon (before.daemon daemon) (before.handler daemon) := exact (.daemon daemon)
  refine exact.unchanged (.daemon daemon) rfl ?_
  rw [expected_enterDaemon, ← own, ← held]

theorem Exact.endDaemon {state : State} (exact : Exact state) (daemon : Nat) : Exact (state.endDaemon daemon) :=
  exact.update rfl (expected_endDaemon state daemon)

theorem daemonStep_exact (exact : Exact before) (together : ∀ daemon, Together (before.daemon daemon) (before.handler daemon))
    {daemon : Nat} {call : DaemonCall} (stepped : daemonStep pid before daemon call = some after) : Exact after := by
  have held := exact (.daemon daemon)
  have threads := together daemon
  cases call <;> cases phase : before.daemon daemon <;> simp only [daemonStep, phase, reduceCtorEq] at stepped
  all_goals simp only [expected, phase, Together] at held threads
  case createListenSocket.absent works =>
    cases works <;> cases stepped
    · exact exact.endDaemon daemon
    · apply exact.enterDaemon
      simp [held, daemonHeld]
  case socketpair.listening works =>
    cases works <;> cases stepped
    · exact exact.endDaemon daemon
    · rw [Descriptors.open_open]
      apply exact.enterDaemon
      simp [held, daemonHeld]
  case inotifyInit.paired works =>
    cases works <;> cases stepped
    · exact exact.endDaemon daemon
    · apply exact.enterDaemon
      simp [held, daemonHeld]
  case inotifyAddWatch.notifying works =>
    cases works <;> cases stepped
    · exact exact.endDaemon daemon
    · apply exact.passes
      simp [phase, daemonHeld]
  case spawn.ready =>
    cases stepped
    refine exact.unchanged (.daemon daemon) rfl ?_
    rw [expected_enterDaemon, expected_enterHandler, Function.update_idem, held]
    simp [daemonHeld, serverHeld]
  case accept.polling connection =>
    cases connection with
    | none =>
      cases stepped
      exact exact
    | some sock =>
      simp only at stepped
      split at stepped <;> cases stepped
      apply exact.enterDaemon
      simp [held, daemonHeld]
  case sendmsg.accepted works sock =>
    have same : daemonHeld daemon (before.daemon daemon) (before.handler daemon) =
        daemonHeld daemon (.answered sock) (before.handler daemon) := by rw [phase]; rfl
    split at stepped
    · split at stepped <;> cases stepped
      exact exact.passes same
    · cases stepped
      exact exact.passes same
  case closeConn.answered sock =>
    cases stepped
    apply exact.enterDaemon
    simp [held, daemonHeld, owned]
  case stop.polling =>
    cases stepped
    apply exact.passes
    rw [phase]
    rfl
  case resetClient.closing =>
    cases stepped
    apply exact.enterDaemon
    simp [held, daemonHeld, owned]
  case joinHandler.joining =>
    split at stepped <;> cases stepped
    apply exact.passes
    rw [phase]
    rfl
  all_goals
    cases stepped
    exact exact.endDaemon daemon

/-- The handler thread ends and its end of the socketpair goes. -/
theorem daemonHeld_server {daemon : Nat} {phase : DaemonPhase} {current ended : HandlerPhase} (threads : Together phase current)
    (busy : current = .started ∨ current = .running) (closed : ended = .failed ∨ ended = .returned) :
    (daemonHeld daemon phase current).eraseP (fun descriptor => descriptor.object = .server daemon) = daemonHeld daemon phase ended := by
  obtain rfl | rfl := busy <;> obtain rfl | rfl := closed <;> cases phase <;> simp_all [Together, daemonHeld, serverHeld, owned]

theorem Exact.closeServer (exact : Exact before) {daemon : Nat} {phase : HandlerPhase}
    (threads : Together (before.daemon daemon) (before.handler daemon))
    (busy : before.handler daemon = .started ∨ before.handler daemon = .running) (closed : phase = .failed ∨ phase = .returned) :
    Exact ((before.withTable (before.table.close (.daemon daemon) (.server daemon))).enterHandler daemon phase) := by
  have held : before.table.held (.daemon daemon) = daemonHeld daemon (before.daemon daemon) (before.handler daemon) := exact (.daemon daemon)
  refine exact.update rfl ?_
  rw [expected_enterHandler, held, daemonHeld_server threads busy closed]
  rfl

theorem handlerStep_exact (exact : Exact before) (together : ∀ daemon, Together (before.daemon daemon) (before.handler daemon))
    {daemon : Nat} {call : HandlerCall} (stepped : handlerStep before daemon call = some after) : Exact after := by
  have threads := together daemon
  cases call <;> cases phase : before.handler daemon <;> simp only [handlerStep, phase, reduceCtorEq] at stepped
  case initializeWithClient.started works =>
    split at stepped <;> cases stepped
    · have held : before.table.held (.daemon daemon) = daemonHeld daemon (before.daemon daemon) .started := phase ▸ exact (.daemon daemon)
      refine exact.unchanged (.daemon daemon) rfl ?_
      rw [expected_enterHandler, held]
      rfl
    · exact exact.closeServer threads (Or.inl phase) (Or.inl rfl)
  case return.running =>
    cases stepped
    exact exact.closeServer threads (Or.inr phase) (Or.inr rfl)

theorem Exact.enterClient {state : State} (exact : Exact state) {client : Nat} {phase : ClientPhase}
    {held : List (Descriptor Object)} (own : held = clientHeld phase ++ state.inherited client) :
    Exact ((state.withTable (state.table.set (.client client) held)).enterClient client phase) := by
  refine exact.update rfl ?_
  rw [expected_enterClient, own]
  rfl

theorem Exact.turns (exact : Exact before) {client : Nat} {phase : ClientPhase}
    (own : clientHeld (before.client client) = clientHeld phase) : Exact (before.enterClient client phase) := by
  have held : before.table.held (.client client) = clientHeld (before.client client) ++ before.inherited client := exact (.client client)
  refine exact.unchanged (.client client) rfl ?_
  rw [expected_enterClient, ← own, ← held]

/-- A message of AcceptAndShareSocket passes the checks where its descriptor fits. -/
theorem receiveSharedSocket_arrived (tells : Int) (shared : Object) (room : Bool) :
    receiveSharedSocket (arrived (shareMessage tells shared) room) = if room then some (tells, shared) else none := by
  cases room <;> rfl

def Messages (pid : Nat → Int) (state : State) : Prop :=
  ∀ sock, ∀ parcel ∈ state.table.inFlight sock, ∃ daemon, parcel = shareMessage (pid daemon) (.shared daemon)

theorem recvStep_exact (exact : Exact before) (messages : Messages pid before) {client sock : Nat} {answer : Answer}
    (phase : before.client client = .waiting sock) (stepped : recvStep before client sock answer = some after) : Exact after := by
  have held : before.table.held (.client client) = owned (.sock sock) :: before.inherited client := by
    rw [exact (.client client), expected, phase]
    rfl
  cases answer with
  | message room =>
    simp only [recvStep] at stepped
    cases queued : before.table.inFlight sock with
    | nil =>
      rw [queued] at stepped
      cases stepped
    | cons parcel rest =>
      obtain ⟨daemon, rfl⟩ := messages sock parcel (queued ▸ List.mem_cons_self)
      rw [queued] at stepped
      simp only [receiveSharedSocket_arrived] at stepped
      cases room <;> cases stepped
      · refine exact.unchanged (.client client) rfl ?_
        rw [expected_enterClient, held]
        rfl
      · have advanced : Exact (before.withTable (before.table.advance sock)) := exact
        apply advanced.enterClient
        simp [held, clientHeld, shareMessage]
  | endOfFile =>
    simp only [recvStep] at stepped
    split at stepped <;> cases stepped
    apply exact.turns
    rw [phase]
    rfl
  | error =>
    cases stepped
    apply exact.turns
    rw [phase]
    rfl

structure Honest (pid : Nat → Int) (state : State) : Prop where
  told : ∀ client, Told pid (state.client client)
  inherited : ∀ client, ∀ descriptor ∈ state.inherited client, ∃ daemon, descriptor = received (.shared daemon)

theorem clientStep_exact (exact : Exact before) (messages : Messages pid before) (honest : Honest pid before) {client : Nat} {call : ClientCall}
    (stepped : clientStep cfg before client call = some after) : Exact after := by
  have held := exact (.client client)
  cases call
  case fork child =>
    simp only [clientStep] at stepped
    split at stepped <;> cases stepped
    refine exact.update rfl ?_
    rw [expected_enterImage, held]
    rfl
  case exec =>
    simp only [clientStep] at stepped
    split at stepped <;> cases stepped
    refine exact.update rfl ?_
    rw [expected_enterImage, clientHeld, List.nil_append, Descriptors.exec, Descriptors.held_set, Function.update_self]
    rfl
  case exit =>
    cases phase : before.client client <;> simp only [clientStep, phase, reduceCtorEq] at stepped
    all_goals
      cases stepped
      refine exact.update rfl ?_
      rw [expected_enterImage]
      rfl
  all_goals
    cases phase : before.client client <;> simp only [clientStep, phase, reduceCtorEq] at stepped
    simp only [expected, phase] at held
  case begin.gone =>
    split at stepped <;> cases stepped
    apply exact.turns
    rw [phase]
    rfl
  case socket.idle works now =>
    split at stepped <;> cases stepped
    · apply exact.enterClient
      rw [held]
      rfl
    · apply exact.turns
      rw [phase]
      rfl
  case connectFails.connecting errno now sock started progress =>
    split at stepped <;> cases stepped
    · apply exact.turns
      rw [phase]
      rfl
    · apply exact.turns
      rw [phase]
      rfl
  case connect.connecting daemon sock started progress =>
    split at stepped <;> cases stepped
    apply exact.turns
    rw [phase]
    rfl
  case recvmsg.waiting answer sock => exact recvStep_exact exact messages phase stepped
  case closeSock.closing sock exchanged =>
    cases stepped
    cases exchanged with
    | none =>
      apply exact.enterClient
      simp [held, clientHeld, owned]
    | some told =>
      have shares := honest.told client
      rw [phase] at shares
      obtain ⟨daemon, _, shared⟩ := shares
      apply exact.enterClient
      simp [held, clientHeld, owned, received, shared]
  case setHandlerSocket.sharing works keeps tells shared =>
    split at stepped <;> cases stepped
    · apply exact.turns
      rw [phase]
      rfl
    · cases keeps with
      | false =>
        apply exact.enterClient
        simp [held, clientHeld, received]
      | true =>
        apply exact.turns
        rw [phase]
        rfl

theorem Honest.enters (honest : Honest pid before) {client : Nat} {phase : ClientPhase}
    (enters : after.client = Function.update before.client client phase) (same : after.inherited = before.inherited)
    (told : Told pid phase) : Honest pid after := by
  refine ⟨fun other => ?_, fun other => same ▸ honest.inherited other⟩
  rw [enters]
  by_cases self : other = client
  · subst self
    rwa [Function.update_self]
  · rw [Function.update_of_ne self]
    exact honest.told other

theorem Honest.begins (honest : Honest pid before) {client : Nat} {phase : ClientPhase} {inherited : List (Descriptor Object)}
    (enters : after.client = Function.update before.client client phase)
    (begins : after.inherited = Function.update before.inherited client inherited) (told : Told pid phase)
    (ends : ∀ descriptor ∈ inherited, ∃ daemon, descriptor = received (.shared daemon)) : Honest pid after := by
  refine ⟨?_, ?_⟩
  · intro other
    rw [enters]
    by_cases self : other = client
    · subst self
      rwa [Function.update_self]
    · rw [Function.update_of_ne self]
      exact honest.told other
  · intro other
    rw [begins]
    by_cases self : other = client
    · subst self
      rwa [Function.update_self]
    · rw [Function.update_of_ne self]
      exact honest.inherited other

/-- Outside DoInit a client has only shared ends open. -/
theorem Honest.ends {state : State} (honest : Honest pid state) (client : Nat) (settled : Settled (state.client client)) :
    ∀ descriptor ∈ expected state (.client client), ∃ daemon, descriptor = received (.shared daemon) := by
  intro descriptor member
  have told := honest.told client
  obtain own | inherited := List.mem_append.mp member
  · cases phase : state.client client with
    | registered tells shared =>
      rw [phase] at own told
      obtain ⟨daemon, _, rfl⟩ := told
      exact ⟨daemon, List.mem_singleton.mp own⟩
    | refused kept =>
      rw [phase] at own told
      cases kept with
      | none => cases own
      | some shared =>
        obtain ⟨daemon, rfl⟩ := told
        exact ⟨daemon, List.mem_singleton.mp own⟩
    | idle | failed =>
      rw [phase] at own
      cases own
    | connecting | waiting | closing | sharing | gone => simp [phase, Settled] at settled
  · exact honest.inherited client descriptor inherited

theorem recvStep_honest (honest : Honest pid before) (messages : Messages pid before) {client sock : Nat} {answer : Answer}
    (stepped : recvStep before client sock answer = some after) : Honest pid after := by
  cases answer <;> simp only [recvStep] at stepped
  case message room =>
    cases queued : before.table.inFlight sock with
    | nil =>
      rw [queued] at stepped
      cases stepped
    | cons parcel rest =>
      obtain ⟨daemon, rfl⟩ := messages sock parcel (queued ▸ List.mem_cons_self)
      rw [queued] at stepped
      simp only [receiveSharedSocket_arrived] at stepped
      cases stepped
      refine honest.enters rfl rfl ?_
      cases room with
      | false => trivial
      | true => exact ⟨daemon, rfl, rfl⟩
  case endOfFile =>
    split at stepped <;> cases stepped
    exact honest.enters rfl rfl trivial
  case error =>
    cases stepped
    exact honest.enters rfl rfl trivial

theorem clientStep_honest (exact : Exact before) (honest : Honest pid before) (messages : Messages pid before) {client : Nat}
    {call : ClientCall} (stepped : clientStep cfg before client call = some after) : Honest pid after := by
  have told := honest.told client
  cases call
  case fork child =>
    simp only [clientStep] at stepped
    split at stepped <;> cases stepped
    exact honest.begins rfl rfl told (honest.inherited client)
  case exec =>
    simp only [clientStep] at stepped
    split at stepped <;> cases stepped
    refine honest.begins rfl rfl trivial fun descriptor member => ?_
    have open' : descriptor ∈ before.table.held (.client client) := by
      rw [Descriptors.exec, Descriptors.held_set, Function.update_self] at member
      exact List.mem_of_mem_filter member
    exact honest.ends client ‹_› descriptor (exact (.client client) ▸ open')
  all_goals
    cases phase : before.client client <;> simp only [clientStep, phase, reduceCtorEq] at stepped
    simp only [phase] at told
  case recvmsg.waiting answer sock => exact recvStep_honest honest messages stepped
  case closeSock.closing sock exchanged =>
    cases stepped
    cases exchanged with
    | none => exact honest.enters rfl rfl trivial
    | some exchange => exact honest.enters rfl rfl told
  case setHandlerSocket.sharing works keeps tells shared =>
    obtain ⟨daemon, _, same⟩ := id told
    split at stepped <;> cases stepped
    · exact honest.enters rfl rfl told
    · cases keeps with
      | false => exact honest.enters rfl rfl trivial
      | true => exact honest.enters rfl rfl ⟨daemon, same⟩
  case exit.idle | exit.connecting | exit.waiting | exit.closing | exit.sharing | exit.registered | exit.failed | exit.refused =>
    cases stepped
    exact honest.begins rfl rfl trivial fun _ member => absurd member List.not_mem_nil
  all_goals split at stepped <;> cases stepped <;> exact honest.enters rfl rfl trivial

theorem daemonStep_together (together : ∀ daemon, Together (before.daemon daemon) (before.handler daemon)) {daemon : Nat}
    {call : DaemonCall} (stepped : daemonStep pid before daemon call = some after) (other : Nat) :
    Together (after.daemon other) (after.handler other) := by
  have frame := daemonStep_frame stepped
  by_cases apart : other = daemon
  · subst apart
    have threads := together other
    cases call <;> cases phase : before.daemon other <;> simp only [daemonStep, phase, reduceCtorEq] at stepped
    all_goals simp only [phase, Together] at threads
    case accept.polling connection =>
      cases connection with
      | none =>
        cases stepped
        rw [phase]
        exact threads
      | some sock =>
        simp only at stepped
        split at stepped <;> cases stepped
        simpa [Together] using threads
    case sendmsg.accepted works sock =>
      split at stepped
      · split at stepped <;> cases stepped
        simpa [Together] using threads
      · cases stepped
        simpa [Together] using threads
    case joinHandler.joining =>
      split at stepped <;> cases stepped
      simpa [Together]
    case createListenSocket.absent works | socketpair.listening works | inotifyInit.paired works | inotifyAddWatch.notifying works =>
      cases works <;> cases stepped
      · simp [Together, State.endDaemon]
      · simpa [Together] using threads
    all_goals
      cases stepped
      simp_all [Together, State.endDaemon]
  · rw [frame.others other apart, frame.handlers other apart]
    exact together other

theorem handlerStep_together (together : ∀ daemon, Together (before.daemon daemon) (before.handler daemon)) {daemon : Nat}
    {call : HandlerCall} (stepped : handlerStep before daemon call = some after) (other : Nat) :
    Together (after.daemon other) (after.handler other) := by
  have frame := handlerStep_frame stepped
  rw [frame.daemons]
  by_cases apart : other = daemon
  · subst apart
    have threads := together other
    cases call <;> cases phase : before.handler other <;> simp only [handlerStep, phase, reduceCtorEq] at stepped
    case initializeWithClient.started works =>
      split at stepped <;> cases stepped <;> cases main : before.daemon other <;> simp_all [Together]
    case return.running =>
      cases stepped
      cases main : before.daemon other <;> simp_all [Together]
  · rw [frame.others other apart]
    exact together other

structure Sound (pid : Nat → Int) (state : State) : Prop where
  exact : Exact state
  messages : Messages pid state
  honest : Honest pid state
  together : ∀ daemon, Together (state.daemon daemon) (state.handler daemon)
  listed : Listed state

theorem initial_sound : Sound pid initial where
  exact process := by cases process <;> rfl
  messages _ _ member := absurd member List.not_mem_nil
  honest := ⟨fun _ => trivial, fun _ _ member => absurd member List.not_mem_nil⟩
  together _ := rfl
  listed := ⟨fun _ _ => rfl, fun _ there => absurd rfl there, fun _ there => absurd rfl there⟩

theorem step_sound {action : Action} (sound : Sound pid before) (stepped : step cfg pid before action = some after) :
    Sound pid after := by
  cases action with
  | daemon number call =>
    have frame := daemonStep_frame stepped
    refine ⟨daemonStep_exact sound.exact sound.together stepped, ?_, ⟨?_, ?_⟩, daemonStep_together sound.together stepped,
      daemonStep_listed sound.listed stepped⟩
    · intro sock parcel member
      obtain old | ⟨_, _, rfl⟩ := daemonStep_inFlight stepped member
      · exact sound.messages sock parcel old
      · exact ⟨number, rfl⟩
    · exact frame.client ▸ sound.honest.told
    · exact frame.inherited ▸ sound.honest.inherited
  | handler number call =>
    have frame := handlerStep_frame stepped
    refine ⟨handlerStep_exact sound.exact sound.together stepped, ?_, ⟨?_, ?_⟩, handlerStep_together sound.together stepped,
      ⟨?_, ?_, ?_⟩⟩
    · intro sock parcel member
      exact sound.messages sock parcel (frame.inFlight ▸ member)
    · exact frame.client ▸ sound.honest.told
    · exact frame.inherited ▸ sound.honest.inherited
    · rw [frame.inherited, frame.processes]
      exact sound.listed.empty
    · rw [frame.daemons, frame.processes]
      exact sound.listed.daemons
    · rw [frame.client, frame.processes]
      exact sound.listed.clients
  | client number call =>
    have daemons := clientStep_daemons stepped
    refine ⟨clientStep_exact sound.exact sound.messages sound.honest stepped, ?_,
      clientStep_honest sound.exact sound.honest sound.messages stepped, ?_, clientStep_listed sound.listed stepped⟩
    · intro sock parcel member
      exact sound.messages sock parcel (clientStep_inFlight stepped member)
    · rw [daemons.1, daemons.2]
      exact sound.together

theorem run_sound {actions : List Action} {last : State} (ran : run cfg pid initial actions = some last) : Sound pid last :=
  Transition.run_invariant step_sound initial_sound ran

def startDaemon (daemon : Nat) : List Action :=
  [.daemon daemon (.createListenSocket true), .daemon daemon (.socketpair true), .daemon daemon (.inotifyInit true),
    .daemon daemon (.inotifyAddWatch true), .daemon daemon .spawn, .handler daemon (.initializeWithClient true)]

def connectClient (client daemon : Nat) : List Action :=
  [.client client .begin, .client client (.socket true ⟨10, 0⟩), .client client (.connectFails enoent ⟨10, 0⟩),
    .client client (.connect daemon)]

def answer (daemon sock : Nat) : List Action := [.daemon daemon (.accept sock), .daemon daemon (.sendmsg true), .daemon daemon .closeConn]

def finishClient (client : Nat) (room : Bool) : List Action :=
  [.client client (.recvmsg (.message room)), .client client .closeSock]

def defaults : ResolvedConfig := ⟨kDefaultDbPath, kDefaultSocketPath, kDefaultConnectTimeoutSec⟩

end Crashomon.Proofs.RegistrationTables
