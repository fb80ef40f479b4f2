import Crashomon.Proofs.RegistrationAnswers

/-! Where the shared ends are that no process has yet: each message in flight is the one answer to a connection, and its
client still has the other side. With the tables of the processes this accounts for every descriptor. -/

namespace Crashomon.Proofs.RegistrationMessages
open Lib.Config Lib.Connect Lib.Registration RegistrationSteps RegistrationTables RegistrationAnswers

variable {cfg : ResolvedConfig} {pid : Nat → Int} {before after : State}

/-- The connection carries one answer, of a daemon that has accepted it, and the client has not closed its side. -/
structure Answer (pid : Nat → Int) (state : State) (sock : Nat) : Prop where
  message : ∃ daemon, state.table.inFlight sock = [shareMessage (pid daemon) (.shared daemon)]
  accepted : (∃ daemon, state.connection sock = .accepted daemon) ∨ state.connection sock = .hungUp
  client : ∃ client, ownSock (state.client client) = some sock

structure InTransit (pid : Nat → Int) (state : State) : Prop where
  answers : ∀ sock, state.table.inFlight sock = [] ∨ Answer pid state sock
  /-- Behind accept4 nothing has been sent. -/
  before : ∀ daemon sock, state.daemon daemon = .accepted sock → state.table.inFlight sock = []

theorem daemonHeld_sock (daemon : Nat) (phase : DaemonPhase) (handler : HandlerPhase) (sock : Nat) :
    ∀ descriptor ∈ daemonHeld daemon phase handler, descriptor.object ≠ .sock sock := by
  cases phase <;> cases handler <;> simp [daemonHeld, serverHeld, owned]

/-- A client that holds a side of a connection is in DoInit with it. -/
theorem ownSock_of_held {phase : ClientPhase} {sock : Nat} (told : Told pid phase) {descriptor : Descriptor Object}
    (member : descriptor ∈ clientHeld phase) (same : descriptor.object = .sock sock) : ownSock phase = some sock := by
  cases phase with
  | connecting other started progress | waiting other =>
    rw [List.mem_singleton.mp member] at same
    cases same
    rfl
  | closing other exchanged =>
    cases exchanged with
    | none =>
      rw [List.mem_singleton.mp member] at same
      cases same
      rfl
    | some exchange =>
      obtain ⟨daemon, _, shared⟩ := told
      rcases List.mem_pair.mp member with rfl | rfl
      · rw [received, shared] at same
        cases same
      · cases same
        rfl
  | sharing tells shared | registered tells shared =>
    obtain ⟨daemon, _, rfl⟩ := told
    rw [List.mem_singleton.mp member] at same
    cases same
  | refused kept =>
    cases kept with
    | none => cases member
    | some shared =>
      obtain ⟨daemon, rfl⟩ := told
      rw [List.mem_singleton.mp member] at same
      cases same
  | idle | failed | gone => cases member

/-- The client's side of a connection is open in the process that is in DoInit with it, and nowhere else. -/
theorem owner_of_open {sock : Nat} (sound : Sound pid before) (there : before.Open (.sock sock)) :
    ∃ client, ownSock (before.client client) = some sock := by
  obtain ⟨process, _, descriptor, member, same⟩ | ⟨connection, _, parcel, member, same⟩ := there
  · rw [sound.exact process] at member
    cases process with
    | daemon number => exact absurd same (daemonHeld_sock number _ _ sock descriptor member)
    | client number =>
      obtain own | inherited := List.mem_append.mp member
      · exact ⟨number, ownSock_of_held (sound.honest.told number) own same⟩
      · obtain ⟨daemon, rfl⟩ := sound.honest.inherited number descriptor inherited
        cases same
  · obtain ⟨daemon, rfl⟩ := sound.messages connection parcel member
    cases same

attribute [local simp] State.enterDaemon State.enterClient State.link State.withTable State.endDaemon

/-- A daemon puts a message only into the connection it has accepted, and goes on. -/
theorem daemonStep_sends {daemon sock : Nat} {call : DaemonCall} (stepped : daemonStep pid before daemon call = some after) :
    after.table.inFlight sock = before.table.inFlight sock ∨
      before.daemon daemon = .accepted sock ∧ after.daemon daemon = .answered sock ∧ before.Open (.sock sock) ∧
        after.connection = before.connection ∧
        after.table.inFlight sock = before.table.inFlight sock ++ [shareMessage (pid daemon) (.shared daemon)] := by
  cases call <;> cases phase : before.daemon daemon <;> simp only [daemonStep, phase, reduceCtorEq] at stepped
  case sendmsg.accepted works other =>
    split at stepped
    · split at stepped <;> cases stepped
      by_cases same : sock = other
      · subst same
        exact Or.inr ⟨rfl, by simp, ‹_›, rfl, by simp [Descriptors.send]⟩
      · left
        simp [Descriptors.send, same]
    · cases stepped
      exact Or.inl rfl
  case accept.polling connection =>
    left
    cases connection with
    | none =>
      cases stepped
      rfl
    | some other =>
      simp only at stepped
      split at stepped <;> cases stepped
      rfl
  case joinHandler.joining =>
    split at stepped <;> cases stepped
    exact Or.inl rfl
  case createListenSocket.absent works | socketpair.listening works | inotifyInit.paired works | inotifyAddWatch.notifying works =>
    cases works <;> cases stepped <;> exact Or.inl rfl
  all_goals
    cases stepped
    exact Or.inl rfl

/-- After accept4 the connection is the one that was taken from the queue, or nothing has changed. -/
theorem daemonStep_accepts {daemon sock : Nat} {call : DaemonCall} (stepped : daemonStep pid before daemon call = some after)
    (serving : after.daemon daemon = .accepted sock) : before.connection sock = .queued daemon ∨ after = before := by
  cases call <;> cases phase : before.daemon daemon <;> simp only [daemonStep, phase, reduceCtorEq] at stepped
  case accept.polling connection =>
    cases connection with
    | none =>
      cases stepped
      exact Or.inr rfl
    | some other =>
      simp only at stepped
      split at stepped <;> cases stepped
      next queued =>
        have same : other = sock := by simpa using serving
        exact Or.inl (same ▸ queued)
  case sendmsg.accepted works other =>
    split at stepped
    · split at stepped <;> cases stepped
      simp at serving
    · cases stepped
      simp at serving
  case joinHandler.joining =>
    split at stepped <;> cases stepped
    simp at serving
  case createListenSocket.absent works | socketpair.listening works | inotifyInit.paired works | inotifyAddWatch.notifying works =>
    cases works <;> cases stepped <;> simp at serving
  all_goals
    cases stepped
    simp at serving

/-- A client takes messages away. What is left in its own connection when it is done with it goes with that. -/
theorem clientStep_takes {client sock : Nat} {call : ClientCall} (stepped : clientStep cfg before client call = some after) :
    (after.table.inFlight sock = before.table.inFlight sock ∨ after.table.inFlight sock = (before.table.inFlight sock).tail ∨
      after.table.inFlight sock = []) ∧
      (ownSock (before.client client) = some sock → ownSock (after.client client) = some sock ∨ after.table.inFlight sock = []) := by
  cases call
  case fork child =>
    simp only [clientStep] at stepped
    split at stepped <;> cases stepped
    next settled => exact ⟨Or.inl rfl, fun own => by simp [ownSock_settled settled.1] at own⟩
  case exec =>
    simp only [clientStep] at stepped
    split at stepped <;> cases stepped
    next settled => exact ⟨Or.inl rfl, fun own => by simp [ownSock_settled settled] at own⟩
  all_goals cases phase : before.client client <;> simp only [clientStep, phase, reduceCtorEq] at stepped
  case recvmsg.waiting answer other =>
    cases answer <;> simp only [recvStep] at stepped
    case message room =>
      split at stepped <;> cases stepped
      refine ⟨?_, fun own => Or.inl (by simpa [ownSock] using own)⟩
      by_cases same : sock = other
      · subst same
        right
        left
        cases room <;> simp [Descriptors.advance, Descriptors.open]
      · left
        cases room <;> simp [Descriptors.advance, Descriptors.open, same]
    case endOfFile =>
      split at stepped <;> cases stepped
      exact ⟨Or.inl rfl, fun own => Or.inl (by simpa [ownSock] using own)⟩
    case error =>
      cases stepped
      exact ⟨Or.inl rfl, fun own => Or.inl (by simpa [ownSock] using own)⟩
  case closeSock.closing other exchanged =>
    cases stepped
    by_cases same : sock = other
    · subst same
      have emptied : ((before.table.close (.client client) (.sock sock)).discard sock).inFlight sock = [] := by
        simp [Descriptors.discard]
      exact ⟨Or.inr (Or.inr emptied), fun _ => Or.inr emptied⟩
    · refine ⟨Or.inl (by simp [Descriptors.discard, Descriptors.close, same]), fun own => ?_⟩
      exact absurd (Option.some.inj own).symm same
  case exit.connecting other _ _ | exit.waiting other | exit.closing other _ =>
    cases stepped
    by_cases same : sock = other
    · subst same
      have emptied : ((before.table.discard sock).exit (.client client)).inFlight sock = [] := by
        simp [Descriptors.discard, Descriptors.exit]
      exact ⟨Or.inr (Or.inr emptied), fun _ => Or.inr emptied⟩
    · refine ⟨Or.inl (by simp [Descriptors.discard, Descriptors.exit, State.dropSock, State.enterImage, ownSock, same]), fun own => ?_⟩
      exact absurd (Option.some.inj own).symm same
  case exit.idle | exit.sharing | exit.registered | exit.failed | exit.refused =>
    cases stepped
    exact ⟨Or.inl rfl, fun own => absurd own (by simp [ownSock])⟩
  case begin.gone =>
    split at stepped <;> cases stepped
    exact ⟨Or.inl rfl, fun own => absurd own (by simp [ownSock])⟩
  case socket.idle works now =>
    split at stepped <;> cases stepped <;> exact ⟨Or.inl rfl, fun own => absurd own (by simp [ownSock])⟩
  case connectFails.connecting =>
    split at stepped <;> cases stepped <;> exact ⟨Or.inl rfl, fun own => Or.inl (by simpa [ownSock] using own)⟩
  case connect.connecting =>
    split at stepped <;> cases stepped
    exact ⟨Or.inl rfl, fun own => Or.inl (by simpa [ownSock] using own)⟩
  case setHandlerSocket.sharing works keeps _ _ =>
    split at stepped <;> cases stepped
    · exact ⟨Or.inl rfl, fun own => absurd own (by simp [ownSock])⟩
    · cases keeps <;> exact ⟨Or.inl rfl, fun own => absurd own (by simp [ownSock])⟩

theorem Answer.daemonStep {daemon sock : Nat} {call : DaemonCall} (linked : Linked before) (answer : Answer pid before sock)
    (stepped : daemonStep pid before daemon call = some after) (same : after.table.inFlight sock = before.table.inFlight sock) :
    Answer pid after sock := by
  refine ⟨same ▸ answer.message, ?_, (daemonStep_frame stepped).client ▸ answer.client⟩
  obtain kept | ⟨queued, _⟩ | ⟨_, closed⟩ | ⟨hung, _⟩ := daemonStep_connection stepped sock
  · exact kept ▸ answer.accepted
  · obtain ⟨other, message⟩ := answer.message
    rw [linked.unanswered sock daemon (Or.inr queued)] at message
    cases message
  · exact Or.inr closed
  · rw [hung]
    obtain ⟨other, accepted⟩ | already := answer.accepted
    · rw [accepted]
      by_cases own : other = daemon
      · exact Or.inr (by simp [hangUp, own])
      · exact Or.inl ⟨other, hangUp_accepted own⟩
    · rw [already]
      exact Or.inr (by simp [hangUp])

theorem InTransit.daemonStep (transit : InTransit pid before) (sound : Sound pid before) (linked : Linked before) {daemon : Nat}
    {call : DaemonCall} (stepped : daemonStep pid before daemon call = some after) : InTransit pid after := by
  have frame := daemonStep_frame stepped
  constructor
  · intro sock
    obtain same | ⟨accepted, _, there, connections, sent⟩ := @daemonStep_sends pid before after daemon sock call stepped
    · obtain empty | answer := transit.answers sock
      · exact Or.inl (same.trans empty)
      · exact Or.inr (answer.daemonStep linked stepped same)
    · rw [transit.before daemon sock accepted, List.nil_append] at sent
      refine Or.inr ⟨⟨daemon, sent⟩, Or.inl ⟨daemon, ?_⟩, ?_⟩
      · rw [connections]
        exact linked.serving daemon sock (Or.inl accepted)
      · rw [frame.client]
        exact owner_of_open sound there
  · intro other sock serving
    by_cases self : other = daemon
    · subst self
      obtain queued | rfl := daemonStep_accepts stepped serving
      · obtain same | ⟨accepted, answered, _⟩ := @daemonStep_sends pid before after other sock call stepped
        · rw [same]
          exact linked.unanswered sock other (Or.inr queued)
        · rw [answered] at serving
          cases serving
      · exact transit.before other sock serving
    · rw [frame.others other self] at serving
      obtain same | ⟨accepted, _⟩ := @daemonStep_sends pid before after daemon sock call stepped
      · rw [same]
        exact transit.before other sock serving
      · have first := linked.serving other sock (Or.inl serving)
        have second := linked.serving daemon sock (Or.inl accepted)
        rw [first] at second
        cases second
        exact absurd rfl self

theorem InTransit.clientStep (transit : InTransit pid before) (sound : Sound pid before) (linked : Linked before) {client : Nat}
    {call : ClientCall} (stepped : clientStep cfg before client call = some after) : InTransit pid after := by
  have frame := clientStep_frame stepped
  have emptied {sock : Nat} (empty : before.table.inFlight sock = []) : after.table.inFlight sock = [] := by
    obtain same | tail | none := (@clientStep_takes cfg before after client sock call stepped).1
    · exact same.trans empty
    · rw [tail, empty]
      rfl
    · exact none
  constructor
  · intro sock
    obtain empty | ⟨⟨daemon, message⟩, accepted, owner, own⟩ := transit.answers sock
    · exact Or.inl (emptied empty)
    obtain ⟨takes, keeps⟩ := @clientStep_takes cfg before after client sock call stepped
    by_cases left : after.table.inFlight sock = []
    · exact Or.inl left
    have same : after.table.inFlight sock = [shareMessage (pid daemon) (.shared daemon)] := by
      obtain same | tail | none := takes
      · exact same.trans message
      · exact absurd (tail.trans (by rw [message]; rfl)) left
      · exact absurd none left
    refine Or.inr ⟨⟨daemon, same⟩, ?_, owner, ?_⟩
    · obtain kept | ⟨_, started, progress, connecting, _⟩ := frame.connection sock
      · exact kept ▸ accepted
      · rw [linked.unanswered sock daemon (Or.inl (linked.connecting client sock started progress connecting))] at message
        cases message
    · by_cases self : owner = client
      · subst self
        exact (keeps own).resolve_right left
      · obtain kept | ⟨_, free, _⟩ := frame.others owner self
        · rw [kept]
          exact own
        · exact absurd (sound.listed.clients owner fun gone => by simp [gone, ownSock] at own) free
  · intro daemon sock serving
    rw [(clientStep_daemons stepped).1] at serving
    exact emptied (transit.before daemon sock serving)

structure Settling (pid : Nat → Int) (state : State) : Prop where
  sound : Sound pid state
  linked : Linked state
  transit : InTransit pid state

theorem step_settling {action : Action} (settling : Settling pid before) (stepped : step cfg pid before action = some after) :
    Settling pid after := by
  obtain ⟨sound, linked, transit⟩ := settling
  refine ⟨step_sound sound stepped, step_linked linked stepped, ?_⟩
  cases action with
  | daemon number call => exact transit.daemonStep sound linked stepped
  | client number call => exact transit.clientStep sound linked stepped
  | handler number call =>
    have frame := handlerStep_frame stepped
    refine ⟨fun sock => ?_, fun daemon sock serving => ?_⟩
    · obtain empty | ⟨message, accepted, own⟩ := transit.answers sock
      · exact Or.inl (frame.inFlight ▸ empty)
      · exact Or.inr ⟨frame.inFlight ▸ message, frame.connection ▸ accepted, frame.client ▸ own⟩
    · rw [frame.inFlight]
      exact transit.before daemon sock (frame.daemons ▸ serving)

theorem initial_settling : Settling pid initial :=
  ⟨initial_sound, initial_linked, fun _ => Or.inl rfl, nofun⟩

/-- Every descriptor is accounted for by the place its process has reached, every shared end that no process has yet by a
message. -/
structure Accounted (pid : Nat → Int) (state : State) : Prop where
  clients : ∀ client, state.table.held (.client client) = clientHeld (state.client client) ++ state.inherited client
  daemons : ∀ daemon, state.table.held (.daemon daemon) = daemonHeld daemon (state.daemon daemon) (state.handler daemon)
  /-- What an image of a client begins with are shared ends. -/
  inherited : ∀ client, ∀ descriptor ∈ state.inherited client, ∃ daemon, descriptor = received (.shared daemon)
  messages : ∀ sock, state.table.inFlight sock = [] ∨ Answer pid state sock

/-- Whatever fails and whoever is killed, a DoInit that has returned -1 has left nothing open, one that has returned 0
exactly the shared end, and a daemon between two clients has what it had before them. -/
theorem descriptors_accounted {actions : List Action} {last : State} (ran : run cfg pid initial actions = some last) :
    Accounted pid last := by
  obtain ⟨sound, _, transit⟩ := Transition.run_invariant step_settling initial_settling ran
  exact ⟨fun client => sound.exact (.client client), fun daemon => sound.exact (.daemon daemon), sound.honest.inherited,
    transit.answers⟩

/-- The first client registers; the answer to the second one is on its way. -/
def twoClients : List Action :=
  startDaemon 0 ++ connectClient 0 0 ++ connectClient 1 0 ++ answer 0 0 ++ answer 0 1 ++ finishClient 0 true ++
    [.client 0 (.setHandlerSocket true true)]

theorem two_clients_accounted :
    ∃ last, run defaults (fun _ => 500) initial twoClients = some last ∧ last.client 0 = .registered 500 (.shared 0) ∧
      last.table.inFlight 1 = [shareMessage 500 (.shared 0)] ∧ Accounted (fun _ => 500) last := by
  have ran : run defaults (fun _ => 500) initial twoClients = some _ := rfl
  exact ⟨_, ran, rfl, rfl, descriptors_accounted ran⟩

end Crashomon.Proofs.RegistrationMessages
