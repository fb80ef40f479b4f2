import Crashomon.Proofs.RegistrationAnswers

/-! Who has the shared end of a daemon. Once no process and no message has it, none ever has again. Crashpad's
ExceptionHandlerServer::Run may return at any time here; that it waits for the last client is a named assumption. -/

namespace Crashomon.Proofs.HandlerLifetime
open Lib.Config Lib.Connect Lib.Registration RegistrationSteps RegistrationTables RegistrationAnswers

variable {cfg : ResolvedConfig} {pid : Nat → Int} {before after : State}

/-- The kernel counts the references of the processes and sockets that there are. -/
theorem open_of_referenced {state : State} {object : Object} (sound : Sound pid state) (linked : Linked state)
    (referenced : state.table.Referenced object) : state.Open object := by
  obtain ⟨process, holds⟩ | ⟨sock, carries⟩ := referenced
  · refine Or.inl ⟨process, ?_, holds⟩
    obtain ⟨descriptor, member, _⟩ := holds
    rw [sound.exact process] at member
    cases process with
    | daemon number =>
      apply sound.listed.daemons
      intro absent
      simp [expected, absent, daemonHeld] at member
    | client number =>
      by_contra unlisted
      have gone : state.client number = .gone := by
        by_contra there
        exact unlisted (sound.listed.clients number there)
      simp [expected, gone, clientHeld, sound.listed.empty number unlisted] at member
  · refine Or.inr ⟨sock, ?_, carries⟩
    obtain ⟨parcel, member, _⟩ := carries
    apply linked.known
    intro fresh
    rw [linked.unanswered sock 0 (Or.inl fresh)] at member
    cases member

/-- While it serves a client, the daemon has its own copy. -/
theorem sender_holds {state : State} (sound : Sound pid state) {daemon sock : Nat} (serving : state.daemon daemon = .accepted sock) :
    state.table.Referenced (.shared daemon) := by
  refine Or.inl ⟨.daemon daemon, owned (.shared daemon), ?_, rfl⟩
  rw [sound.exact (.daemon daemon)]
  simp [expected, serving, daemonHeld]

theorem daemonStep_handler {daemon : Nat} {call : DaemonCall} (stepped : daemonStep pid before daemon call = some after) :
    after.handler daemon = before.handler daemon ∨ after.handler daemon = .started ∨ after.handler daemon = .killed := by
  cases call <;> cases phase : before.daemon daemon <;> simp only [daemonStep, phase, reduceCtorEq] at stepped
  case accept.polling connection =>
    left
    cases connection with
    | none =>
      cases stepped
      rfl
    | some sock =>
      simp only at stepped
      split at stepped <;> cases stepped
      rfl
  case sendmsg.accepted works sock =>
    left
    split at stepped
    · split at stepped <;> cases stepped
      rfl
    · cases stepped
      rfl
  case joinHandler.joining =>
    left
    split at stepped <;> cases stepped
    rfl
  case createListenSocket.absent works | socketpair.listening works | inotifyInit.paired works | inotifyAddWatch.notifying works =>
    cases works <;> cases stepped
    · right
      right
      simp [State.endDaemon]
    · exact Or.inl rfl
  case spawn.ready =>
    right
    left
    cases stepped
    simp [State.enterHandler, State.enterDaemon]
  case closeConn.answered | stop.polling | resetClient.closing =>
    cases stepped
    exact Or.inl rfl
  all_goals
    right
    right
    cases stepped
    simp [State.endDaemon]

theorem handlerStep_handler {daemon : Nat} {call : HandlerCall} (stepped : handlerStep before daemon call = some after) :
    after.handler daemon ≠ .absent ∧ (after.handler daemon = .returned → call = .return) := by
  cases call <;> cases phase : before.handler daemon <;> simp only [handlerStep, phase, reduceCtorEq] at stepped
  case initializeWithClient.started works =>
    split at stepped <;> cases stepped <;> simp [State.enterHandler]
  case return.running =>
    cases stepped
    exact ⟨by simp [State.enterHandler], fun _ => rfl⟩

/-- Nobody can reach the handler, and its socketpair has been made. -/
structure Finished (state : State) (daemon : Nat) : Prop where
  unreferenced : ¬ state.table.Referenced (.shared daemon)
  spawned : state.handler daemon ≠ .absent

theorem step_finished {daemon : Nat} {action : Action} (sound : Sound pid before) (finished : Finished before daemon)
    (stepped : step cfg pid before action = some after) : Finished after daemon := by
  cases action with
  | daemon number call =>
    refine ⟨?_, ?_⟩
    · intro referenced
      obtain old | ⟨rfl, listening⟩ := daemonStep_shared (fun sock => sender_holds sound) stepped referenced
      · exact finished.unreferenced old
      · have threads := sound.together daemon
        rw [listening] at threads
        exact finished.spawned threads
    · by_cases self : daemon = number
      · subst self
        obtain same | started | killed := daemonStep_handler stepped
        · rw [same]
          exact finished.spawned
        · simp [started]
        · simp [killed]
      · rw [(daemonStep_frame stepped).handlers daemon self]
        exact finished.spawned
  | handler number call =>
    refine ⟨fun referenced => finished.unreferenced (handlerStep_shared stepped referenced), ?_⟩
    by_cases self : daemon = number
    · subst self
      exact (handlerStep_handler stepped).1
    · rw [(handlerStep_frame stepped).others daemon self]
      exact finished.spawned
  | client number call =>
    refine ⟨fun referenced => finished.unreferenced (clientStep_shared stepped referenced), ?_⟩
    rw [(clientStep_daemons stepped).2]
    exact finished.spawned

/-- What every step keeps once nobody can reach the handler. -/
def Deserted (pid : Nat → Int) (daemon : Nat) (state : State) : Prop := Sound pid state ∧ Finished state daemon

theorem step_deserted {daemon : Nat} {action : Action} (deserted : Deserted pid daemon before)
    (stepped : step cfg pid before action = some after) : Deserted pid daemon after :=
  ⟨step_sound deserted.1 stepped, step_finished deserted.1 deserted.2 stepped⟩

/-- A shared end that nobody has, of a daemon that has started its handler, is never seen again. -/
theorem shared_end_stays_gone {daemon : Nat} {earlier later : List Action} {middle last : State}
    (reached : run cfg pid initial earlier = some middle) (spawned : middle.handler daemon ≠ .absent)
    (deserted : ¬ middle.Open (.shared daemon)) (ran : run cfg pid middle later = some last) :
    ¬ last.Open (.shared daemon) ∧ ¬ last.table.Referenced (.shared daemon) := by
  have sound := run_sound reached
  have unreferenced : ¬ middle.table.Referenced (.shared daemon) :=
    fun referenced => deserted (open_of_referenced sound (run_linked reached) referenced)
  have start : Deserted pid daemon middle := ⟨sound, unreferenced, spawned⟩
  have gone := (Transition.run_invariant step_deserted start ran).2.unreferenced
  refine ⟨?_, gone⟩
  rintro (⟨process, _, holds⟩ | ⟨sock, _, carries⟩)
  · exact gone holds.referenced
  · exact gone carries.referenced

/-- The client registers, goes on as another program and ends; the daemon waits for that, and a second client
connects too late. -/
def lastClientLeaves : List Action :=
  startDaemon 0 ++ connectClient 0 0 ++ answer 0 0 ++ finishClient 0 true ++
    [.client 0 (.setHandlerSocket true true), .daemon 0 .stop, .daemon 0 .resetClient, .client 0 .exec, .client 0 .exit,
      .handler 0 .return]

theorem last_client_gone :
    ∃ middle last, run defaults (fun _ => 500) initial lastClientLeaves = some middle ∧
      run defaults (fun _ => 500) middle (connectClient 1 0 ++ [.daemon 0 .joinHandler, .daemon 0 .exit]) = some last ∧
      ¬ last.Open (.shared 0) ∧ ¬ last.table.Referenced (.shared 0) := by
  obtain ⟨middle, last, reached, spawned, deserted, ran⟩ :
      ∃ middle last, run defaults (fun _ => 500) initial lastClientLeaves = some middle ∧ middle.handler 0 ≠ .absent ∧
        ¬ middle.Open (.shared 0) ∧
        run defaults (fun _ => 500) middle (connectClient 1 0 ++ [.daemon 0 .joinHandler, .daemon 0 .exit]) = some last :=
    ⟨_, _, rfl, by decide, by decide, rfl⟩
  exact ⟨middle, last, reached, ran, shared_end_stays_gone reached spawned deserted ran⟩

/-- What RunWatcher relies on Run for: it returns only when all the client ends are closed. -/
def WaitsForClients (state : State) : Action → Prop
  | .handler number .return => ¬ state.Open (.shared number)
  | _ => True

instance (state : State) : DecidablePred (WaitsForClients state)
  | .handler _ .return => inferInstanceAs (Decidable (¬ _))
  | .handler _ (.initializeWithClient _) | .daemon _ _ | .client _ _ => isTrue trivial

structure Ends (pid : Nat → Int) (state : State) : Prop where
  sound : Sound pid state
  linked : Linked state
  returned : ∀ daemon, state.handler daemon = .returned → Finished state daemon

theorem step_ends {action : Action} (ends : Ends pid before) (waits : WaitsForClients before action)
    (stepped : step cfg pid before action = some after) : Ends pid after := by
  refine ⟨step_sound ends.sound stepped, step_linked ends.linked stepped, fun daemon returned => ?_⟩
  by_cases already : before.handler daemon = .returned
  · exact step_finished ends.sound (ends.returned daemon already) stepped
  · cases action with
    | daemon number call =>
      by_cases self : daemon = number
      · subst self
        obtain same | started | killed := daemonStep_handler stepped
        · exact absurd (same ▸ returned) already
        · simp [started] at returned
        · simp [killed] at returned
      · exact absurd ((daemonStep_frame stepped).handlers daemon self ▸ returned) already
    | handler number call =>
      by_cases self : daemon = number
      · subst self
        obtain rfl := (handlerStep_handler stepped).2 returned
        refine ⟨fun referenced => ?_, by simp [returned]⟩
        exact waits (open_of_referenced ends.sound ends.linked (handlerStep_shared stepped referenced))
      · exact absurd ((handlerStep_frame stepped).others daemon self ▸ returned) already
    | client number call => exact absurd ((clientStep_daemons stepped).2 ▸ returned) already

theorem initial_ends : Ends pid initial :=
  ⟨initial_sound, initial_linked, fun _ returned => by simp [initial] at returned⟩

/-- The client has what it needs from one daemon. -/
structure Served (pid : Nat → Int) (state : State) (client : Nat) (tells : Int) (shared : Object) (daemon : Nat) : Prop where
  told : tells = pid daemon
  given : shared = .shared daemon
  holds : state.table.Holds (.client client) shared

/-- The handler goes on, and the daemon does not get behind its join, but where the handler could not be set up. -/
def Handles (state : State) (daemon : Nat) : Prop :=
  state.handler daemon ≠ .returned ∧ (state.daemon daemon = .stopping → state.handler daemon = .failed)

/-- A DoInit that has succeeded, or a process that it was copied to, holds the end of the handler in the process whose
pid it was told. Where Run waits for its clients, that handler has not returned. -/
theorem registered_served {client : Nat} {tells : Int} {shared : Object} {actions : List Action} {last : State}
    (ran : run cfg pid initial actions = some last) (registered : last.client client = .registered tells shared) :
    ∃ daemon, Served pid last client tells shared daemon ∧
      (Transition.Throughout (step cfg pid) WaitsForClients initial actions → Handles last daemon) := by
  have sound := run_sound ran
  have told := sound.honest.told client
  rw [registered] at told
  obtain ⟨daemon, rfl, rfl⟩ := told
  have holds : last.table.Holds (.client client) (.shared daemon) := by
    refine ⟨received (.shared daemon), ?_, rfl⟩
    rw [sound.exact (.client client)]
    simp [expected, registered, clientHeld]
  refine ⟨daemon, ⟨rfl, rfl, holds⟩, fun waits => ?_⟩
  have ends : Ends pid last := Transition.run_keeps step_ends initial_ends waits ran
  have running : last.handler daemon ≠ .returned := fun returned => (ends.returned daemon returned).unreferenced holds.referenced
  refine ⟨running, fun stopping => ?_⟩
  have threads := sound.together daemon
  rw [stopping] at threads
  exact threads.resolve_left running

/-- A copy of a registered process is served while the daemon waits for it. -/
def copyRemains : List Action :=
  startDaemon 0 ++ connectClient 0 0 ++ answer 0 0 ++ finishClient 0 true ++
    [.client 0 (.setHandlerSocket true true), .client 0 (.fork 1), .client 0 .exit, .daemon 0 .stop, .daemon 0 .resetClient]

theorem copy_served :
    ∃ last daemon, run defaults (fun _ => 500) initial copyRemains = some last ∧
      Served (fun _ => 500) last 1 500 (.shared 0) daemon ∧ Handles last daemon := by
  obtain ⟨last, ran, registered⟩ :
      ∃ last, run defaults (fun _ => 500) initial copyRemains = some last ∧ last.client 1 = .registered 500 (.shared 0) :=
    ⟨_, rfl, rfl⟩
  obtain ⟨daemon, served, handles⟩ := registered_served ran registered
  exact ⟨last, daemon, ran, served, handles (by decide +kernel)⟩

end Crashomon.Proofs.HandlerLifetime
