import Crashomon.Base.Descriptors
import Crashomon.Base.Transition
import Crashomon.Lib.Connect

/-! Registration of client processes with the daemons: DoInit of lib/crashomon.cpp against RunWatcher of
daemon/watcher.cpp and AcceptAndShareSocket of daemon/crash_socket.cpp, with the handler thread and the
kernel's descriptors. Any number of clients and daemons take steps in any order. Each call that these functions
make is a step of its own; of CreateListenSocket that is the whole, because nobody reaches the socket before its last
call, listen(). Which daemon a path leads to is an input of connect(). -/

namespace Crashomon.Lib.Registration
open Loop Config Connect

inductive Process where
  | daemon (number : Nat)
  | client (number : Nat)
  deriving DecidableEq, Repr

inductive Object where
  | listener (daemon : Nat)
  | inotify (daemon : Nat)
  /-- The handler's end of the socketpair. -/
  | server (daemon : Nat)
  /-- The end that the daemon shares: client_fd, shared_fd. -/
  | shared (daemon : Nat)
  /-- The client's side of a registration connection. -/
  | sock (connection : Nat)
  /-- The daemon's side of it: conn_fd. -/
  | conn (connection : Nat)
  deriving DecidableEq, Repr

/-- The iovec and the header of the control message. -/
structure Header where
  pid : Int
  level : Nat
  kind : Nat
  length : Nat
  deriving DecidableEq, Repr

def pidSize : Int := 4
def solSocket : Nat := 1
def scmRights : Nat := 1
/-- CMSG_LEN(sizeof(int)) -/
def cmsgLen : Nat := 20

/-- The message of AcceptAndShareSocket. -/
def shareMessage (handlerPid : Int) (sharedClient : Object) : Parcel Header Object :=
  ⟨⟨handlerPid, solSocket, scmRights, cmsgLen⟩, sharedClient⟩

/-- What recvmsg leaves behind. -/
structure Received where
  recvLen : Int
  pid : Int
  control : Option (Parcel Header Object)

/-- The checks of ReceiveSharedSocket; the handler's pid and the descriptor's object where they are passed. -/
def receiveSharedSocket (received : Received) : Option (Int × Object) :=
  if received.recvLen < pidSize then none
  else match received.control with
    | none => none
    | some cmsg =>
      if cmsg.payload.level ≠ solSocket ∨ cmsg.payload.kind ≠ scmRights ∨ cmsg.payload.length ≠ cmsgLen then none
      else some (received.pid, cmsg.object)

inductive DaemonPhase where
  | absent
  | listening
  | paired
  | notifying
  | ready
  /-- In RunEventLoop, between two accepts. -/
  | polling
  | accepted (connection : Nat)
  | answered (connection : Nat)
  | closing
  | joining
  /-- Behind the join of the handler thread. -/
  | stopping
  | gone
  deriving DecidableEq, Repr

inductive HandlerPhase where
  | absent
  | started
  /-- In ExceptionHandlerServer::Run. -/
  | running
  /-- InitializeWithClient failed and the thread has ended. -/
  | failed
  | returned
  | killed
  deriving DecidableEq, Repr

inductive ClientPhase where
  /-- DoInit has not been called in this image of the process. -/
  | idle
  | connecting (sock : Nat) (started : Timespec) (progress : Progress)
  | waiting (sock : Nat)
  /-- Before close(sock), with what DoInit has got from the daemon. -/
  | closing (sock : Nat) (exchanged : Option (Int × Object))
  | sharing (pid : Int) (shared : Object)
  | registered (pid : Int) (shared : Object)
  /-- -1 was returned before Crashpad was called. -/
  | failed
  /-- SetHandlerSocket failed, with what Crashpad has kept open. -/
  | refused (kept : Option Object)
  /-- No process yet, or no longer. -/
  | gone
  deriving DecidableEq, Repr

inductive Connection where
  | fresh
  | queued (daemon : Nat)
  | accepted (daemon : Nat)
  /-- The daemon's side is closed. -/
  | hungUp
  deriving DecidableEq, Repr

structure State where
  daemon : Nat → DaemonPhase
  handler : Nat → HandlerPhase
  client : Nat → ClientPhase
  connection : Nat → Connection
  table : Descriptors Process Nat Header Object
  processes : List Process
  /-- Sockets made by clients so far. -/
  sockets : Nat
  /-- What a client had open when its image of the process began. -/
  inherited : Nat → List (Descriptor Object)

def initial : State :=
  ⟨fun _ => .absent, fun _ => .absent, fun _ => .gone, fun _ => .fresh, .none, [], 0, fun _ => []⟩

/-- Some process has the object open, or a message does. -/
def State.Open (state : State) (object : Object) : Prop :=
  (∃ process ∈ state.processes, state.table.Holds process object) ∨
    ∃ connection < state.sockets, state.table.Carries connection object

instance (state : State) (object : Object) : Decidable (state.Open object) := by
  unfold State.Open Descriptors.Holds Descriptors.Carries
  infer_instance

def State.enterDaemon (state : State) (daemon : Nat) (phase : DaemonPhase) : State :=
  { state with daemon := Function.update state.daemon daemon phase }

def State.enterHandler (state : State) (daemon : Nat) (phase : HandlerPhase) : State :=
  { state with handler := Function.update state.handler daemon phase }

def State.enterClient (state : State) (client : Nat) (phase : ClientPhase) : State :=
  { state with client := Function.update state.client client phase }

/-- A new image of the process, with what it has open. -/
def State.enterImage (state : State) (client : Nat) (phase : ClientPhase) (inherited : List (Descriptor Object)) : State :=
  { state.enterClient client phase with inherited := Function.update state.inherited client inherited }

def State.link (state : State) (sock : Nat) (connection : Connection) : State :=
  { state with connection := Function.update state.connection sock connection }

def State.withTable (state : State) (table : Descriptors Process Nat Header Object) : State := { state with table }

/-- The connections of a daemon whose descriptors are closed. -/
def hangUp (daemon : Nat) (connection : Connection) : Connection :=
  if connection = .queued daemon ∨ connection = .accepted daemon then .hungUp else connection

/-- The end of the process, whatever it was doing. -/
def State.endDaemon (state : State) (daemon : Nat) : State :=
  { state with
    daemon := Function.update state.daemon daemon .gone
    handler := Function.update state.handler daemon .killed
    connection := fun sock => hangUp daemon (state.connection sock)
    table := state.table.exit (.daemon daemon) }

inductive DaemonCall where
  | createListenSocket (works : Bool)
  | socketpair (works : Bool)
  | inotifyInit (works : Bool)
  | inotifyAddWatch (works : Bool)
  /-- The handler thread is started. -/
  | spawn
  /-- accept4, with the connection it takes. -/
  | accept (connection : Option Nat)
  | sendmsg (works : Bool)
  | closeConn
  /-- RunEventLoop returns. -/
  | stop
  | resetClient
  | joinHandler
  | exit

inductive HandlerCall where
  | initializeWithClient (works : Bool)
  /-- Run returns, for whatever reason. -/
  | return

/-- What recvmsg comes to. -/
inductive Answer where
  /-- A message is there; `room` where the process can take another descriptor. -/
  | message (room : Bool)
  | endOfFile
  | error

inductive ClientCall where
  | begin
  /-- socket(), and the reading of the clock that sets the deadline. -/
  | socket (works : Bool) (now : Timespec)
  | connectFails (errno : Int) (now : Timespec)
  | connect (daemon : Nat)
  | recvmsg (answer : Answer)
  | closeSock
  /-- Where it fails, Crashpad may have closed the descriptor. -/
  | setHandlerSocket (works keeps : Bool)
  | fork (child : Nat)
  | exec
  | exit

inductive Action where
  | daemon (number : Nat) (call : DaemonCall)
  | handler (number : Nat) (call : HandlerCall)
  | client (number : Nat) (call : ClientCall)

/-- The descriptor numbers that the daemon opens are closed on exec. -/
def owned (object : Object) : Descriptor Object := ⟨object, true⟩

/-- recvmsg is called without MSG_CMSG_CLOEXEC. -/
def received (object : Object) : Descriptor Object := ⟨object, false⟩

/-- Whether connect() reaches the daemon's socket. -/
def Listens (phase : DaemonPhase) : Prop := phase ≠ .absent ∧ phase ≠ .gone

instance (phase : DaemonPhase) : Decidable (Listens phase) := inferInstanceAs (Decidable (_ ∧ _))

def daemonStep (pid : Nat → Int) (state : State) (daemon : Nat) (call : DaemonCall) : Option State :=
  let self := Process.daemon daemon
  match call, state.daemon daemon with
  | .createListenSocket works, .absent =>
    let started : State := { state with processes := self :: state.processes }
    some (if works then (started.withTable (state.table.open self (owned (.listener daemon)))).enterDaemon daemon .listening
      else started.endDaemon daemon)
  | .socketpair works, .listening =>
    some (if works then
      (state.withTable ((state.table.open self (owned (.server daemon))).open self (owned (.shared daemon)))).enterDaemon daemon .paired
    else state.endDaemon daemon)
  | .inotifyInit works, .paired =>
    some (if works then (state.withTable (state.table.open self (owned (.inotify daemon)))).enterDaemon daemon .notifying
      else state.endDaemon daemon)
  | .inotifyAddWatch works, .notifying => some (if works then state.enterDaemon daemon .ready else state.endDaemon daemon)
  | .spawn, .ready => some ((state.enterHandler daemon .started).enterDaemon daemon .polling)
  | .accept none, .polling => some state
  | .accept (some sock), .polling =>
    if state.connection sock = .queued daemon then
      some (((state.link sock (.accepted daemon)).withTable (state.table.open self (owned (.conn sock)))).enterDaemon daemon
        (.accepted sock))
    else none
  | .sendmsg works, .accepted sock =>
    if works then
      -- EPIPE where the client has gone.
      if state.Open (.sock sock) then
        some ((state.withTable (state.table.send sock (shareMessage (pid daemon) (.shared daemon)))).enterDaemon daemon (.answered sock))
      else none
    else some (state.enterDaemon daemon (.answered sock))
  | .closeConn, .answered sock =>
    some (((state.link sock .hungUp).withTable (state.table.close self (.conn sock))).enterDaemon daemon .polling)
  | .stop, .polling => some (state.enterDaemon daemon .closing)
  | .resetClient, .closing => some ((state.withTable (state.table.close self (.shared daemon))).enterDaemon daemon .joining)
  | .joinHandler, .joining =>
    if state.handler daemon = .returned ∨ state.handler daemon = .failed then some (state.enterDaemon daemon .stopping) else none
  | .exit, .absent | .exit, .gone => none
  | .exit, _ => some (state.endDaemon daemon)
  | _, _ => none

def handlerStep (state : State) (daemon : Nat) (call : HandlerCall) : Option State :=
  let closed := state.withTable (state.table.close (.daemon daemon) (.server daemon))
  match call, state.handler daemon with
  | .initializeWithClient works, .started =>
    some (if works then state.enterHandler daemon .running else closed.enterHandler daemon .failed)
  | .return, .running => some (closed.enterHandler daemon .returned)
  | _, _ => none

/-- A process that is not inside DoInit. -/
def Settled : ClientPhase → Prop
  | .idle | .registered _ _ | .failed | .refused _ => True
  | _ => False

instance : DecidablePred Settled
  | .idle | .registered _ _ | .failed | .refused _ => isTrue trivial
  | .connecting _ _ _ | .waiting _ | .closing _ _ | .sharing _ _ | .gone => isFalse id

/-- What recvmsg leaves behind for a message in flight. -/
def arrived (parcel : Parcel Header Object) (room : Bool) : Received :=
  ⟨pidSize, parcel.payload.pid, if room then some parcel else none⟩

def recvStep (state : State) (client sock : Nat) : Answer → Option State
  | .message room =>
    match state.table.inFlight sock with
    | [] => none
    | parcel :: _ =>
      let taken := state.table.advance sock
      some ((state.withTable (if room then taken.open (.client client) (received parcel.object) else taken)).enterClient client
        (.closing sock (receiveSharedSocket (arrived parcel room))))
  | .endOfFile =>
    if state.connection sock = .hungUp ∧ state.table.inFlight sock = [] then
      some (state.enterClient client (.closing sock (receiveSharedSocket ⟨0, 0, none⟩)))
    else none
  | .error => some (state.enterClient client (.closing sock (receiveSharedSocket ⟨-1, 0, none⟩)))

/-- The socket of a registration connection that the process still has. -/
def ownSock : ClientPhase → Option Nat
  | .connecting sock _ _ | .waiting sock | .closing sock _ => some sock
  | _ => none

/-- What lies unread in the connection goes with the client's side of it. -/
def State.dropSock (state : State) (sock : Option Nat) : Descriptors Process Nat Header Object :=
  match sock with
  | some sock => state.table.discard sock
  | none => state.table

def clientStep (cfg : ResolvedConfig) (state : State) (client : Nat) (call : ClientCall) : Option State :=
  let self := Process.client client
  match call, state.client client with
  | .begin, .gone =>
    if self ∈ state.processes then none
    else some ({ state with processes := self :: state.processes }.enterClient client .idle)
  | .socket works now, .idle =>
    some (if works then
      ({ state with sockets := state.sockets + 1 }.withTable (state.table.open self (owned (.sock state.sockets)))).enterClient client
        (.connecting state.sockets now start)
    else state.enterClient client .failed)
  | .connectFails errno now, .connecting sock started progress =>
    match connectTurn cfg (fun _ => .failed errno) (fun reading => if reading = 0 then started else now) progress with
    | .again next => some (state.enterClient client (.connecting sock started next))
    | .done _ => some (state.enterClient client (.closing sock none))
  | .connect daemon, .connecting sock _ _ =>
    if Listens (state.daemon daemon) then some ((state.link sock (.queued daemon)).enterClient client (.waiting sock)) else none
  | .recvmsg answer, .waiting sock => recvStep state client sock answer
  | .closeSock, .closing sock exchanged =>
    some ((state.withTable ((state.table.close self (.sock sock)).discard sock)).enterClient client
      (match exchanged with
        | some (pid, shared) => .sharing pid shared
        | none => .failed))
  | .setHandlerSocket works keeps, .sharing pid shared =>
    some (if works then state.enterClient client (.registered pid shared)
      else (state.withTable (if keeps then state.table else state.table.close self shared)).enterClient client
        (.refused (if keeps then some shared else none)))
  | .fork child, phase =>
    if Settled phase ∧ .client child ∉ state.processes then
      some (({ state with processes := .client child :: state.processes }.withTable (state.table.fork self (.client child))).enterImage
        child phase (state.inherited client))
    else none
  | .exec, phase =>
    if Settled phase then
      let after := state.table.exec self
      some ((state.withTable after).enterImage client .idle (after.held self))
    else none
  | .exit, .gone => none
  | .exit, phase => some ((state.withTable ((state.dropSock (ownSock phase)).exit self)).enterImage client .gone [])
  | _, _ => none

def step (cfg : ResolvedConfig) (pid : Nat → Int) (state : State) : Action → Option State
  | .daemon number call => daemonStep pid state number call
  | .handler number call => handlerStep state number call
  | .client number call => clientStep cfg state number call

def run (cfg : ResolvedConfig) (pid : Nat → Int) : State → List Action → Option State := Transition.run (step cfg pid)

end Crashomon.Lib.Registration
