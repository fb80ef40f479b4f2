import Crashomon.Base.Text
import Crashomon.Base.Transition
import Mathlib.Logic.Function.Basic

/-! CreateListenSocket of daemon/crash_socket.cpp in any number of processes on one
path, and what RunWatcher does with the socket afterwards. Each system call is a
step of its own. -/

namespace Crashomon.Daemon.CrashSocket

/-- The bytes that c_str() shows to a system call. -/
def cString (path : ByteString) : ByteString := path.takeWhile (· ≠ 0)

/-- sizeof(sockaddr_un::sun_path). -/
def sunPathSize : Nat := 108

/-- What strncpy and the terminator leave in sun_path. -/
def sunPath (socketPath : ByteString) : ByteString := (cString socketPath).take (sunPathSize - 1)

inductive Entry where
  /-- A socket that this process has bound, listening or not, open or not. -/
  | bound (daemon : Nat)
  /-- A stale socket of an earlier run, a file of another kind, a socket of another program. -/
  | foreign
  deriving DecidableEq

inductive Phase where
  | idle
  | created
  /-- Behind the probe, which nobody answered. -/
  | probed
  | unlinked
  | bound
  | permitted
  /-- CreateListenSocket has returned the descriptor. -/
  | listening
  /-- Behind RunEventLoop, the descriptor still open. -/
  | stopping
  /-- Behind the unlink at the end of RunWatcher, the descriptor still open. -/
  | removed
  /-- -1 was returned or the process has ended; its descriptors are closed. -/
  | gone
  deriving DecidableEq

structure State where
  entries : ByteString → Option Entry
  phase : Nat → Phase

/-- Nothing in the file system is bound by a process of the run. -/
def initial (present : ByteString → Bool) : State where
  entries path := if present path then some .foreign else none
  phase _ := .idle

/-- A system call, or the end of the event loop, or the end of the process. A call that can fail
for reasons of its own carries its outcome. -/
inductive Call where
  | socket (works : Bool)
  /-- The probe's socket and connect; `answered` when both succeed. -/
  | connect (answered : Bool)
  | unlink (removes : Bool)
  | bind (works : Bool)
  | chmod
  | listen (works : Bool)
  | stop
  | exit

structure Action where
  daemon : Nat
  call : Call

/-- Whether somebody may accept a connection to the address. -/
def Answers (state : State) (address : ByteString) : Prop :=
  match state.entries address with
  | some (.bound daemon) =>
    state.phase daemon = .listening ∨ state.phase daemon = .stopping ∨ state.phase daemon = .removed
  | some .foreign => True
  | none => False

instance (state : State) (address : ByteString) : Decidable (Answers state address) := by
  unfold Answers
  split <;> infer_instance

def State.enter (state : State) (daemon : Nat) (phase : Phase) : State :=
  { state with phase := Function.update state.phase daemon phase }

def State.put (state : State) (path : ByteString) (entry : Option Entry) : State :=
  { state with entries := Function.update state.entries path entry }

/-- An empty path is no file: no unlink reaches the address that stands for it. -/
def State.unlink (state : State) (name : ByteString) (removes : Bool) : State :=
  if removes ∧ name ≠ [] then state.put name none else state

/-- The descriptors of the process are closed. A name in the file system stays; the address of
an empty path is freed with its socket. -/
def State.leave (state : State) (daemon : Nat) : State :=
  (if state.entries [] = some (.bound daemon) then state.put [] none else state).enter daemon .gone

/-- The string that a call hands to the system. -/
def Call.path (socketPath : ByteString) : Call → Option ByteString
  | .connect _ | .bind _ => some (sunPath socketPath)
  | .unlink _ | .chmod => some (cString socketPath)
  | _ => none

def step (socketPath : ByteString) (state : State) (action : Action) : Option State :=
  let daemon := action.daemon
  let name := cString socketPath
  let address := sunPath socketPath
  match action.call, state.phase daemon with
  | .socket works, .idle => some (if works then state.enter daemon .created else state.leave daemon)
  | .connect answered, .created =>
    if answered then
      if Answers state address then some (state.leave daemon) else none
    else some (state.enter daemon .probed)
  -- The result of unlink is not looked at, here and at the end of RunWatcher.
  | .unlink removes, .probed => some ((state.unlink name removes).enter daemon .unlinked)
  | .bind works, .unlinked =>
    if works then
      -- EADDRINUSE on a name that exists.
      if state.entries address = none then some ((state.put address (some (.bound daemon))).enter daemon .bound)
      else none
    else some (state.leave daemon)
  | .chmod, .bound => some (state.enter daemon .permitted)
  | .listen works, .permitted => some (if works then state.enter daemon .listening else state.leave daemon)
  | .stop, .listening => some (state.enter daemon .stopping)
  | .unlink removes, .stopping => some ((state.unlink name removes).enter daemon .removed)
  | .exit, .idle | .exit, .gone => none
  | .exit, _ => some (state.leave daemon)
  | _, _ => none

def run (socketPath : ByteString) : State → List Action → Option State := Transition.run (step socketPath)

end Crashomon.Daemon.CrashSocket
