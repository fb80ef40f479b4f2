import Crashomon.Base.Loop
import Crashomon.Lib.Config
import Crashomon.Lib.Tags

/-! The connect loop of DoInit, lib/crashomon.cpp. What connect() returns and what the clock
reads are inputs. Seconds are exact: CLOCK_MONOTONIC is far from the ends of a time_t. -/

namespace Crashomon.Lib.Connect
open Loop Config Tags

def kRetryIntervalNs : Int := 100000000
def waitSuffixSize : Nat := 32

def enoent : Int := 2
def econnrefused : Int := 111

structure Timespec where
  tvSec : Int
  tvNsec : Int
  deriving DecidableEq, Repr

/-- What one call of connect() comes to: 0, or an errno. -/
inductive Outcome where
  | success
  | failed (errno : Int)
  deriving DecidableEq, Repr

/-- The socket is not there yet, or nobody listens at it. -/
def Transient (outcome : Outcome) : Prop := outcome = .failed enoent ∨ outcome = .failed econnrefused

instance (outcome : Outcome) : Decidable (Transient outcome) := inferInstanceAs (Decidable (_ ∨ _))

/-- The deadline has been reached. -/
def Past (now deadline : Timespec) : Prop := deadline.tvSec < now.tvSec ∨ now.tvSec = deadline.tvSec ∧ deadline.tvNsec ≤ now.tvNsec

instance (now deadline : Timespec) : Decidable (Past now deadline) := inferInstanceAs (Decidable (_ ∨ _))

/-- `%d` -/
def formatInt (value : Int) : ByteString := if value < 0 then 45 :: digits 10 (-value).toNat else digits 10 value.toNat

def waitingNotice (cfg : ResolvedConfig) : ByteString :=
  ascii "crashomon: waiting for watcherd at " ++ cfg.socketPath ++
    snprintf waitSuffixSize (ascii " (up to " ++ formatInt cfg.connectTimeoutSec ++ ascii "s)...\n")

/-- The locals of the loop, with the calls of connect() so far and what has gone to stderr. -/
structure Progress where
  attempts : Nat
  connected : Bool
  waitingPrinted : Bool
  connectErrno : Int
  output : List ByteString
  deriving DecidableEq, Repr

def start : Progress := ⟨0, false, false, 0, []⟩

/-- What has been printed when the loop goes on: the notice, once. -/
def notified (cfg : ResolvedConfig) (progress : Progress) : List ByteString :=
  if progress.waitingPrinted then progress.output else progress.output ++ [waitingNotice cfg]

/-- One turn: the call of connect(), then the reading of the clock, the notice and the sleep if it is worth another try. -/
def connectTurn (cfg : ResolvedConfig) (connect : Nat → Outcome) (clock : Nat → Timespec) (progress : Progress) :
    Turn Progress Progress :=
  let deadline : Timespec := ⟨(clock 0).tvSec + cfg.connectTimeoutSec, (clock 0).tvNsec⟩
  let tried := progress.attempts + 1
  match connect progress.attempts with
  | .success => .done { progress with attempts := tried, connected := true }
  | .failed errno =>
    if errno ≠ enoent ∧ errno ≠ econnrefused then .done { progress with attempts := tried, connectErrno := errno }
    else if Past (clock tried) deadline then .done { progress with attempts := tried, connectErrno := errno }
    else .again ⟨tried, progress.connected, true, errno, notified cfg progress⟩

/-- The loop; `none` where it has not ended within so many turns. The first reading of the clock is the one before it. -/
def connectLoop (cfg : ResolvedConfig) (connect : Nat → Outcome) (clock : Nat → Timespec) (turns : Nat) : Option Progress :=
  run (connectTurn cfg connect clock) turns start

end Crashomon.Lib.Connect
