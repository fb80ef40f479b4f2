import Crashomon.Base.Numerals

/-! The limits on the daemon's command line, daemon/main.cpp. A null pointer is `none`. -/

namespace Crashomon.Daemon.Arguments
open Numerals

def kBytesPerKilobyte : Nat := 1024
def kSecondsPerHour : Nat := 3600
def kSecondsPerDay : Nat := 86400

/-- A product in an unsigned 64-bit register. -/
def mul64 (first second : Nat) : Nat := first * second % 2 ^ 64

def mul32 (first second : Nat) : Nat := first * second % 2 ^ 32

/-- A size with an optional suffix in bytes; 0 on an error. -/
def parseSize (str : Option ByteString) : Nat :=
  match str with
  | none => 0
  | some str =>
    if str = [] then 0
    else match strtoul 64 str with
      | none => 0
      | some (val, rest) =>
        if rest = [] ∨ rest = ascii "B" then val
        else if rest = ascii "K" ∨ rest = ascii "KB" then mul64 val kBytesPerKilobyte
        else if rest = ascii "M" ∨ rest = ascii "MB" then mul64 (mul64 val kBytesPerKilobyte) kBytesPerKilobyte
        else if rest = ascii "G" ∨ rest = ascii "GB" then
          mul64 (mul64 (mul64 val kBytesPerKilobyte) kBytesPerKilobyte) kBytesPerKilobyte
        else 0

/-- A duration with an optional suffix in seconds; 0 on an error. The value is cast to 32 bits before it is scaled. -/
def parseAge (model : DataModel) (str : Option ByteString) : Nat :=
  match str with
  | none => 0
  | some str =>
    if str = [] then 0
    else match strtoul model.longBits str with
      | none => 0
      | some (val, rest) =>
        if rest = [] ∨ rest = ascii "s" then val % 2 ^ 32
        else if rest = ascii "h" then mul32 (val % 2 ^ 32) kSecondsPerHour
        else if rest = ascii "d" then mul32 (val % 2 ^ 32) kSecondsPerDay
        else 0

end Crashomon.Daemon.Arguments
