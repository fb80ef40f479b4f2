import Crashomon.Base.Calendar
import Crashomon.Daemon.Worker

/-! The path that ExportMinidump copies a dump to, daemon/worker.cpp, from the clock on:
gmtime_r, strftime and the slash of std::filesystem::path as they are documented. -/

namespace Crashomon.Daemon.ExportPath
open DiskManager MinidumpReader Worker Calendar

/-- "YYYYMMDDHHmmSS" and the NUL. -/
def timestampBufLen : Nat := 15

/-- `std::tm`: years from 1900 on, months from 0 on. -/
structure Tm where
  tmYear : Int
  tmMon : Nat
  tmMday : Nat
  tmHour : Nat
  tmMin : Nat
  tmSec : Nat
  deriving DecidableEq, Repr

def gmtimeR (now : Int) : Tm :=
  let date := dateOf (now / 86400)
  let second := (now % 86400).toNat
  ⟨date.year - 1900, date.month - 1, date.day, second / 3600, second / 60 % 60, second % 60⟩

def twoDigits (value : Nat) : ByteString := List.replicate (2 - (digits 10 value).length) 48 ++ digits 10 value

def year (tm : Tm) : ByteString :=
  if tm.tmYear + 1900 < 0 then 45 :: digits 10 (-(tm.tmYear + 1900)).toNat else digits 10 (tm.tmYear + 1900).toNat

/-- `strftime` for "%Y%m%d%H%M%S". It fails where the text and its NUL do not fit. -/
def strftime (size : Nat) (tm : Tm) : Option ByteString :=
  let text := year tm ++ twoDigits (tm.tmMon + 1) ++ twoDigits tm.tmMday ++ twoDigits tm.tmHour ++ twoDigits tm.tmMin ++
    twoDigits tm.tmSec
  if text.length < size then some text else none

/-- The time of the export in its file name. -/
def timestamp (now : Int) : Option ByteString := strftime timestampBufLen (gmtimeR now)

/-- `path / name`: a separator unless the path is empty or ends in one; an absolute name stands alone. -/
def append (path name : ByteString) : ByteString :=
  if name.head? = some slash then name
  else if path = [] ∨ path.getLast? = some slash then path ++ name
  else path ++ slash :: name

def exportDestination (exportPath : ByteString) (info : MinidumpInfo) (now : Int) : Option ByteString :=
  (timestamp now).map fun stamp => append exportPath (exportName info stamp)

end Crashomon.Daemon.ExportPath
