import Crashomon.Base.Python
import Crashomon.Base.PythonText
import Crashomon.Base.Regex
import Mathlib.Data.List.Dedup
import Mathlib.Data.List.Sort

/-! The crash rows and their signature, web/models.py. The hash function is a parameter. -/

namespace Crashomon.Web.Models
open Python Regex

/-- `^\s+\d+\s+(\S+)\s*\+\s*(0x[0-9a-fA-F]+)` -/
def framePattern : Pattern :=
  .seq .start <| .seq (.many isSpace 1) <| .seq (.many isDecimal 1) <| .seq (.many isSpace 1) <|
    .seq (.group (.many (fun character => !isSpace character) 1)) <| .seq (.many isSpace 0) <|
    .seq (.one (· = '+')) <| .seq (.many isSpace 0) <|
    .group (.seq (.one (· = '0')) (.seq (.one (· = 'x')) (.many isHexDigit 1)))

def readFrame (line : Text) : Option Text :=
  (framePattern.search line).map fun groups =>
    groups.getD 0 [] ++ ['+'] ++ (groups.getD 1 []).map Char.toLower

def collectFrames : List Text → (frames : List Text) → List Text
  | [], frames => frames
  | line :: lines, frames =>
    match readFrame line with
    | some frame => if 3 ≤ (frames ++ [frame]).length then frames ++ [frame] else collectFrames lines (frames ++ [frame])
    | none => collectFrames lines frames

def signatureFrames (report : Text) : List Text := collectFrames (splitlines report) []

def payload (process signal : Text) (frames : List Text) : Text :=
  process ++ ":".toList ++ signal ++ ":".toList ++ join ",".toList frames

def hexdigest (digest : Vector UInt8 32) : Text :=
  digest.toList.flatMap fun byte => [Nat.digitChar (byte.toNat / 16), Nat.digitChar (byte.toNat % 16)]

def computeSignature (sha256 : ByteArray → Vector UInt8 32) (process signal report : Text) : Text :=
  let frames := signatureFrames report
  if frames = [] then [] else (hexdigest (sha256 (String.ofList (payload process signal frames)).toUTF8)).take 16

/-- A row of the table crashes. -/
structure Crash where
  id : Nat
  ts : Text
  process : Text
  signal : Text
  pid : Int
  report : Text
  dmpPath : Text
  signature : Text
  deriving DecidableEq, Repr

/-- The row that `insert_crash` adds. -/
def insertedCrash (sha256 : ByteArray → Vector UInt8 32) (id : Nat) (ts process signal : Text) (pid : Int)
    (report dmpPath : Text) : Crash :=
  ⟨id, ts, process, signal, pid, report, dmpPath, computeSignature sha256 process signal report⟩

/-- The rows of each group that `get_crash_groups` selects: those with a signature, GROUP BY signature. -/
def crashGroups (crashes : List Crash) : List (List Crash) :=
  let signed := crashes.filter fun crash => decide (crash.signature ≠ [])
  (signed.map (·.signature)).eraseDups.map fun signature => signed.filter fun crash => decide (crash.signature = signature)

/-- The order of texts in SQLite, by code points. -/
def before : Text → Text → Bool
  | _, [] => false
  | [], _ :: _ => true
  | first :: rest, second :: others => first.toNat < second.toNat || first.toNat = second.toNat && before rest others

/-- SQLite's `DATE(ts)`, NULL as none, and the calendar day of a date, counted from some day on. Dates are written
YYYY-MM-DD, so that their order is the order of their days. -/
structure DateFunction where
  date : Text → Option Text
  day : Text → Int
  ordered : ∀ {first second early late : Text}, date first = some early → date second = some late →
    (before early late = true ↔ day early < day late)

/-- `ORDER BY date DESC`, where NULL comes last. -/
def noEarlier : Option Text → Option Text → Bool
  | _, none => true
  | none, some _ => false
  | some first, some second => !before first second

def dates (sql : DateFunction) (crashes : List Crash) : List (Option Text) := crashes.map fun crash => sql.date crash.ts

/-- The groups of `get_daily_counts`, the latest first. -/
def newestFirst (sql : DateFunction) (crashes : List Crash) : List (Option Text) :=
  (dates sql crashes).dedup.insertionSort fun first second => noEarlier first second = true

/-- The date and the count of a group. -/
def dailyRow (sql : DateFunction) (crashes : List Crash) (date : Option Text) : Option Text × Nat :=
  (date, (dates sql crashes).count date)

/-- `get_daily_counts`, for a positive limit. A SQLite integer has 64 bits. -/
def dailyCounts (sql : DateFunction) (crashes : List Crash) (days : Nat) : Except Raised (List (Option Text × Nat)) :=
  if 2 ^ 63 ≤ days then .error .overflowError
  else .ok (((newestFirst sql crashes).take days).map (dailyRow sql crashes)).reverse

end Crashomon.Web.Models
