import Crashomon.Base.Python
import Crashomon.Web.Models

/-! What the upload handlers of web/app.py make of an analysis. -/

namespace Crashomon.Web.App
open Python Regex

/-- `>>>\s*(\S+)\s*<<<` -/
def processPattern : Pattern :=
  .seq (.one (· = '>')) <| .seq (.one (· = '>')) <| .seq (.one (· = '>')) <| .seq (.many isSpace 0) <|
    .seq (.group (.many (fun character => !isSpace character) 1)) <| .seq (.many isSpace 0) <|
    .seq (.one (· = '<')) <| .seq (.one (· = '<')) (.one (· = '<'))

/-- `signal\s+\d+\s+\(([^)]+)\)` -/
def signalPattern : Pattern :=
  .literal "signal".toList <| .seq (.many isSpace 1) <| .seq (.many isDecimal 1) <| .seq (.many isSpace 1) <|
    .seq (.one (· = '(')) <| .seq (.group (.many (· ≠ ')') 1)) (.one (· = ')'))

/-- The last match of each pattern counts. -/
def extractMeta (report : Text) : Text × Text :=
  (splitlines report).foldl (fun (process, signal) line =>
    (((processPattern.search line).map fun groups => groups.getD 0 []).getD process,
      ((signalPattern.search line).map fun groups => groups.getD 0 []).getD signal))
    ("unknown".toList, "unknown".toList)

/-- The report of a crash; a RuntimeError is caught and becomes the text. -/
def reportOf (analysis : Except Raised Text) : Except Raised Text :=
  match analysis with
  | .error (.runtimeError message) => .ok ("(symbolication failed: ".toList ++ message ++ ")\n".toList)
  | outcome => outcome

/-- The directory for uploaded files, `app.config["DB_PATH"].parent / "tmp"`, and a file in it. -/
def uploadPath (tmpDir safeName : Text) : Text := tmpDir ++ '/' :: safeName

end Crashomon.Web.App
