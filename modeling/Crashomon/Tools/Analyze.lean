import Crashomon.Base.Json
import Crashomon.Tools.StackwalkJson
import Crashomon.Tools.Symbolizer

/-! The run of minidump-stackwalk and the analysis of a dump against a symbol store,
tools/crashomon_tools/analyze/analyze.py and web/analyzer.py. -/

namespace Crashomon.Tools.Analyze
open Bytes Python Json StackwalkJson

/-- What subprocess.run makes of the command. -/
inductive Walk where
  /-- FileNotFoundError -/
  | notFound
  /-- Another OSError, such as PermissionError for a file that is not executable. -/
  | refused
  /-- TimeoutExpired -/
  | timedOut
  /-- Output that is not UTF-8. -/
  | garbled
  | exited (returncode : Int) (stdout : Text)
  deriving DecidableEq, Repr

def raisedOf : JsonError → Raised
  | .tooDeep container =>
    .runtimeError ("maximum recursion depth exceeded while decoding a JSON ".toList ++ container ++
      " from a unicode string".toList)
  | _ => .valueError

def runStackwalkJson (interpreter : Interpreter) (stackwalk : Text) : Walk → Except Raised PyValue
  | .notFound =>
    .error (.runtimeError ("minidump-stackwalk not found: ".toList ++ interpreter.repr (.str (pyStr stackwalk))))
  | .refused => .error .osError
  | .timedOut => .error (.runtimeError "minidump-stackwalk timed out".toList)
  | .garbled => .error .unicodeError
  | .exited returncode stdout =>
    if stdout = [] then
      .error (.runtimeError ("minidump-stackwalk produced no output (exit ".toList ++ formatInt 10 0 returncode ++ ")".toList))
    else (loads interpreter stdout).mapError raisedOf

/-- The name of a module without a build ID. -/
def missingBuildId (mod : PyValue) : Except Raised (Option PyStr) := do
  let codeId ← mod.get "code_id"
  if codeId.isText "id" then do
    let filename ← mod.get "filename"
    (filename.orElse (.str (literal "?"))).pathName.map some
  else .ok none

/-- The names that the warning on stderr lists. -/
def warnMissingBuildIds (data : PyValue) : Except Raised (List PyStr) := do
  let modules ← data.get "modules"
  let items ← (modules.orElse (.list [])).elements
  let missing ← items.mapM missingBuildId
  .ok missing.reduceOption

/-- `read_minidump_annotations` of a file; without content there is an OSError, which is caught. -/
def readAnnotations (content : Option Buffer) : Except Raised (List (Text × Text)) :=
  match content with
  | none => .ok []
  | some data => (Symbolizer.readMinidumpAnnotations data).mapError fun
    | .structError => .structError
    | .valueError _ => .valueError
    | .osError _ => .osError

def applyAnnotations (tombstone : ParsedTombstone) (content : Option Buffer) : Except Raised ParsedTombstone := do
  let annotations ← readAnnotations content
  .ok { tombstone with
    abortMessage := Symbolizer.annotation annotations "abort_message".toList
    terminateType := Symbolizer.annotation annotations "terminate_type".toList }

def modeMinidumpStore (interpreter : Interpreter) (stackwalk : Text) (walk : Walk) (content : Option Buffer)
    (showTrust : Bool) : Except Raised PyStr := do
  let data ← runStackwalkJson interpreter stackwalk walk
  let _ ← warnMissingBuildIds data
  let (tombstone, symbols) ← parseStackwalkJson data
  let tombstone ← applyAnnotations tombstone content
  formatSymbolicated interpreter tombstone symbols showTrust

/-- The web's `analyze_minidump`. -/
def analyzeMinidump (interpreter : Interpreter) (stackwalk : Text) (walk : Walk) (content : Option Buffer) :
    Except Raised PyStr :=
  modeMinidumpStore interpreter stackwalk walk content false

end Crashomon.Tools.Analyze
