import Crashomon.Base.DiskLinks
import Crashomon.Base.Python
import Crashomon.Base.PythonText
import Crashomon.Base.Utf8

/-! The symbol store primitives of tools/crashomon_tools/syms/__init__.py. -/

namespace Crashomon.Tools.Syms
open Python

/-- The warnings themselves go to stderr; what stays is that a code ID line without a code ID raises. -/
def warnSymQuality (symLines : List Text) : Except Raised Unit :=
  match symLines.find? fun line => "INFO CODE_ID ".toList.isPrefixOf line with
  | some line => if (split line).length < 3 then .error .indexError else .ok ()
  | none => .ok ()

/-- The module name, the build ID and the text, from the exit code and the output of dump_syms. -/
def runDumpSyms (returncode : Int) (stdout : Text) : Except Raised (Option (Text × Text × Text)) :=
  if returncode ≠ 0 ∨ stdout = [] then .ok none
  else
    let lines := splitlines stdout
    match split (lines.headD []) with
    | keyword :: _ :: _ :: buildId :: moduleName :: _ =>
      if keyword = "MODULE".toList then do
        warnSymQuality lines
        .ok (some (moduleName, buildId, stdout))
      else .ok none
    | _ => .ok none

/-- The file that `_store_sym` writes. -/
def storeSymDest (store : PurePath) (moduleName buildId : Text) : PurePath :=
  ((store.join (PurePath.parse moduleName)).join (PurePath.parse buildId)).join (PurePath.parse (moduleName ++ ".sym".toList))

/-- The path of the file that is written, and the disk after the call. -/
def storeSym (disk : Disk) (cwd : Location) (now : Nat) (store : PurePath) (moduleName buildId symText : Text) :
    Except OsError PurePath × Disk :=
  let destDir := (store.join (PurePath.parse moduleName)).join (PurePath.parse buildId)
  let (outcome, made) := disk.tree.mkdirParents (destDir.startFrom cwd) destDir.tail.reverse
  let withDirectories := made.foldl (fun disk directory => disk.putAt directory .directory) disk
  match outcome with
  | .error error => (.error error, withDirectories)
  | .ok () =>
    let dest := storeSymDest store moduleName buildId
    match withDirectories.tree.openForWriting (dest.startFrom cwd) dest.tail with
    | .error error => (.error error, withDirectories)
    | .ok location => (.ok dest, withDirectories.putAt location (.file (encodeUtf8 symText) now))

end Crashomon.Tools.Syms
