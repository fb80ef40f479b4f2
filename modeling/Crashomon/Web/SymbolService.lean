import Crashomon.Tools.Analyze
import Crashomon.Web.CrashUpload
import Crashomon.Web.SymbolRoutes

/-! The routes of web/app.py over the symbol store, on the disk that has the store and the directory for
uploaded files, and `add_binary` of web/symbol_store.py. Archives are left to the import of archives. -/

namespace Crashomon.Web.SymbolService
open Python FileTree SymbolStore SymbolRoutes CrashUpload Tools.Analyze

/-- What the routes run on. -/
structure Site where
  cwd : Location
  storePath : Text
  /-- `app.config["DB_PATH"].parent` -/
  dbParent : Text
  secureFilename : Text → Text
  interpreter : Interpreter
  dumpSyms : Text
  /-- What subprocess.run makes of dump_syms for a binary at a path. -/
  walk : (binary : PurePath) → (content : List UInt8) → Walk
  /-- The text of a FileNotFoundError of the system. -/
  notFoundText : Text

/-- An exception, by the classes that the routes tell apart. -/
inductive Thrown where
  | value (message : Text)
  | runtime (message : Text)
  | fileNotFound (message : Text)
  | other
  deriving DecidableEq, Repr

/-- `f"{text!r}"` -/
def quoted (site : Site) (text : Text) : Text := site.interpreter.repr (.str (pyStr text))

def thrownOf (site : Site) : StoreError → Thrown
  | .invalidModuleLine firstLine => .value ("Invalid MODULE line: ".toList ++ quoted site firstLine)
  | .os .embeddedNull => .value "embedded null byte".toList
  | .os .fileNotFound => .fileNotFound site.notFoundText
  | .os _ => .other

section Calls
variable (site : Site) (now : Nat)

/-- `path.mkdir(parents=True, exist_ok=True)` -/
def mkdir (path : PurePath) (disk : Disk) : Except OsError Unit × Disk :=
  let (outcome, made) := disk.tree.mkdirParents (path.startFrom site.cwd) path.tail.reverse
  (outcome, made.foldl (fun disk directory => disk.putAt directory .directory) disk)

/-- `file.save(path)` -/
def save (path : PurePath) (content : List UInt8) (disk : Disk) : Except OsError Unit × Disk :=
  match disk.tree.openForWriting (path.startFrom site.cwd) path.tail with
  | .error error => (.error error, disk)
  | .ok location => (.ok (), disk.putAt location (.file content now))

/-- `(directory / name).unlink(missing_ok=True)`, where the name is a single one. -/
def unlink (directory : PurePath) (name : Text) (disk : Disk) : Except OsError Unit × Disk :=
  match disk.find site.cwd directory with
  | .directory here =>
    match disk.node (here ++ [name]) with
    | some .directory => (.error .isADirectory, disk)
    | some _ => (.ok (), disk.remove (here ++ [name]))
    | none => (.ok (), disk)
  | .file _ => (.error .notADirectory, disk)
  | .dangling _ => (.ok (), disk)

def addSym (symText : Text) (disk : Disk) : Except Thrown PurePath × Disk :=
  let outcome := addSymText disk.tree site.cwd site.storePath symText
  (outcome.result.mapError (thrownOf site), outcome.onto disk now)

/-- The text that dump_syms prints for a binary. -/
def dumped (binary : PurePath) (content : List UInt8) : Except Thrown Text :=
  match site.walk binary content with
  | .notFound => .error (.runtime ("dump_syms not found: ".toList ++ quoted site site.dumpSyms))
  | .timedOut => .error (.runtime ("dump_syms timed out for ".toList ++ binary.str))
  | .refused => .error .other
  | .garbled => .error .other
  | .exited returncode stdout =>
    if returncode ≠ 0 ∨ stdout = [] then
      .error (.runtime ("dump_syms failed for ".toList ++ binary.str ++ " (exit ".toList ++ formatInt 10 0 returncode ++ ")".toList))
    else .ok stdout

def addBinary (binary : PurePath) (disk : Disk) : Except Thrown PurePath × Disk :=
  match disk.find site.cwd binary with
  | .dangling _ => (.error (.fileNotFound ("binary not found: ".toList ++ binary.str)), disk)
  | _ =>
    match dumped site binary ((disk.read site.cwd binary).getD []) with
    | .error thrown => (.error thrown, disk)
    | .ok stdout => addSym site now stdout disk

end Calls

/-- `str(path.relative_to(base))` -/
def relativeTo (site : Site) (path base : PurePath) : Except Thrown Text :=
  if path.root = base.root ∧ base.tail <+: path.tail then .ok (PurePath.str ⟨[], path.tail.drop base.tail.length⟩)
  else .error (.value (quoted site path.str ++ " is not in the subpath of ".toList ++ quoted site base.str))

inductive Request where
  | apiUploadSymbols (sym binary : Option Upload)
  | uploadSymbols (binary : Option Upload)
  | symbols
  | serveSymbol (module buildId filename : Text)
  | deleteSymbol (module buildId : Text)

inductive Response where
  /-- 201 with `{"status": "ok"}` and the stored path. -/
  | created (stored : Text)
  /-- `{"status": "error"}` with a message. -/
  | refused (status : Nat) (message : Text)
  /-- A redirect to the list, with a message. -/
  | toSymbols (flashed : Option Text)
  | list (entries : List SymbolEntry)
  | sent (content : List UInt8)
  | aborted (status : Nat)
  /-- An exception that is not caught. -/
  | serverError
  deriving DecidableEq, Repr

/-- `app.config["DB_PATH"].parent / "tmp"` -/
def tmpDir (site : Site) : PurePath := (PurePath.parse site.dbParent).join (PurePath.parse "tmp".toList)

section Routes
variable (site : Site) (now : Nat)

/-- A binary goes through a file of its name, which the finally clause removes; `answer` makes the response of the call
that has it. Exceptions of the save and of the removal are not caught. -/
def throughFile (safeName : Text) (data : List UInt8) (answer : Except Thrown PurePath → Response) (disk : Disk) : Response × Disk :=
  match mkdir site (tmpDir site) disk with
  | (.error _, made) => (.serverError, made)
  | (.ok (), made) =>
    let binPath := (tmpDir site).join (PurePath.parse safeName)
    match save site now binPath data made with
    | (.error _, saved) => (.serverError, saved)
    | (.ok (), saved) =>
      let (result, added) := addBinary site now binPath saved
      match unlink site (tmpDir site) safeName added with
      | (.error _, left) => (.serverError, left)
      | (.ok (), left) => (answer result, left)

/-- A stored path, or 400 for a ValueError. -/
def symResponse (result : Except Thrown PurePath) : Response :=
  match result.bind fun dest => relativeTo site dest (PurePath.parse site.storePath) with
  | .ok rel => .created rel
  | .error (.value message) => .refused 400 message
  | .error _ => .serverError

/-- A stored path, or 500 for a RuntimeError or a FileNotFoundError. -/
def binaryResponse (result : Except Thrown PurePath) : Response :=
  match result.bind fun dest => relativeTo site dest (PurePath.parse site.storePath) with
  | .ok rel => .created rel
  | .error (.runtime message) => .refused 500 message
  | .error (.fileNotFound message) => .refused 500 message
  | .error _ => .serverError

/-- The same exceptions become a message on the page. -/
def formResponse : Except Thrown PurePath → Response
  | .ok _ => .toSymbols none
  | .error (.runtime message) => .toSymbols (some ("Symbol extraction failed: ".toList ++ message))
  | .error (.fileNotFound message) => .toSymbols (some ("Symbol extraction failed: ".toList ++ message))
  | .error _ => .serverError

/-- A field without a file name counts as none. -/
def present (field : Option Upload) : Option Upload := field.filter fun file => file.filename ≠ []

def apiUploadSymbols (sym binary : Option Upload) (disk : Disk) : Response × Disk :=
  match present sym, present binary with
  | some symFile, _ =>
    let (result, after) := addSym site now (decodeUtf8 symFile.data) disk
    (symResponse site result, after)
  | none, some file =>
    let safeName := site.secureFilename file.filename
    if safeName = [] then (.refused 400 "invalid filename".toList, disk)
    else throughFile site now safeName file.data (binaryResponse site) disk
  | none, none => (.refused 400 "no file provided".toList, disk)

def uploadSymbols (binary : Option Upload) (disk : Disk) : Response × Disk :=
  match present binary with
  | some file =>
    let safeName := site.secureFilename file.filename
    if safeName = [] then (.toSymbols (some "Invalid filename.".toList), disk)
    else throughFile site now safeName file.data formResponse disk
  | none => (.toSymbols none, disk)

def servedResponse : SymbolRoutes.Response → Response
  | .sent _ content => .sent content
  | .aborted status => .aborted status
  | .raised => .serverError

def handle (disk : Disk) : Request → Response × Disk
  | .apiUploadSymbols sym binary => apiUploadSymbols site now sym binary disk
  | .uploadSymbols binary => uploadSymbols site now binary disk
  | .symbols => (.list (listSymbols disk site.cwd site.storePath), disk)
  | .serveSymbol module buildId filename => (servedResponse (SymbolRoutes.serveSymbol disk site.cwd site.storePath module buildId filename), disk)
  | .deleteSymbol module buildId =>
    match disk.resolve site.cwd (PurePath.parse site.storePath), disk.resolve site.cwd (destDirOf site.storePath module buildId) with
    | some _, some _ => (.toSymbols none, SymbolRoutes.deleteSymbol disk site.cwd site.storePath module buildId)
    | _, _ => (.serverError, disk)

end Routes

/-- The disk after requests at their times. -/
def after (site : Site) (disk : Disk) (requests : List (Nat × Request)) : Disk :=
  requests.foldl (fun disk request => (handle site request.1 disk request.2).2) disk

end Crashomon.Web.SymbolService
