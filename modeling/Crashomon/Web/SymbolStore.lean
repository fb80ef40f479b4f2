import Crashomon.Base.DiskLinks
import Crashomon.Base.PythonText
import Crashomon.Base.Utf8
import Mathlib.Data.Prod.Lex

/-! Storing, listing and finding symbol files, web/symbol_store.py. -/

namespace Crashomon.Web.SymbolStore
open Python

inductive StoreError where
  | invalidModuleLine (firstLine : Text)
  | os (error : OsError)
  deriving DecidableEq, Repr

def parseModuleLine (symText : Text) : Except StoreError (Text × Text) :=
  let firstLine := (splitlines symText).headD []
  match split firstLine with
  | keyword :: _ :: _ :: buildId :: moduleName :: _ =>
    if keyword = "MODULE".toList then .ok (moduleName, buildId) else .error (.invalidModuleLine firstLine)
  | _ => .error (.invalidModuleLine firstLine)

/-- What a call returns or raises, the directories it has made and the file it has written. -/
structure Outcome where
  result : Except StoreError PurePath
  made : List Location
  written : Option (Location × Text)
  deriving DecidableEq

def startOf (cwd : Location) (path : PurePath) : Location := if path.isAbsolute then [] else cwd

def destDirOf (storePath moduleName buildId : Text) : PurePath :=
  ((PurePath.parse storePath).join (PurePath.parse moduleName)).join (PurePath.parse buildId)

def destOf (storePath moduleName buildId : Text) : PurePath :=
  (destDirOf storePath moduleName buildId).join (PurePath.parse (moduleName ++ ".sym".toList))

def addSymText (tree : FileTree) (cwd : Location) (storePath symText : Text) : Outcome :=
  match parseModuleLine symText with
  | .error error => ⟨.error error, [], none⟩
  | .ok (moduleName, buildId) =>
    let destDir := destDirOf storePath moduleName buildId
    match tree.mkdirParents (startOf cwd destDir) destDir.tail.reverse with
    | (.error error, made) => ⟨.error (.os error), made, none⟩
    | (.ok (), made) =>
      let dest := destOf storePath moduleName buildId
      match (tree.adding made).openForWriting (startOf cwd dest) dest.tail with
      | .error error => ⟨.error (.os error), made, none⟩
      | .ok location => ⟨.ok dest, made, some (location, symText)⟩

/-- The disk after a call, which wrote the file in UTF-8. -/
def Outcome.onto (outcome : Outcome) (disk : Disk) (now : Nat) : Disk :=
  let withDirectories := outcome.made.foldl (fun disk directory => disk.putAt directory .directory) disk
  match outcome.written with
  | some (location, content) => withDirectories.putAt location (.file (encodeUtf8 content) now)
  | none => withDirectories

structure SymbolEntry where
  module : Text
  buildId : Text
  sizeBytes : Nat
  mtime : Nat
  deriving DecidableEq, Repr

def listSymbols (disk : Disk) (cwd : Location) (storePath : Text) : List SymbolEntry :=
  let store := PurePath.parse storePath
  (disk.sortedNames cwd store).flatMap fun module =>
    let moduleDir := store.child module
    (disk.sortedNames cwd moduleDir).filterMap fun buildId =>
      let buildDir := moduleDir.child buildId
      match disk.find cwd buildDir with
      | .directory _ =>
        let symFile := buildDir.child (module ++ ".sym".toList)
        (disk.stat cwd symFile).map fun (size, mtime) => ⟨module, buildId, size, mtime⟩
      | _ => none

inductive PruneError where
  /-- "keep must be >= 1" -/
  | keep
  | rmtree
  deriving DecidableEq, Repr

/-- The time of the .sym file and the build directory, where there is such a file. -/
def versionAt (disk : Disk) (cwd : Location) (moduleDir : PurePath) (module build : Text) : Option (Nat × Text) :=
  let buildDir := moduleDir.child build
  match disk.find cwd buildDir with
  | .directory _ =>
    let symFile := buildDir.child (module ++ ".sym".toList)
    (disk.stat cwd symFile).map fun (_, mtime) => (mtime, build)
  | _ => none

/-- `versions.sort()` -/
def versionsOf (disk : Disk) (cwd : Location) (moduleDir : PurePath) (module : Text) : List (Nat × Text) :=
  let versions : List (Nat × Text) := match disk.find cwd moduleDir with
    | .directory here => (disk.names here).filterMap (versionAt disk cwd moduleDir module)
    | _ => []
  versions.insertionSort fun older newer => toLex older ≤ toLex newer

/-- `versions[: max(0, len(versions) - keep)]` -/
def beyond (keep : Int) (versions : List (Nat × Text)) : List (Nat × Text) :=
  versions.take (max 0 ((versions.length : Int) - keep)).toNat

def pruneVersions (cwd : Location) (moduleDir : PurePath) (module : Text) :
    List (Nat × Text) → Disk → (removed : List Text) → Except PruneError (List Text) × Disk
  | [], disk, removed => (.ok removed, disk)
  | (_, build) :: versions, disk, removed =>
    match disk.rmtree cwd moduleDir build with
    | some after => pruneVersions cwd moduleDir module versions after (removed ++ [module ++ '/' :: build])
    | none => (.error .rmtree, disk)

def pruneModules (cwd : Location) (store : PurePath) (keep : Int) :
    List Text → Disk → (removed : List Text) → Except PruneError (List Text) × Disk
  | [], disk, removed => (.ok removed, disk)
  | module :: modules, disk, removed =>
    let moduleDir := store.child module
    match disk.find cwd moduleDir with
    | .directory _ =>
      match pruneVersions cwd moduleDir module (beyond keep (versionsOf disk cwd moduleDir module)) disk removed with
      | (.ok removed, after) => pruneModules cwd store keep modules after removed
      | failed => failed
    | _ => pruneModules cwd store keep modules disk removed

/-- What `prune` returns or raises, and the disk after it. -/
def prune (disk : Disk) (cwd : Location) (storePath : Text) (keep : Int) : Except PruneError (List Text) × Disk :=
  if keep < 1 then (.error .keep, disk)
  else
    let store := PurePath.parse storePath
    match disk.find cwd store with
    | .directory _ => pruneModules cwd store keep (disk.sortedNames cwd store) disk []
    | _ => (.ok [], disk)

def findSym (disk : Disk) (cwd : Location) (storePath module buildId : Text) : Option PurePath :=
  let sym := destOf storePath module buildId
  match disk.find cwd sym with
  | .dangling _ => none
  | _ => some sym

end Crashomon.Web.SymbolStore
