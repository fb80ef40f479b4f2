import Crashomon.Base.Effects
import Crashomon.Base.PathText
import Crashomon.Web.SymbolStore

/-! Importing an archive of symbol files, web/symbol_store.py. -/

namespace Crashomon.Web.SymbolArchive
open Python SymbolStore Effects

/-- What `_safe_member_path` returns: a path, or None where it escapes; nothing where `resolve` raises. -/
def safeMemberPath (disk : Disk) (cwd : Location) (base : PurePath) (memberName : Text) : Option (Option Location) := do
  let candidate ← disk.resolve cwd (base.join (PurePath.parse memberName))
  let root ← disk.resolve cwd base
  some (if (root.str ++ ['/']).isPrefixOf candidate.str ∨ candidate = root then some candidate else none)

/-- `MAX_ARCHIVE_BYTES` -/
def maxArchiveBytes : Nat := 512 * 1024 * 1024

structure ZipInfo where
  filename : Text
  fileSize : Nat

structure TarInfo where
  name : Text
  size : Int
  isSym : Bool
  isDev : Bool

/-- What the zip and the tar library raise. -/
inductive LibraryError where
  | badZipFile (text : Text)
  | tarError (text : Text)
  | os (text : Text)
  | other (text : Text)
  deriving DecidableEq, Repr

/-- What the code uses of the two libraries, and the removal of a temporary directory; an extraction and a removal leave
a disk, also where they raise. -/
structure Libraries where
  infolist : Disk → (cwd : Location) → (archive : PurePath) → Except LibraryError (List ZipInfo)
  extract : Disk → (cwd : Location) → (archive : PurePath) → ZipInfo → (dest : PurePath) → Option LibraryError × Disk
  getmembers : Disk → (cwd : Location) → (archive : PurePath) → (mode : Text) → Except LibraryError (List TarInfo)
  extractall : Disk → (cwd : Location) → (archive : PurePath) → (dest : PurePath) → List TarInfo → Option LibraryError × Disk
  cleanup : Disk → Location → Option LibraryError × Disk

inductive ArchiveError where
  | valueError (text : Text)
  | runtimeError (text : Text)
  /-- What `resolve` raises for the name of a member. -/
  | resolve (memberName : Text)
  /-- RecursionError, which is a RuntimeError. -/
  | recursion
  | library (error : LibraryError)
  deriving DecidableEq, Repr

abbrev Archiving (α : Type) := Effect Disk ArchiveError α

/-- Whether a member stays inside, looked up on the disk as it is. -/
def staysInside (cwd : Location) (dest : PurePath) (memberName : Text) : Archiving Bool := fun disk =>
  (((safeMemberPath disk cwd dest memberName).elim (.error (.resolve memberName)) fun path => .ok path.isSome), disk)

/-- A call of a library that changes the disk. -/
def calling (call : Disk → Option LibraryError × Disk) : Archiving Unit := fun disk =>
  ((call disk).1.elim (.ok ()) fun error => .error (.library error), (call disk).2)

/-- Opening an archive and listing it. -/
def listing {Member : Type} (list : Disk → Except LibraryError (List Member)) : Archiving (List Member) := fun disk =>
  ((list disk).mapError .library, disk)

def tooLarge : ArchiveError := .valueError "archive too large".toList

section Extraction
variable (libraries : Libraries) (cwd : Location) (archive dest : PurePath)

/-- A turn of the loop of `_extract_zip`, from the total so far to the next. -/
def extractMember (total : Nat) (info : ZipInfo) : Archiving Nat :=
  if maxArchiveBytes < total + info.fileSize then throw tooLarge
  else do
    let inside ← staysInside cwd dest info.filename
    if inside then
      calling fun disk => libraries.extract disk cwd archive info dest
      pure (total + info.fileSize)
    else pure (total + info.fileSize)

def extractZip : Archiving Unit := do
  let members ← listing fun disk => libraries.infolist disk cwd archive
  let _ ← members.foldlM (extractMember libraries cwd archive dest) 0

/-- A turn of the loop of `_extract_tar`, from the total and the safe members so far to the next. -/
def collectMember (collected : Int × List TarInfo) (member : TarInfo) : Archiving (Int × List TarInfo) :=
  if member.isSym || member.isDev then pure collected
  else if (maxArchiveBytes : Int) < collected.1 + member.size then throw tooLarge
  else do
    let inside ← staysInside cwd dest member.name
    pure (collected.1 + member.size, if inside then collected.2 ++ [member] else collected.2)

def extractTar (compression : Text) : Archiving Unit := do
  let members ← listing fun disk => libraries.getmembers disk cwd archive ("r:".toList ++ compression)
  let collected ← members.foldlM (collectMember cwd dest) (0, [])
  calling fun disk => libraries.extractall disk cwd archive dest collected.2

end Extraction

inductive Format where
  | zip
  | tar (compression : Text)
  deriving DecidableEq, Repr

/-- Letters outside ASCII have no lower case that makes one of these endings. -/
def formatOf (name : Text) : Option Format :=
  let nameLower := name.map Char.toLower
  if ".zip".toList.isSuffixOf nameLower then some .zip
  else if ".tar.gz".toList.isSuffixOf nameLower ∨ ".tgz".toList.isSuffixOf nameLower then some (.tar "gz".toList)
  else if ".tar.bz2".toList.isSuffixOf nameLower then some (.tar "bz2".toList)
  else none

/-- `except (zipfile.BadZipFile, tarfile.TarError, OSError)` -/
def unreadable (name : Text) : ArchiveError → ArchiveError
  | .library (.badZipFile text) => .runtimeError ("failed to read archive ".toList ++ name ++ ": ".toList ++ text)
  | .library (.tarError text) => .runtimeError ("failed to read archive ".toList ++ name ++ ": ".toList ++ text)
  | .library (.os text) => .runtimeError ("failed to read archive ".toList ++ name ++ ": ".toList ++ text)
  | error => error

def extractArchive (libraries : Libraries) (cwd : Location) (archive dest : PurePath) : Format → Archiving Unit
  | .zip => ExceptT.adapt (unreadable archive.name) (extractZip libraries cwd archive dest)
  | .tar compression => ExceptT.adapt (unreadable archive.name) (extractTar libraries cwd archive dest compression)

/-- A name that is new in the directory for temporary files. -/
structure TempDir (disk : Disk) (cwd : Location) where
  parent : PurePath
  here : Location
  name : Text
  found : disk.find cwd parent = .directory here
  proper : IsName name
  fresh : disk.node (here ++ [name]) = none

namespace TempDir
variable {disk : Disk} {cwd : Location} (temporary : TempDir disk cwd)

def path : PurePath := temporary.parent.child temporary.name

def location : Location := temporary.here ++ [temporary.name]

/-- The disk with the directory on it. -/
def entered : Disk := disk.put temporary.here temporary.name .directory

end TempDir

/-- Universal newlines. -/
def universalNewlines : Text → Text
  | '\r' :: '\n' :: rest => '\n' :: universalNewlines rest
  | '\r' :: rest => '\n' :: universalNewlines rest
  | character :: rest => character :: universalNewlines rest
  | [] => []

inductive FileError where
  /-- `read_text` raises. -/
  | unreadable
  | store (error : StoreError)
  deriving DecidableEq, Repr

/-- `read_text(encoding="utf-8", errors="replace")` -/
def readText (disk : Disk) (cwd : Location) (path : PurePath) : Option Text :=
  (disk.read cwd path).map fun content => universalNewlines (decodeUtf8 content)

/-- The nested calls of `Path.mkdir` that make a directory with its parents: a call for a name whose parent is missing calls
for the parent. -/
def mkdirCalls (tree : FileTree) (start : Location) : List Text → Nat
  | [] => 1
  | name :: above =>
    match tree.makeDirectory start (name :: above).reverse with
    | .error .fileNotFound => mkdirCalls tree start above + 1
    | _ => 1

/-- Storing a text takes more nested calls than the interpreter has room for. They all come before the first directory. -/
def TooDeep (limit : Nat) (tree : FileTree) (cwd : Location) (storePath symText : Text) : Prop :=
  ∃ module ∈ (parseModuleLine symText).toOption,
    let destDir := destDirOf storePath module.1 module.2
    limit < mkdirCalls tree (startOf cwd destDir) destDir.tail.reverse

instance (limit : Nat) (tree : FileTree) (cwd : Location) (storePath symText : Text) : Decidable (TooDeep limit tree cwd storePath symText) :=
  inferInstanceAs (Decidable (∃ module ∈ (parseModuleLine symText).toOption, _))

/-- Reading a file and storing its text; the time is that of the write. `except (ValueError, OSError)` lets a RecursionError out. -/
def importFile (limit : Nat) (cwd : Location) (storePath : Text) (now : Nat) (symFile : PurePath) : Archiving (Except FileError PurePath) :=
  fun disk =>
    match readText disk cwd symFile with
    | none => (.ok (.error .unreadable), disk)
    | some text =>
      if TooDeep limit disk.tree cwd storePath text then (.error .recursion, disk)
      else
        let outcome := addSymText disk.tree cwd storePath text
        (.ok (outcome.result.mapError .store), outcome.onto disk now)

abbrev Report := List PurePath × List (Text × FileError)

/-- What one file adds to the stored paths or to the errors. -/
def Report.add (report : Report) (symFile : PurePath) : Except FileError PurePath → Report
  | .ok dest => (report.1 ++ [dest], report.2)
  | .error error => (report.1, report.2 ++ [(symFile.name, error)])

/-- A turn of the loop over the symbol files. -/
def storeFile (limit : Nat) (cwd : Location) (storePath : Text) (now : PurePath → Nat) (report : Report) (symFile : PurePath) :
    Archiving Report := do
  let result ← importFile limit cwd storePath (now symFile) symFile
  pure (report.add symFile result)

/-- `tmp.glob("**/*.sym")` -/
def globSym (disk : Disk) (cwd : Location) (tmp : PurePath) : List PurePath :=
  (disk.rglob cwd tmp).filter fun path => ".sym".toList.isSuffixOf path.name

def storeFiles (limit : Nat) (cwd : Location) (storePath : Text) (now : PurePath → Nat) (tmp : PurePath) : Archiving Report := fun disk =>
  let symFiles := globSym disk cwd tmp
  if symFiles = [] then (.error (.valueError "no .sym files in archive".toList), disk)
  else symFiles.foldlM (storeFile limit cwd storePath now) ([], []) disk

/-- What `add_archive` returns or raises, and the disk after it. Whatever the body comes to, the temporary directory is removed. -/
def addArchive (libraries : Libraries) (limit : Nat) (disk : Disk) (cwd : Location) (temporary : TempDir disk cwd)
    (storePath archivePath : Text) (now : PurePath → Nat) : Except ArchiveError Report × Disk :=
  let archive := PurePath.parse archivePath
  match formatOf archive.name with
  | none => (.error (.valueError ("unsupported archive format: ".toList ++ archive.name)), disk)
  | some format =>
    let body : Archiving Report := do
      extractArchive libraries cwd archive temporary.path format
      storeFiles limit cwd storePath now temporary.path
    let (result, after) := body temporary.entered
    let (raised, last) := libraries.cleanup after temporary.location
    (raised.elim result fun error => .error (.library error), last)

end Crashomon.Web.SymbolArchive
