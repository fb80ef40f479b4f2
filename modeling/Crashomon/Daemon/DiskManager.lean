import Mathlib.Algebra.Order.Ring.Int
import Mathlib.Data.List.Sort
import Crashomon.Base.Bytes
import Crashomon.Daemon.Status

/-! Pruning of the pending and export directories, daemon/disk_manager.cpp. The
calls on a directory may fail entry by entry; the outcomes are an input. -/

namespace Crashomon.Daemon.DiskManager
open Bytes

structure StoredFile where
  path : ByteString
  data : Buffer
  mtime : Int
  deriving DecidableEq, Repr

structure DiskManagerConfig where
  dbPath : ByteString
  /-- Empty when nothing is exported. -/
  exportPath : ByteString
  maxBytes : Nat
  maxAgeSeconds : Nat
  deriving Repr

/-- How the system answers for a directory and its entries. -/
structure DirectoryCalls where
  isDirectory : Bool
  iterates : Bool
  /-- Nothing where the call fails and sets the error code. -/
  isRegularFile : ByteString → Option Bool
  stat : ByteString → Bool
  remove : ByteString → Bool
  time : Int
  message : ByteString

def slash : UInt8 := 47
def dot : UInt8 := 46

def filename (path : ByteString) : ByteString := (path.reverse.takeWhile (· ≠ slash)).reverse

/-- `path.extension()`: from the last dot of the file name on, unless that is its first character. -/
def extension (path : ByteString) : ByteString :=
  let name := filename path
  let suffix := (name.reverse.takeWhile (· ≠ dot)).reverse
  if name = [dot, dot] ∨ name.length ≤ suffix.length + 1 then [] else dot :: suffix

def replaceExtension (path ext : ByteString) : ByteString := path.take (path.length - (extension path).length) ++ ext

/-- A CrashReport, whose sidecar is the .meta file, or an ExportFile without one. -/
structure Report where
  path : ByteString
  metaPath : Option ByteString
  size : Nat
  mtime : Int
  deriving DecidableEq, Repr

/-- The listing loop. The error code is shared: once a call sets it, the next turn breaks. -/
def listEntries (calls : DirectoryCalls) (ext : ByteString) : (err : Bool) → List StoredFile → List StoredFile × Bool
  | err, [] => ([], err)
  | true, _ :: _ => ([], true)
  | false, entry :: rest =>
    match calls.isRegularFile entry.path with
    | none => listEntries calls ext true rest
    | some false => listEntries calls ext false rest
    | some true =>
      if extension entry.path = ext ∧ calls.stat entry.path then
        (entry :: (listEntries calls ext false rest).1, (listEntries calls ext false rest).2)
      else listEntries calls ext false rest

/-- std::ranges::sort by modification time, which orders equal times as it likes. -/
structure MtimeSort where
  apply : List Report → List Report
  perm : ∀ reports, (apply reports).Perm reports
  sorted : ∀ reports, (apply reports).Pairwise fun older newer => older.mtime ≤ newer.mtime

def stableSort : MtimeSort where
  apply reports := reports.insertionSort fun older newer => older.mtime ≤ newer.mtime
  perm reports := List.perm_insertionSort _ reports
  sorted reports := by
    have total : Std.Total fun (older newer : Report) => older.mtime ≤ newer.mtime := ⟨fun first second => Int.le_total _ _⟩
    have transitive : IsTrans Report fun older newer => older.mtime ≤ newer.mtime := ⟨fun _ _ _ => Int.le_trans⟩
    exact List.pairwise_insertionSort _ reports

def listFiles (sort : MtimeSort) (calls : DirectoryCalls) (dir ext : ByteString) (report : StoredFile → Report)
    (files : List StoredFile) : StatusOr (List Report) :=
  if ¬ calls.isDirectory then .error (notFoundError (ascii "Not a directory: " ++ dir))
  else
    let (entries, err) := listEntries calls ext (¬ calls.iterates) files
    if err then .error (internalError (ascii "directory_iterator error for " ++ dir ++ ascii ": " ++ calls.message))
    else .ok (sort.apply (entries.map report))

def crashReport (file : StoredFile) : Report :=
  ⟨file.path, some (replaceExtension file.path (ascii ".meta")), file.data.length, file.mtime⟩

def exportFile (file : StoredFile) : Report := ⟨file.path, none, file.data.length, file.mtime⟩

def listCrashReports (sort : MtimeSort) (calls : DirectoryCalls) (dir : ByteString) (files : List StoredFile) :
    StatusOr (List Report) :=
  listFiles sort calls dir (ascii ".dmp") crashReport files

def listExportFiles (sort : MtimeSort) (calls : DirectoryCalls) (dir ext : ByteString) (files : List StoredFile) :
    StatusOr (List Report) :=
  listFiles sort calls dir ext exportFile files

/-- The value an unsigned 64-bit register holds for an exact result. -/
def u64 (value : Int) : Nat := (value % 2 ^ 64).toNat

def totalBytes (reports : List Report) : Nat := u64 (reports.map fun report => (report.size : Int)).sum

def OverSize (config : DiskManagerConfig) (total : Nat) : Prop := 0 < config.maxBytes ∧ config.maxBytes < total

def OverAge (config : DiskManagerConfig) (now mtime : Int) : Prop :=
  0 < config.maxAgeSeconds ∧ mtime < now ∧ config.maxAgeSeconds < now - mtime

instance (config : DiskManagerConfig) (total : Nat) : Decidable (OverSize config total) :=
  inferInstanceAs (Decidable (_ ∧ _))

instance (config : DiskManagerConfig) (now mtime : Int) : Decidable (OverAge config now mtime) :=
  inferInstanceAs (Decidable (_ ∧ _ ∧ _))

def without (path : ByteString) (files : List StoredFile) : List StoredFile := files.filter fun file => file.path ≠ path

/-- Whether `std::filesystem::remove` reports success: the file is there and the call works. -/
def removable (calls : DirectoryCalls) (report : Report) (files : List StoredFile) : Bool :=
  calls.remove report.path ∧ files.any fun file => file.path = report.path

/-- A report and its sidecar are gone; removing the sidecar is best-effort. -/
def removeReport (calls : DirectoryCalls) (report : Report) (files : List StoredFile) : List StoredFile :=
  match report.metaPath with
  | some sidecar => if calls.remove sidecar then without sidecar (without report.path files) else without report.path files
  | none => without report.path files

def pruneReports (config : DiskManagerConfig) (calls : DirectoryCalls) :
    List Report → (total : Nat) → List StoredFile → Status × List StoredFile
  | [], _, files => (.ok (), files)
  | report :: rest, total, files =>
    if ¬ OverSize config total ∧ ¬ OverAge config calls.time report.mtime then pruneReports config calls rest total files
    else if ¬ removable calls report files then
      (.error (internalError (ascii "Failed to remove " ++ report.path ++ ascii ": " ++ calls.message)), files)
    else pruneReports config calls rest (u64 (total - report.size)) (removeReport calls report files)

def pruneDir (config : DiskManagerConfig) (calls : DirectoryCalls) (listed : StatusOr (List Report)) (files : List StoredFile) : Status × List StoredFile :=
  if config.maxBytes = 0 ∧ config.maxAgeSeconds = 0 then (.ok (), files)
  else match listed with
    | .error failure => (.error failure, files)
    | .ok reports => pruneReports config calls reports (totalBytes reports) files

def pendingDir (config : DiskManagerConfig) : ByteString := config.dbPath ++ ascii "/pending"

def prunePendingDir (sort : MtimeSort) (config : DiskManagerConfig) (calls : DirectoryCalls)
    (files : List StoredFile) : Status × List StoredFile :=
  pruneDir config calls (listCrashReports sort calls (pendingDir config) files) files

def pruneExportDir (sort : MtimeSort) (config : DiskManagerConfig) (calls : DirectoryCalls)
    (files : List StoredFile) : Status × List StoredFile :=
  pruneDir config calls (listExportFiles sort calls config.exportPath (ascii ".crashdump") files) files

/-- The status and the contents of both directories; a missing pending directory is no error. -/
def pruneMinidumps (sort : MtimeSort) (config : DiskManagerConfig) (pendingCalls exportCalls : DirectoryCalls)
    (pending exported : List StoredFile) : Status × List StoredFile × List StoredFile :=
  let (status, kept) := prunePendingDir sort config pendingCalls pending
  let (exportStatus, remaining) :=
    if config.exportPath = [] then (.ok (), exported) else pruneExportDir sort config exportCalls exported
  match status with
  | .ok _ => (exportStatus, kept, remaining)
  | .error failure => if failure.code = .notFound then (exportStatus, kept, remaining) else (.error failure, kept, exported)

def getTotalMinidumpSize (sort : MtimeSort) (config : DiskManagerConfig) (calls : DirectoryCalls)
    (files : List StoredFile) : StatusOr Nat :=
  match listCrashReports sort calls (pendingDir config) files with
  | .error _ => .ok 0
  | .ok reports => .ok (totalBytes reports)

end Crashomon.Daemon.DiskManager
