import Crashomon.Tools.Syms
import Crashomon.Web.SymbolStore

/-! The sysroot search and the commands of tools/crashomon_tools/syms/cli.py. -/

namespace Crashomon.Tools.SymsCli
open Web.SymbolStore

def defaultSysrootSearch : List Text := ["usr/lib".toList, "usr/lib64".toList, "lib".toList, "lib64".toList]

def isSharedObject (name : Text) : Bool := ".so".toList.isSuffixOf name || decide (".so.".toList <:+: name)

def elfMagic : List UInt8 := [0x7f, 0x45, 0x4c, 0x46]

/-- `f.read(4) == b"\x7fELF"`; a file that cannot be opened is passed over. -/
def startsWithMagic (disk : Disk) (real : Location) : Bool := (disk.fileAt real).any fun (content, _) => content.take 4 = elfMagic

def isFile (disk : Disk) (cwd : Location) (path : PurePath) : Bool :=
  match disk.find cwd path with
  | .file _ => true
  | _ => false

/-- The loop over the paths that are found: the files seen and the results, nothing where resolving raises. -/
def collectElfs (disk : Disk) (cwd : Location) : List PurePath → (seen results : List Location) → Option (List Location)
  | [], _, results => some results
  | path :: paths, seen, results =>
    if isSharedObject path.name && isFile disk cwd path then
      (disk.resolve cwd path).bind fun real =>
        if seen.contains real then collectElfs disk cwd paths seen results
        else collectElfs disk cwd paths (real :: seen) (if startsWithMagic disk real then results ++ [real] else results)
    else collectElfs disk cwd paths seen results

/-- What is found in one of the library directories or below it. -/
def libraryPaths (disk : Disk) (cwd : Location) (sysroot : PurePath) : List PurePath :=
  defaultSysrootSearch.flatMap fun rel =>
    let libDir := sysroot.join (PurePath.parse rel)
    match disk.find cwd libDir with
    | .directory _ => disk.rglob cwd libDir
    | _ => []

def iterSysrootElfs (disk : Disk) (cwd : Location) (sysroot : PurePath) : Option (List Location) :=
  (collectElfs disk cwd (libraryPaths disk cwd sysroot) [] []).map fun results =>
    results.insertionSort fun path other => path ≤ other

/-- The exit code, nothing where the command raises; the lines it prints; the disk after it. -/
structure Command where
  exitCode : Option Nat
  output : List Text
  disk : Disk

def removing (module build : Text) : Text := "  removing: ".toList ++ module ++ '/' :: build

def removeVersions (cwd : Location) (moduleDir : PurePath) (module : Text) :
    (toDelete : List (Nat × Text)) → Disk → (output : List Text) → Command
  | [], disk, output => ⟨some 0, output, disk⟩
  | (_, build) :: toDelete, disk, output =>
    match disk.rmtree cwd moduleDir build with
    | some after => removeVersions cwd moduleDir module toDelete after (output ++ [removing module build])
    | none => ⟨none, output ++ [removing module build], disk⟩

def pruneModuleDirs (cwd : Location) (store : PurePath) (keep : Int) : List Text → Disk → (output : List Text) → Command
  | [], disk, output => ⟨some 0, output, disk⟩
  | module :: modules, disk, output =>
    let moduleDir := store.child module
    match disk.find cwd moduleDir with
    | .directory _ =>
      let versions := versionsOf disk cwd moduleDir module
      let toDelete := versions.take (max 0 ((versions.length : Int) - keep)).toNat
      let done := removeVersions cwd moduleDir module toDelete disk output
      if done.exitCode = some 0 then pruneModuleDirs cwd store keep modules done.disk done.output else done
    | _ => pruneModuleDirs cwd store keep modules disk output

/-- Messages about the arguments go to stderr. -/
def cmdPrune (disk : Disk) (cwd : Location) (storeArg : Text) (keep : Int) : Command :=
  let store := PurePath.parse storeArg
  match disk.find cwd store with
  | .directory _ =>
    if keep < 1 then ⟨some 1, [], disk⟩ else pruneModuleDirs cwd store keep (disk.sortedNames cwd store) disk []
  | _ => ⟨some 1, [], disk⟩

/-- The ELF files below a directory, in the order of their paths. -/
def iterElfs (disk : Disk) (cwd : Location) (searchDir : PurePath) : List PurePath :=
  let results := (disk.rglob cwd searchDir).filter fun path =>
    match disk.find cwd path with
    | .file location => startsWithMagic disk location
    | _ => false
  results.insertionSort fun path other => path.tail ≤ other.tail

/-- How a run of dump_syms ends. -/
inductive Dump where
  | notFound
  | timedOut
  | ended (returncode : Int) (stdout : Text)

/-- `_run_dump_syms` -/
def Dump.parsed : Dump → Except Python.Raised (Option (Text × Text × Text))
  | .ended returncode stdout => Syms.runDumpSyms returncode stdout
  | _ => .ok none

/-- The arguments of `crashomon-syms add`; an option that is not given is empty. -/
structure AddArgs where
  sysroot : Text
  recursive : Text
  binaries : List Text

/-- The binaries to add, or the exit code where there are none. -/
def binariesOf (disk : Disk) (cwd : Location) (args : AddArgs) : Except (Option Nat) (List PurePath) :=
  if args.sysroot ≠ [] then
    match iterSysrootElfs disk cwd (PurePath.parse args.sysroot) with
    | none => .error none
    | some [] => .error (some 1)
    | some found => .ok (found.map fun location => ⟨['/'], location⟩)
  else if args.recursive ≠ [] then
    match iterElfs disk cwd (PurePath.parse args.recursive) with
    | [] => .error (some 1)
    | found => .ok found
  else if args.binaries = [] then .error (some 1)
  else .ok (args.binaries.map PurePath.parse)

def storedLine (shown : Text) : Text := "  stored: ".toList ++ shown

/-- `str(dest.relative_to(store))`, nothing where it raises. -/
def relativeTo (dest store : PurePath) : Option Text :=
  if dest.root = store.root ∧ store.tail <+: dest.tail then some (PurePath.str ⟨[], dest.tail.drop store.tail.length⟩) else none

/-- The loop over the binaries. dump_syms ends in some way on each of them, and the clock reads something then. -/
def addBinaries (cwd : Location) (store : PurePath) (dumpSyms : PurePath → Dump × Nat) :
    List PurePath → Disk → (errors : Nat) → (output : List Text) → Command
  | [], disk, errors, output => ⟨some (if errors = 0 then 0 else 1), output, disk⟩
  | binary :: binaries, disk, errors, output =>
    match disk.find cwd binary with
    | .dangling _ => addBinaries cwd store dumpSyms binaries disk (errors + 1) output
    | _ =>
      match (dumpSyms binary).1.parsed with
      | .error _ => ⟨none, output, disk⟩
      | .ok none => addBinaries cwd store dumpSyms binaries disk (errors + 1) output
      | .ok (some (moduleName, buildId, symText)) =>
        match Syms.storeSym disk cwd (dumpSyms binary).2 store moduleName buildId symText with
        | (.error _, after) => ⟨none, output, after⟩
        | (.ok dest, after) =>
          match relativeTo dest store with
          | none => ⟨none, output, after⟩
          | some shown => addBinaries cwd store dumpSyms binaries after errors (output ++ [storedLine shown])

def cmdAdd (disk : Disk) (cwd : Location) (storeArg : Text) (args : AddArgs) (dumpSyms : PurePath → Dump × Nat) : Command :=
  let store := PurePath.parse storeArg
  let (outcome, made) := disk.tree.mkdirParents (store.startFrom cwd) store.tail.reverse
  let withStore := made.foldl (fun disk directory => disk.putAt directory .directory) disk
  match outcome with
  | .error _ => ⟨none, [], withStore⟩
  | .ok () =>
    match binariesOf withStore cwd args with
    | .error exitCode => ⟨exitCode, [], withStore⟩
    | .ok binaries => addBinaries cwd store dumpSyms binaries withStore 0 []

def listLine (module build : Text) (size : Nat) : Text :=
  "  ".toList ++ module ++ '/' :: build ++ "  (".toList ++ Nat.toDigits 10 (size / 1024) ++ " KB)".toList

/-- The line of a version, where there is a .sym file. -/
def lineAt (disk : Disk) (cwd : Location) (moduleDir : PurePath) (module build : Text) : Option Text :=
  let buildDir := moduleDir.child build
  match disk.find cwd buildDir with
  | .directory _ => (disk.stat cwd (buildDir.child (module ++ ".sym".toList))).map fun stat => listLine module build stat.1
  | _ => none

def cmdList (disk : Disk) (cwd : Location) (storeArg : Text) : Command :=
  let store := PurePath.parse storeArg
  match disk.find cwd store with
  | .directory _ =>
    let lines := (disk.sortedNames cwd store).flatMap fun module =>
      (disk.sortedNames cwd (store.child module)).filterMap (lineAt disk cwd (store.child module) module)
    ⟨some 0, if lines = [] then ["  (no symbols stored)".toList] else lines, disk⟩
  | _ => ⟨some 1, [], disk⟩

end Crashomon.Tools.SymsCli
