import Crashomon.Tools.Analyze
import Crashomon.Tools.Syms

/-! The lazy extraction of symbols from a sysroot, tools/crashomon_tools/analyze/analyze.py. -/

namespace Crashomon.Tools.Sysroot
open Python Analyze Syms

/-- `_run_dump_syms` by what subprocess.run makes of the command. -/
def dumpedOf : Walk → Except Raised (Option (Text × Text × Text))
  | .notFound => .ok none
  | .timedOut => .ok none
  | .refused => .error .osError
  | .garbled => .error .unicodeError
  | .exited returncode stdout => runDumpSyms returncode stdout

def raisedOf : OsError → Raised
  | .embeddedNull => .valueError
  | _ => .osError

/-- A run of dump_syms: the path it was looked up by, the file it was given, the disk at that time. -/
structure Call where
  candidate : PurePath
  binary : Location
  disk : Disk

/-- The runs of dump_syms in order; the disk after them, or what is raised. -/
structure Extraction where
  calls : List Call
  result : Except Raised Disk

/-- Nothing more is run once something is raised. -/
def Extraction.andThen (first : Extraction) (next : Disk → Extraction) : Extraction :=
  match first.result with
  | .error raised => ⟨first.calls, .error raised⟩
  | .ok after => ⟨first.calls ++ (next after).calls, (next after).result⟩

def basename (module : Text) : Text := (PurePath.parse module).name

/-- `sysroot / "usr" / "lib" / basename` -/
def candidateOf (sysroot : PurePath) (module : Text) : PurePath :=
  ((sysroot.join (PurePath.parse "usr".toList)).join (PurePath.parse "lib".toList)).join (PurePath.parse (basename module))

section Extract
variable (dumpSyms : Disk → Location → Walk) (now : Text → Nat) (cwd : Location) (sysroot store : PurePath)

/-- The body of the loop. The messages go to stderr. -/
def extractModule (module : Text) (disk : Disk) : Extraction :=
  let candidate := candidateOf sysroot module
  match disk.find cwd candidate with
  | .dangling _ => ⟨[], .ok disk⟩
  | _ =>
    match disk.resolve cwd candidate with
    | none => ⟨[], .error .osError⟩
    | some binary =>
      let call := ⟨candidate, binary, disk⟩
      match dumpedOf (dumpSyms disk binary) with
      | .error raised => ⟨[call], .error raised⟩
      | .ok none => ⟨[call], .ok disk⟩
      | .ok (some (modName, buildId, symText)) =>
        match storeSym disk cwd (now module) store modName buildId symText with
        | (.error error, _) => ⟨[call], .error (raisedOf error)⟩
        | (.ok _, after) => ⟨[call], .ok after⟩

def extractModules : List Text → Disk → Extraction
  | [], disk => ⟨[], .ok disk⟩
  | module :: modules, disk =>
    (extractModule dumpSyms now cwd sysroot store module disk).andThen fun after => extractModules modules after

/-- The modules are a set; its members come in any order. -/
def extractSysrootSymbols (modules : List Text) (disk : Disk) : Extraction :=
  extractModules dumpSyms now cwd sysroot store (modules.insertionSort fun name other => name ≤ other) disk

end Extract

end Crashomon.Tools.Sysroot
