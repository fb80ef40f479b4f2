import Crashomon.Daemon.DiskManager
import Crashomon.Daemon.MinidumpReader

/-! The minidump worker, daemon/worker.cpp. `World` is what one worker sees and
changes; what the system calls of one dump return is an input. -/

namespace Crashomon.Daemon.Worker
open Bytes DiskManager MinidumpReader

/-- Nanoseconds of the steady clock. -/
def kRateLimitWindow : Int := 30000000000
def kFaultAddrHexBufSize : Nat := 17
def kHexBase : Nat := 16

structure World where
  pending : List StoredFile
  exported : List StoredFile
  rateLimitMap : List (ByteString × Int)
  log : List ByteString

structure Setup where
  config : DiskManagerConfig
  exportPath : ByteString
  formatTombstone : MinidumpInfo → ByteString
  patchBuildIds : Bool
  sort : MtimeSort

/-- How the system answers while one dump is processed. -/
structure Circumstances where
  /-- The status of PatchMissingBuildIds and the bytes it left, where it rewrote the dump. -/
  patchStatus : Status
  rewritten : Option Buffer
  patchTime : Int
  readMinidump : StatusOr MinidumpInfo
  now : Int
  /-- The UTC time of the export as YYYYMMDDHHMMSS. -/
  timestamp : ByteString
  copied : Bool
  copyTime : Int
  pendingCalls : DirectoryCalls
  exportCalls : DirectoryCalls

def place (file : StoredFile) (files : List StoredFile) : List StoredFile := without file.path files ++ [file]

/-- The dump after the patch stage: rewriting moves its modification time. -/
def patchMinidump (setup : Setup) (call : Circumstances) (path : ByteString) (files : List StoredFile) : List StoredFile :=
  match setup.patchBuildIds, call.rewritten with
  | true, some data => files.map fun file => if file.path = path then ⟨path, data, call.patchTime⟩ else file
  | _, _ => files

/-- std::to_chars into a buffer of `capacity` characters, which must suffice. -/
def toChars (capacity value base : Nat) : Option ByteString :=
  if (digits base value).length ≤ capacity then some (digits base value) else none

def faultHex (faultAddr : UInt64) : ByteString := (toChars (kFaultAddrHexBufSize - 1) faultAddr.toNat kHexBase).getD []

def colon : UInt8 := 58

def rateLimitKey (info : MinidumpInfo) : ByteString :=
  info.processName ++ colon :: info.signalInfo ++ colon :: faultHex info.faultAddr

def Suppressed (world : World) (call : Circumstances) (info : MinidumpInfo) : Prop :=
  ∃ seen, world.rateLimitMap.lookup (rateLimitKey info) = some seen ∧ call.now - seen < kRateLimitWindow

instance (world : World) (call : Circumstances) (info : MinidumpInfo) : Decidable (Suppressed world call info) :=
  match found : world.rateLimitMap.lookup (rateLimitKey info) with
  | none => isFalse fun ⟨_, same, _⟩ => by rw [found] at same; cases same
  | some seen =>
    if recent : call.now - seen < kRateLimitWindow then isTrue ⟨seen, found, recent⟩
    else isFalse fun ⟨_, same, early⟩ => by rw [found] at same; cases same; exact recent early

def isDigit (chr : UInt8) : Bool := 48 ≤ chr ∧ chr ≤ 57
def isUpper (chr : UInt8) : Bool := 65 ≤ chr ∧ chr ≤ 90
def isLower (chr : UInt8) : Bool := 97 ≤ chr ∧ chr ≤ 122
def isAlnum (chr : UInt8) : Bool := isDigit chr || isUpper chr || isLower chr
def isXDigit (chr : UInt8) : Bool := isDigit chr || 65 ≤ chr && chr ≤ 70 || 97 ≤ chr && chr ≤ 102
def toLower (chr : UInt8) : UInt8 := if isUpper chr then chr + 32 else chr

def exportName (info : MinidumpInfo) (timestamp : ByteString) : ByteString :=
  let name := info.processName.map fun chr => if isAlnum chr || chr = 45 then chr else 95
  let rawId := (info.modules.head?.map ModuleInfo.buildId).getD []
  let bid := ((rawId.filter isXDigit).take 8).map toLower
  name ++ ascii "_" ++ timestamp ++ ascii "_" ++ (bid ++ List.replicate (8 - bid.length) 48) ++ ascii ".crashdump"

/-- The copy overwrites; its failure is only logged. -/
def exportMinidump (call : Circumstances) (exportPath path : ByteString) (info : MinidumpInfo) (world : World) : World :=
  match call.copied, world.pending.find? fun file => file.path = path with
  | true, some file =>
    { world with exported := place ⟨exportPath ++ slash :: exportName info call.timestamp, file.data, call.copyTime⟩ world.exported }
  | _, _ => world

def reportMinidump (setup : Setup) (call : Circumstances) (path : ByteString) (world : World) : World :=
  match call.readMinidump with
  | .error _ => world
  | .ok info =>
    if Suppressed world call info then world
    else
      let logged := { world with
        rateLimitMap := (rateLimitKey info, call.now) :: world.rateLimitMap.filter fun entry => entry.1 ≠ rateLimitKey info
        log := world.log ++ [setup.formatTombstone info] }
      if setup.exportPath = [] then logged else exportMinidump call setup.exportPath path info logged

def pruneWorld (setup : Setup) (call : Circumstances) (world : World) : World :=
  let pruned := pruneMinidumps setup.sort setup.config call.pendingCalls call.exportCalls world.pending world.exported
  { world with pending := pruned.2.1, exported := pruned.2.2 }

/-- One dump, in the order of the source: patch, report, prune. -/
def processNewMinidump (setup : Setup) (call : Circumstances) (path : ByteString) (world : World) : World :=
  let patched := { world with pending := patchMinidump setup call path world.pending }
  pruneWorld setup call (reportMinidump setup call path patched)

def processAll (setup : Setup) (calls : List (ByteString × Circumstances)) (world : World) : World :=
  calls.foldl (fun current (path, call) => processNewMinidump setup call path current) world

end Crashomon.Daemon.Worker
