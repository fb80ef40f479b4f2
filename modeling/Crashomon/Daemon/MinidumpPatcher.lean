import Crashomon.Base.Memory
import Crashomon.Base.Text
import Crashomon.Daemon.Status

/-! The daemon's build-ID patcher, daemon/minidump_patcher.cpp. Offsets of type
size_t are natural numbers, sums of uint32_t operands go through `u32`, and
every access to the vector's storage goes through the checked memory. -/

namespace Crashomon.Daemon.MinidumpPatcher
open Bytes Memory

def kMdmpSignature : Nat := 0x504D444D
def kModuleListStream : Nat := 4
def kBpElSignature : Nat := 0x4270454C
def kModuleSize : Nat := 108
def kModNameRvaOff : Nat := 20
def kModCvDataSizeOff : Nat := 76
def kModCvRvaOff : Nat := 80
def kDirEntrySize : Nat := 12
def kXorHashSize : Nat := 16

def readU32 (buf : Buffer) (off : Nat) : Checked Nat :=
  if off + 4 > buf.length then .ok 0
  else do
    let bytes ← load buf off 4
    .ok (leValue bytes)

def writeU32 (buf : Buffer) (off val : Nat) : Checked Buffer :=
  if off + 4 > buf.length then .ok buf
  else store buf off (le32 val)

/-- The loop over the UTF-16 units of a name. Its index `rva + 4 + i` is a
32-bit sum; units outside ASCII and NUL units are dropped. -/
def readModuleNameUnits (buf : Buffer) (rva : Nat) : (units i : Nat) → Text → Checked Text
  | 0, _, path => .ok path
  | units + 1, i, path => do
    let lo ← loadByte buf (u32 (rva + 4 + i))
    let hi ← loadByte buf (u32 (rva + 4 + i + 1))
    let ch := lo.toNat ||| hi.toNat <<< 8
    readModuleNameUnits buf rva units (i + 2)
      (if ch < 128 ∧ ch ≠ 0 then path ++ [Char.ofNat ch] else path)

def readModuleName (buf : Buffer) (rva : Nat) : Checked Text :=
  if rva = 0 ∨ u32 (rva + 4) > buf.length then .ok []
  else do
    let len ← readU32 buf rva
    if len = 0 ∨ len % 2 ≠ 0 ∨ u32 (rva + 4 + len) > buf.length then .ok []
    else readModuleNameUnits buf rva (len / 2) 0 []

/-- Scan the stream directory for the first module list; 0 when there is none. -/
def findModuleStream (buf : Buffer) (dirRva : Nat) : (remaining i : Nat) → Checked Nat
  | 0, _ => .ok 0
  | remaining + 1, i =>
    let entryOff := dirRva + i * kDirEntrySize
    if entryOff + kDirEntrySize > buf.length then .ok 0
    else do
      let streamType ← readU32 buf entryOff
      if streamType = kModuleListStream then readU32 buf (entryOff + 8)
      else findModuleStream buf dirRva remaining (i + 1)

/-- `ComputeElfBuildId` by path: the build ID of the ELF file there, empty on failure. -/
abbrev ElfLookup := Text → List UInt8

/-- The loop body for the module record at `modOff`: the patched buffer, or
nothing where the source continues with the next record. -/
def patchModule (elf : ElfLookup) (buf : Buffer) (modOff : Nat) : Checked (Option Buffer) := do
  let nameRva ← readU32 buf (modOff + kModNameRvaOff)
  let cvSize ← readU32 buf (modOff + kModCvDataSizeOff)
  let cvRva ← readU32 buf (modOff + kModCvRvaOff)
  if cvRva = 0 ∨ cvSize < 4 + kXorHashSize then .ok none
  else if u32 (cvRva + cvSize) > buf.length then .ok none
  else do
    let signature ← readU32 buf cvRva
    if signature = kBpElSignature then .ok none
    else do
      let modulePath ← readModuleName buf nameRva
      if modulePath = [] then .ok none
      else
        let buildId := elf modulePath
        if buildId = [] then .ok none
        else
          let newCvSize := u32 (4 + u32 buildId.length)
          if cvSize < newCvSize then .ok none
          else do
            let signed ← writeU32 buf cvRva kBpElSignature
            let named ← store signed (cvRva + 4) buildId
            let sized ← writeU32 named (modOff + kModCvDataSizeOff) newCvSize
            .ok (some sized)

/-- The offset of a module record; `module_stream_rva + 4` is a 32-bit sum. -/
def modOff (moduleStreamRva i : Nat) : Nat := u32 (moduleStreamRva + 4) + i * kModuleSize

def patchModules (elf : ElfLookup) (moduleStreamRva : Nat) :
    (remaining i : Nat) → Buffer → (patched : Nat) → Checked (Buffer × Nat)
  | 0, _, buf, patched => .ok (buf, patched)
  | remaining + 1, i, buf, patched =>
    if modOff moduleStreamRva i + kModuleSize > buf.length then .ok (buf, patched)
    else do
      match ← patchModule elf buf (modOff moduleStreamRva i) with
      | some next => patchModules elf moduleStreamRva remaining (i + 1) next (patched + 1)
      | none => patchModules elf moduleStreamRva remaining (i + 1) buf patched

/-- The function between loading the file and rewriting it: the buffer and the
number of patched modules, or nothing when it holds no minidump. -/
def patchLoaded (elf : ElfLookup) (buf : Buffer) : Checked (Option (Buffer × Nat)) := do
  let signature ← readU32 buf 0
  if buf.length < 32 ∨ signature ≠ kMdmpSignature then .ok none
  else do
    let streamCount ← readU32 buf 8
    let dirRva ← readU32 buf 12
    let moduleStreamRva ← findModuleStream buf dirRva streamCount 0
    if moduleStreamRva = 0 ∨ u32 (moduleStreamRva + 4) > buf.length then .ok (some (buf, 0))
    else do
      let moduleCount ← readU32 buf moduleStreamRva
      if moduleCount > 4096 then .ok (some (buf, 0))
      else do
        let result ← patchModules elf moduleStreamRva moduleCount 0 buf 0
        .ok (some result)

/-- What the system does to the streams on the dump. The disk takes `accepts`
bytes of the rewritten file; the last `buffered` bytes are still in the stream's
buffer when `out.write` returns and only reach the disk in its destructor, whose
failures nobody sees. -/
structure FileFaults where
  opens : Bool
  reads : Bool
  reopens : Bool
  accepts : Nat
  buffered : Nat
  deriving Repr

/-- The end of the function, from the patched buffer on: the status returned and
the bytes the dump holds afterwards. -/
def rewriteFile (faults : FileFaults) (path : ByteString) (file : Buffer) : Option (Buffer × Nat) → Status × Buffer
  | none => (.error (invalidArgumentError (ascii "not a minidump: " ++ path)), file)
  | some (buf, patched) =>
    if patched = 0 then (.ok (), file)
    else if ¬ faults.reopens then (.error (internalError (ascii "write failed: " ++ path)), file)
    else if faults.accepts < buf.length - faults.buffered then
      (.error (internalError (ascii "flush failed: " ++ path)), buf.take faults.accepts)
    else (.ok (), buf.take faults.accepts)

def patchMissingBuildIds (elf : ElfLookup) (faults : FileFaults) (path : ByteString) (file : Buffer) :
    Checked (Status × Buffer) :=
  if ¬ faults.opens then .ok (.error (internalError (ascii "cannot open minidump: " ++ path)), file)
  else if ¬ faults.reads then .ok (.error (internalError (ascii "read failed: " ++ path)), file)
  else do
    let result ← patchLoaded elf file
    .ok (rewriteFile faults path file result)

end Crashomon.Daemon.MinidumpPatcher
