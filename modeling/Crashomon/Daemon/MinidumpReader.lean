import Crashomon.Base.Bytes
import Crashomon.Base.Text

/-! Parts of the tombstone reader, daemon/tombstone/minidump_reader.cpp. -/

namespace Crashomon.Daemon.MinidumpReader
open Bytes

structure FrameInfo where
  pc : UInt64
  moduleOffset : UInt64
  /-- Empty if unmapped. -/
  modulePath : ByteString
  buildId : ByteString
  deriving DecidableEq, Repr

structure ModuleInfo where
  path : ByteString
  baseAddress : UInt64
  size : UInt64
  buildId : ByteString
  deriving DecidableEq, Repr

/-- The fields of a MinidumpInfo that the worker reads. -/
structure MinidumpInfo where
  processName : ByteString
  signalInfo : ByteString
  faultAddr : UInt64
  modules : List ModuleInfo
  deriving DecidableEq, Repr

structure ExceptionRecord where
  exceptionCode : UInt32
  exceptionFlags : UInt32
  exceptionAddress : UInt64

def kSigNames : List (UInt32 × ByteString) :=
  [(4, ascii "SIGILL"), (6, ascii "SIGABRT"), (7, ascii "SIGBUS"), (8, ascii "SIGFPE"), (11, ascii "SIGSEGV")]

def kSegvCodes : List (UInt32 × ByteString) := [(1, ascii "SEGV_MAPERR"), (2, ascii "SEGV_ACCERR")]

/-- The signal text and the fault address that ExtractExceptionInfo stores. -/
def extractExceptionInfo : Option ExceptionRecord → ByteString × UInt64
  | none => ([], 0)
  | some rec =>
    let sigName := (kSigNames.lookup rec.exceptionCode).getD (ascii "signal " ++ digits 10 rec.exceptionCode.toNat)
    if rec.exceptionCode = 11 ∧ rec.exceptionFlags ≠ 0 then
      match kSegvCodes.lookup rec.exceptionFlags with
      | some codeName => (sigName ++ ascii " / " ++ codeName, rec.exceptionAddress)
      | none => (sigName, rec.exceptionAddress)
    else (sigName, rec.exceptionAddress)

def makeFrameFromPC (programCounter : UInt64) : List ModuleInfo → FrameInfo
  | [] => ⟨programCounter, 0, [], []⟩
  | mod :: modules =>
    if mod.baseAddress ≤ programCounter ∧ programCounter < mod.baseAddress + mod.size then
      ⟨programCounter, programCounter - mod.baseAddress, mod.path, mod.buildId⟩
    else makeFrameFromPC programCounter modules

def readU32Le (buf : Buffer) (offset : Nat) : Nat := if offset + 4 > buf.length then 0 else word buf offset

def readUtf8Str (buf : Buffer) (rva : Nat) : ByteString :=
  if rva = 0 ∨ u32 (rva + 4) > buf.length then []
  else
    let length := readU32Le buf rva
    if length = 0 ∨ u32 (rva + 4 + length) > buf.length then [] else slice buf (u32 (rva + 4)) length

def kMdmpHeaderSize : Nat := 32
def kMdmpSignature : Nat := 0x504D444D
def kDirEntrySize : Nat := 12
def kCrashpadInfoType : Nat := 0x43500007
def kCrashpadInfoMinSize : Nat := 44
def kDictEntrySize : Nat := 8
def kDictCountSize : Nat := 4

/-- The offset of the first CrashpadInfo stream; 0 when there is none. Entry
offsets are 32-bit sums. -/
def findCrashpadStream (buf : Buffer) (dirRva : Nat) : (remaining i : Nat) → Nat
  | 0, _ => 0
  | remaining + 1, i =>
    let entryOff := u32 (dirRva + i * kDirEntrySize)
    if u32 (entryOff + kDirEntrySize) > buf.length then 0
    else if readU32Le buf entryOff = kCrashpadInfoType then readU32Le buf (u32 (entryOff + 8))
    else findCrashpadStream buf dirRva remaining (i + 1)

/-- The two annotations that the tombstone shows. -/
structure Annotations where
  abortMessage : ByteString
  terminateType : ByteString
  deriving DecidableEq, Repr

def abortMessageKey : ByteString := ascii "abort_message"
def terminateTypeKey : ByteString := ascii "terminate_type"

def storeEntry (info : Annotations) (key val : ByteString) : Annotations :=
  if key = abortMessageKey then { info with abortMessage := val }
  else if key = terminateTypeKey then { info with terminateType := val }
  else info

def readDictionary (buf : Buffer) (dictRva : Nat) : (remaining i : Nat) → Annotations → Annotations
  | 0, _, info => info
  | remaining + 1, i, info =>
    let entryOff := u32 (dictRva + kDictCountSize + i * kDictEntrySize)
    if u32 (entryOff + kDictEntrySize) > buf.length then info
    else
      let key := readUtf8Str buf (readU32Le buf entryOff)
      let val := readUtf8Str buf (readU32Le buf (u32 (entryOff + 4)))
      readDictionary buf dictRva remaining (i + 1) (storeEntry info key val)

/-- The annotations of the file's bytes, on top of those in `info`. -/
def extractCrashpadAnnotations (buf : Buffer) (info : Annotations) : Annotations :=
  if buf.length < kMdmpHeaderSize ∨ readU32Le buf 0 ≠ kMdmpSignature then info
  else
    let streamRva := findCrashpadStream buf (readU32Le buf 12) (readU32Le buf 8) 0
    if streamRva = 0 ∨ u32 (streamRva + kCrashpadInfoMinSize) > buf.length then info
    else if readU32Le buf streamRva ≠ 1 then info
    else
      let dictSize := readU32Le buf (u32 (streamRva + 36))
      let dictRva := readU32Le buf (u32 (streamRva + 40))
      if dictRva = 0 ∨ dictSize < kDictCountSize then info
      else if u32 (dictRva + dictSize) > buf.length then info
      else readDictionary buf dictRva (readU32Le buf dictRva) 0 info

end Crashomon.Daemon.MinidumpReader
