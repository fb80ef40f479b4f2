import Crashomon.Base.PythonText

/-! The tombstone of tools/crashomon_tools/analyze/log_parser.py and the formatter
of symbolizer.py that prints it. -/

namespace Crashomon.Tools.Report
open Python

structure ParsedFrame where
  index : Int
  moduleOffset : Int
  modulePath : Text
  trailing : Text
  trust : Text
  deriving DecidableEq, Repr

structure ParsedThread where
  tid : Int
  name : Text
  isCrashing : Bool
  frames : List ParsedFrame
  deriving DecidableEq, Repr

structure ParsedTombstone where
  pid : Int
  crashingTid : Int
  processName : Text
  signalInfo : Text
  signalNumber : Int
  signalCode : Int
  faultAddr : Int
  timestamp : Text
  threads : List ParsedThread
  minidumpPath : Text
  abortMessage : Text
  terminateType : Text
  deriving DecidableEq, Repr

structure SymbolInfo where
  function : Text
  sourceFile : Text
  sourceLine : Int
  deriving DecidableEq, Repr

/-- From a thread's tid and a frame's index. -/
abbrev SymbolTable := List ((Int × Int) × SymbolInfo)

def sep : Text := "*** *** *** *** *** *** *** *** *** *** *** *** *** *** *** ***".toList

def decimal (value : Int) : Text := formatInt 10 0 value
def hex (width : Nat) (value : Int) : Text := "0x".toList ++ formatInt 16 width value

def frameTrailing (symbol : Option SymbolInfo) (frame : ParsedFrame) : Text :=
  match symbol with
  | none => frame.trailing
  | some sym =>
    if sym.function = "??".toList ∨ sym.function = [] then frame.trailing
    else if sym.sourceFile ≠ [] ∧ 0 < sym.sourceLine then
      "(".toList ++ sym.function ++ ") [".toList ++ sym.sourceFile ++ ":".toList ++ decimal sym.sourceLine ++ "]".toList
    else "(".toList ++ sym.function ++ ")".toList

def trustSuffix (showTrust : Bool) (frame : ParsedFrame) : Text :=
  if showTrust then
    if frame.trust ≠ [] then " [trust:".toList ++ frame.trust ++ "]".toList else []
  else if frame.trust = "scan".toList then " [HEURISTIC]".toList
  else []

def frameRow (tid : Int) (symbols : SymbolTable) (addrW : Nat) (showTrust : Bool) (frame : ParsedFrame) : Text :=
  let module := if frame.modulePath = [] then "???".toList else frame.modulePath
  let trailing := frameTrailing (symbols.lookup (tid, frame.index)) frame
  "    #".toList ++ formatInt 10 2 frame.index ++ " pc ".toList ++ hex addrW frame.moduleOffset ++ "  ".toList ++ module ++
    (if trailing = [] then [] else "  ".toList ++ trailing) ++ trustSuffix showTrust frame ++ ['\n']

def emitStackTraceSection (thread : ParsedThread) (symbols : SymbolTable) (addrW : Nat) (showTrust : Bool) : List Text :=
  thread.frames.map (frameRow thread.tid symbols addrW showTrust)

def tombstoneAddrWidth (tombstone : ParsedTombstone) : Nat :=
  if tombstone.threads.any fun thread => thread.frames.any fun frame => 0xFFFFFFFF < frame.moduleOffset then 16 else 8

def signalRow (tombstone : ParsedTombstone) : Text :=
  match find " / ".toList tombstone.signalInfo with
  | some slash =>
    "signal ".toList ++ decimal tombstone.signalNumber ++ " (".toList ++ tombstone.signalInfo.take slash ++ "), code ".toList ++
      decimal tombstone.signalCode ++ " (".toList ++ tombstone.signalInfo.drop (slash + 3) ++ "), fault addr ".toList ++
      hex 0 tombstone.faultAddr ++ ['\n']
  | none =>
    "signal ".toList ++ decimal tombstone.signalNumber ++ " (".toList ++ tombstone.signalInfo ++ "), fault addr ".toList ++
      hex 0 tombstone.faultAddr ++ ['\n']

def abortRows (tombstone : ParsedTombstone) : List Text :=
  if tombstone.abortMessage = [] then []
  else if tombstone.terminateType = [] then
    ["Abort message: '".toList ++ tombstone.abortMessage ++ "'".toList ++ ['\n']]
  else
    ["Abort message: '".toList ++ tombstone.terminateType ++ ": ".toList ++ tombstone.abortMessage ++ "'".toList ++ ['\n']]

def threadRow (thread : ParsedThread) : Text :=
  if thread.name = [] then "\n--- --- --- thread ".toList ++ decimal thread.tid ++ " --- --- ---".toList ++ ['\n']
  else
    "\n--- --- --- thread ".toList ++ decimal thread.tid ++ " (".toList ++ thread.name ++ ") --- --- ---".toList ++ ['\n']

/-- What `format_symbolicated` appends to `out`. -/
def rows (tombstone : ParsedTombstone) (symbols : SymbolTable) (showTrust : Bool) : List Text :=
  let addrW := tombstoneAddrWidth tombstone
  [sep ++ ['\n'],
   "pid: ".toList ++ decimal tombstone.pid ++ ", tid: ".toList ++ decimal tombstone.crashingTid ++ ", name: ".toList ++
     tombstone.processName ++ "  >>> ".toList ++ tombstone.processName ++ " <<<".toList ++ ['\n'],
   signalRow tombstone] ++
    abortRows tombstone ++
    (if tombstone.timestamp = [] then [] else ["timestamp: ".toList ++ tombstone.timestamp ++ ['\n']]) ++
    (match tombstone.threads with
      | thread :: _ =>
        if thread.isCrashing then "\nbacktrace:\n".toList :: emitStackTraceSection thread symbols addrW showTrust else []
      | [] => []) ++
    (tombstone.threads.drop 1).flatMap (fun thread =>
      threadRow thread :: emitStackTraceSection thread symbols addrW showTrust) ++
    (if tombstone.minidumpPath = [] then [] else ["\nminidump saved to: ".toList ++ tombstone.minidumpPath ++ ['\n']]) ++
    [sep ++ ['\n']]

def formatSymbolicated (tombstone : ParsedTombstone) (symbols : SymbolTable) (showTrust : Bool) : Text :=
  (rows tombstone symbols showTrust).flatten

end Crashomon.Tools.Report
