import Crashomon.Base.PyValue

/-! The converter of tools/crashomon_tools/analyze/symbolizer.py from the JSON document of
minidump-stackwalk to a tombstone, and the formatter that prints it. Nothing checks the
types of the document, so the fields hold whatever values it has. -/

namespace Crashomon.Tools.StackwalkJson
open Python

structure ParsedFrame where
  index : PyValue
  moduleOffset : Int
  modulePath : PyValue
  trailing : PyStr := []
  trust : PyValue

structure ParsedThread where
  tid : PyValue
  name : PyValue
  isCrashing : Bool
  frames : List ParsedFrame

structure ParsedTombstone where
  pid : PyValue
  crashingTid : PyValue
  processName : PyStr
  signalInfo : PyValue
  signalNumber : Int
  signalCode : Int := 0
  faultAddr : Int
  timestamp : PyStr := []
  threads : List ParsedThread
  minidumpPath : PyStr := []
  abortMessage : Text := []
  terminateType : Text := []

structure SymbolInfo where
  function : PyValue
  sourceFile : PyValue
  sourceLine : Int

/-- From a thread's tid and a frame's index. -/
abbrev SymbolTable := List ((Key × Key) × SymbolInfo)

def signalNumbers : List (PyStr × Int) :=
  [(literal "SIGABRT", 6), (literal "SIGBUS", 7), (literal "SIGFPE", 8), (literal "SIGILL", 4), (literal "SIGKILL", 9),
   (literal "SIGSEGV", 11), (literal "SIGSYS", 31), (literal "SIGTRAP", 5)]

section Parsing

def signalNumberOf (sigName : PyValue) : Except Raised Int :=
  if sigName.truthy then sigName.firstWord.map fun word => (signalNumbers.lookup word).getD 0 else .ok 0

/-- A JSON null stands for a line that is absent. -/
def sourceLineOf : PyValue → Except Raised Int
  | .none => .ok 0
  | srcLine => srcLine.toInt

def symbolOf (frameData function : PyValue) : Except Raised SymbolInfo := do
  let srcFile ← frameData.get "file"
  let srcLine ← frameData.get "line"
  let sourceLine ← sourceLineOf srcLine
  .ok ⟨function, srcFile.orElse (.str []), sourceLine⟩

/-- A frame without a function has no entry. -/
def addSymbol (tid frameIdx frameData : PyValue) (table : SymbolTable) : Except Raised SymbolTable := do
  let function ← frameData.get "function"
  if function.truthy then do
    let sym ← symbolOf frameData function
    let tidKey ← tid.key
    let frameKey ← frameIdx.key
    .ok (dictSet table (tidKey, frameKey) sym)
  else .ok table

/-- One turn of the loop over a thread's frames. -/
def addFrame (tid : PyValue) (read : List ParsedFrame × SymbolTable) (frameData : PyValue) :
    Except Raised (List ParsedFrame × SymbolTable) := do
  let frameIdx ← frameData.getOr "frame" (.int read.1.length)
  let offsetStr ← frameData.get "module_offset"
  let offset ← (offsetStr.orElse (.str (literal "0x0"))).hexOrZero
  let modulePath ← frameData.get "module"
  let trust ← frameData.get "trust"
  let table ← addSymbol tid frameIdx frameData read.2
  .ok (read.1 ++ [{ index := frameIdx, moduleOffset := offset, modulePath := modulePath.orElse (.str []),
                    trust := trust.orElse (.str []) }], table)

/-- One turn of the loop over the threads. -/
def addThread (crashingThreadIdx : PyValue) (read : List ParsedThread × SymbolTable) (threadData : PyValue) :
    Except Raised (List ParsedThread × SymbolTable) := do
  let threadIdx := read.1.length
  let threadId ← threadData.get "thread_id"
  let tid := threadId.orElse (.int threadIdx)
  let name ← threadData.get "thread_name"
  let frames ← threadData.get "frames"
  let items ← (frames.orElse (.list [])).elements
  let inner ← items.foldlM (addFrame tid) ([], read.2)
  .ok (read.1 ++ [⟨tid, name.orElse (.str []), crashingThreadIdx.equals threadIdx, inner.1⟩], inner.2)

def processNameOf (data : PyValue) : Except Raised PyStr := do
  let mainModule ← data.get "main_module"
  let mainModuleIdx := mainModule.orElse (.int 0)
  let modules ← data.get "modules"
  let modules := modules.orElse (.list [])
  let count ← modules.length
  let inside ← mainModuleIdx.lessThan count
  if inside then do
    let mod ← modules.subscript mainModuleIdx
    let filename ← mod.get "filename"
    (filename.orElse (.str [])).pathName
  else .ok []

/-- The crashing thread moves to the front, and its tid becomes that of the crash. -/
def moveCrashingThread (crashingThreadIdx : PyValue) (threads : List ParsedThread) :
    Except Raised (List ParsedThread × PyValue) := do
  let inside ← crashingThreadIdx.lessThan threads.length
  if inside then do
    let place ← crashingThreadIdx.position .overflowError threads.length
    match threads[place]? with
    | some crashing => .ok (crashing :: threads.eraseIdx place, crashing.tid)
    | none => .error .indexError
  else .ok (threads, .int 0)

def parseThreads (data crashingThreadIdx : PyValue) : Except Raised (List ParsedThread × SymbolTable) := do
  let threads ← data.subscript (.str (literal "threads"))
  let items ← threads.elements
  items.foldlM (addThread crashingThreadIdx) ([], [])

def parseStackwalkJson (data : PyValue) : Except Raised (ParsedTombstone × SymbolTable) := do
  let present ← data.contains "threads"
  if !present then .error .valueError
  else do
    let pid ← data.get "pid"
    let crashInfo ← data.getOr "crash_info" (.dict [])
    let sigName ← crashInfo.get "type"
    let signalNumber ← signalNumberOf sigName
    let addrStr ← crashInfo.get "address"
    let faultAddr ← (addrStr.orElse (.str (literal "0x0"))).hexOrZero
    let crashingThread ← crashInfo.get "crashing_thread"
    let crashingThreadIdx := crashingThread.orElse (.int 0)
    let processName ← processNameOf data
    let read ← parseThreads data crashingThreadIdx
    if read.1.isEmpty then .error .valueError
    else do
      let moved ← moveCrashingThread crashingThreadIdx read.1
      .ok ({ pid := pid.orElse (.int 0), crashingTid := moved.2, processName := processName,
             signalInfo := sigName.orElse (.str []), signalNumber := signalNumber, faultAddr := faultAddr,
             threads := moved.1 }, read.2)

end Parsing

section Formatting

def sep : PyStr := literal "*** *** *** *** *** *** *** *** *** *** *** *** *** *** *** ***"
def newline : PyStr := literal "\n"

def decimal (value : Int) : PyStr := pyStr (formatInt 10 0 value)
def hex (width : Nat) (value : Int) : PyStr := literal "0x" ++ pyStr (formatInt 16 width value)

variable (interpreter : Interpreter)

def frameTrailing (symbol : Option SymbolInfo) (frame : ParsedFrame) : PyStr :=
  match symbol with
  | none => frame.trailing
  | some sym =>
    if sym.function.isText "??" ∨ sym.function.isText "" then frame.trailing
    else if sym.sourceFile.truthy ∧ 0 < sym.sourceLine then
      literal "(" ++ sym.function.display interpreter ++ literal ") [" ++ sym.sourceFile.display interpreter ++ literal ":" ++
        decimal sym.sourceLine ++ literal "]"
    else literal "(" ++ sym.function.display interpreter ++ literal ")"

def trustSuffix (showTrust : Bool) (frame : ParsedFrame) : PyStr :=
  if showTrust then
    if frame.trust.truthy then literal " [trust:" ++ frame.trust.display interpreter ++ literal "]" else []
  else if frame.trust.isText "scan" then literal " [HEURISTIC]"
  else []

def frameRow (tid : PyValue) (symbols : SymbolTable) (addrW : Nat) (showTrust : Bool) (frame : ParsedFrame) :
    Except Raised PyStr := do
  let module := frame.modulePath.orElse (.str (literal "???"))
  let tidKey ← tid.key
  let frameKey ← frame.index.key
  let trailing := frameTrailing interpreter (symbols.lookup (tidKey, frameKey)) frame
  let index ← frame.index.twoDigits
  .ok (literal "    #" ++ index ++ literal " pc " ++ hex addrW frame.moduleOffset ++ literal "  " ++
    module.display interpreter ++ (if trailing = [] then [] else literal "  " ++ trailing) ++
    trustSuffix interpreter showTrust frame ++ newline)

def emitStackTraceSection (thread : ParsedThread) (symbols : SymbolTable) (addrW : Nat) (showTrust : Bool) :
    Except Raised (List PyStr) :=
  thread.frames.mapM (frameRow interpreter thread.tid symbols addrW showTrust)

def tombstoneAddrWidth (tombstone : ParsedTombstone) : Nat :=
  if tombstone.threads.any fun thread => thread.frames.any fun frame => 0xFFFFFFFF < frame.moduleOffset then 16 else 8

/-- `text.find(" / ")`; `none` for -1. -/
def findSlash : PyStr → Option Nat
  | [] => none
  | character :: rest =>
    if (literal " / ").isPrefixOf (character :: rest) then some 0 else (findSlash rest).map (· + 1)

def signalRow (tombstone : ParsedTombstone) : Except Raised PyStr :=
  match tombstone.signalInfo with
  | .str signalInfo =>
    match findSlash signalInfo with
    | some slash =>
      .ok (literal "signal " ++ decimal tombstone.signalNumber ++ literal " (" ++ signalInfo.take slash ++ literal "), code " ++
        decimal tombstone.signalCode ++ literal " (" ++ signalInfo.drop (slash + 3) ++ literal "), fault addr " ++
        hex 0 tombstone.faultAddr ++ newline)
    | none =>
      .ok (literal "signal " ++ decimal tombstone.signalNumber ++ literal " (" ++ signalInfo ++ literal "), fault addr " ++
        hex 0 tombstone.faultAddr ++ newline)
  | _ => .error .attributeError

def abortRows (tombstone : ParsedTombstone) : List PyStr :=
  if tombstone.abortMessage = [] then []
  else if tombstone.terminateType = [] then
    [literal "Abort message: '" ++ pyStr tombstone.abortMessage ++ literal "'" ++ newline]
  else
    [literal "Abort message: '" ++ pyStr tombstone.terminateType ++ literal ": " ++ pyStr tombstone.abortMessage ++
      literal "'" ++ newline]

def threadRow (thread : ParsedThread) : PyStr :=
  if thread.name.truthy then
    literal "\n--- --- --- thread " ++ thread.tid.display interpreter ++ literal " (" ++ thread.name.display interpreter ++
      literal ") --- --- ---" ++ newline
  else literal "\n--- --- --- thread " ++ thread.tid.display interpreter ++ literal " --- --- ---" ++ newline

def backtraceRows (threads : List ParsedThread) (symbols : SymbolTable) (addrW : Nat) (showTrust : Bool) :
    Except Raised (List PyStr) :=
  match threads with
  | thread :: _ =>
    if thread.isCrashing then
      (emitStackTraceSection interpreter thread symbols addrW showTrust).map (literal "\nbacktrace:\n" :: ·)
    else .ok []
  | [] => .ok []

def threadRows (symbols : SymbolTable) (addrW : Nat) (showTrust : Bool) (thread : ParsedThread) :
    Except Raised (List PyStr) :=
  (emitStackTraceSection interpreter thread symbols addrW showTrust).map (threadRow interpreter thread :: ·)

def formatSymbolicated (tombstone : ParsedTombstone) (symbols : SymbolTable) (showTrust : Bool) : Except Raised PyStr := do
  let addrW := tombstoneAddrWidth tombstone
  let signal ← signalRow tombstone
  let backtrace ← backtraceRows interpreter tombstone.threads symbols addrW showTrust
  let others ← (tombstone.threads.drop 1).mapM (threadRows interpreter symbols addrW showTrust)
  .ok ([sep ++ newline,
        literal "pid: " ++ tombstone.pid.display interpreter ++ literal ", tid: " ++
          tombstone.crashingTid.display interpreter ++ literal ", name: " ++ tombstone.processName ++ literal "  >>> " ++
          tombstone.processName ++ literal " <<<" ++ newline,
        signal] ++
      abortRows tombstone ++
      (if tombstone.timestamp = [] then [] else [literal "timestamp: " ++ tombstone.timestamp ++ newline]) ++
      backtrace ++ others.flatten ++
      (if tombstone.minidumpPath = [] then []
        else [literal "\nminidump saved to: " ++ tombstone.minidumpPath ++ newline]) ++
      [sep ++ newline]).flatten

end Formatting

end Crashomon.Tools.StackwalkJson
