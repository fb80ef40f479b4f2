import Crashomon.Base.Raising
import Crashomon.Tools.Report
import Crashomon.Tools.StackwalkJson

/-! The two models of the formatter. On a tombstone whose fields have the types that its class declares, the formatter of
arbitrary values never raises and prints what the one of typed fields prints. -/

namespace Crashomon.Proofs.TypedReports
open Python Raising

section Texts

@[simp] theorem pyStr_append (first second : Text) : pyStr (first ++ second) = pyStr first ++ pyStr second := List.map_append

@[simp] theorem pyStr_take (count : Nat) (text : Text) : pyStr (text.take count) = (pyStr text).take count := List.map_take

@[simp] theorem pyStr_drop (count : Nat) (text : Text) : pyStr (text.drop count) = (pyStr text).drop count := List.map_drop

@[simp] theorem pyStr_flatten (texts : List Text) : pyStr texts.flatten = (texts.map pyStr).flatten := List.map_flatten

theorem scalar_injective : Function.Injective PyChar.scalar := fun _ _ same => PyChar.scalar.inj same

@[simp] theorem pyStr_inj {first second : Text} : pyStr first = pyStr second ↔ first = second :=
  (List.map_injective_iff.mpr scalar_injective).eq_iff

@[simp] theorem pyStr_eq_nil {text : Text} : pyStr text = [] ↔ text = [] := List.map_eq_nil_iff

@[simp] theorem truthy_text (text : Text) : (PyValue.str (pyStr text)).truthy = true ↔ text ≠ [] := by
  cases text <;> simp [PyValue.truthy, pyStr]

@[simp] theorem isText_text (text : Text) (other : String) : (PyValue.str (pyStr text)).isText other = true ↔ text = other.toList := by
  rw [PyValue.isText, decide_eq_true_iff, literal, pyStr_inj]

theorem findSlash_text (text : Text) : Tools.StackwalkJson.findSlash (pyStr text) = find " / ".toList text := by
  induction text with
  | nil => rfl
  | cons character rest ih =>
    have same : (literal " / ").isPrefixOf (pyStr (character :: rest)) = " / ".toList.isPrefixOf (character :: rest) := by
      rw [Bool.eq_iff_iff, List.isPrefixOf_iff_prefix, List.isPrefixOf_iff_prefix]
      exact List.prefix_map_iff_of_injective scalar_injective
    rw [pyStr, List.map_cons, Tools.StackwalkJson.findSlash, find]
    show (if (literal " / ").isPrefixOf (pyStr (character :: rest)) = true then _ else _) = _
    rw [same]
    exact congrArg (fun found => if " / ".toList.isPrefixOf (character :: rest) = true then some 0 else found.map (· + 1)) ih

end Texts

section Embedding
open Tools

def frameOf (frame : Report.ParsedFrame) : StackwalkJson.ParsedFrame :=
  ⟨.int frame.index, frame.moduleOffset, .str (pyStr frame.modulePath), pyStr frame.trailing, .str (pyStr frame.trust)⟩

def threadOf (thread : Report.ParsedThread) : StackwalkJson.ParsedThread :=
  ⟨.int thread.tid, .str (pyStr thread.name), thread.isCrashing, thread.frames.map frameOf⟩

def tombstoneOf (tombstone : Report.ParsedTombstone) : StackwalkJson.ParsedTombstone where
  pid := .int tombstone.pid
  crashingTid := .int tombstone.crashingTid
  processName := pyStr tombstone.processName
  signalInfo := .str (pyStr tombstone.signalInfo)
  signalNumber := tombstone.signalNumber
  signalCode := tombstone.signalCode
  faultAddr := tombstone.faultAddr
  timestamp := pyStr tombstone.timestamp
  threads := tombstone.threads.map threadOf
  minidumpPath := pyStr tombstone.minidumpPath
  abortMessage := tombstone.abortMessage
  terminateType := tombstone.terminateType

def symbolOf (symbol : Report.SymbolInfo) : StackwalkJson.SymbolInfo :=
  ⟨.str (pyStr symbol.function), .str (pyStr symbol.sourceFile), symbol.sourceLine⟩

def keyOf (key : Int × Int) : Key × Key := (.number key.1, .number key.2)

def tableOf (symbols : Report.SymbolTable) : StackwalkJson.SymbolTable :=
  symbols.map fun entry => (keyOf entry.1, symbolOf entry.2)

theorem keyOf_injective : Function.Injective keyOf := by
  rintro ⟨first, second⟩ ⟨third, fourth⟩ same
  simpa [keyOf] using same

theorem lookup_tableOf (symbols : Report.SymbolTable) (key : Int × Int) :
    (tableOf symbols).lookup (keyOf key) = (symbols.lookup key).map symbolOf := by
  induction symbols with
  | nil => rfl
  | cons entry rest ih =>
    rw [tableOf, List.map_cons, List.lookup_cons, List.lookup_cons]
    by_cases same : key = entry.1
    · simp [same]
    · rw [beq_false_of_ne (keyOf_injective.ne same), beq_false_of_ne same]
      exact ih

variable (interpreter : Interpreter)

theorem frameTrailing_eq (symbol : Option Report.SymbolInfo) (frame : Report.ParsedFrame) :
    StackwalkJson.frameTrailing interpreter (symbol.map symbolOf) (frameOf frame) = pyStr (Report.frameTrailing symbol frame) := by
  cases symbol with
  | none => rfl
  | some symbol =>
    simp only [Option.map_some, StackwalkJson.frameTrailing, Report.frameTrailing, symbolOf, frameOf, isText_text, truthy_text,
      PyValue.display, StackwalkJson.decimal, Report.decimal, literal, apply_ite pyStr, pyStr_append]
    rfl

theorem trustSuffix_eq (showTrust : Bool) (frame : Report.ParsedFrame) :
    StackwalkJson.trustSuffix interpreter showTrust (frameOf frame) = pyStr (Report.trustSuffix showTrust frame) := by
  rw [StackwalkJson.trustSuffix, Report.trustSuffix, frameOf]
  dsimp only
  cases showTrust with
  | true =>
    rw [if_pos rfl, if_pos rfl]
    by_cases trusted : frame.trust ≠ []
    · rw [if_pos ((truthy_text _).mpr trusted), if_pos trusted, pyStr_append, pyStr_append]
      rfl
    · rw [if_neg (mt (truthy_text _).mp trusted), if_neg trusted]
      rfl
  | false =>
    rw [if_neg Bool.false_ne_true, if_neg Bool.false_ne_true]
    by_cases scanned : frame.trust = "scan".toList
    · rw [if_pos ((isText_text _ _).mpr scanned), if_pos scanned]
      rfl
    · rw [if_neg (mt (isText_text _ _).mp scanned), if_neg scanned]
      rfl

theorem frameRow_eq (tid : Int) (symbols : Report.SymbolTable) (addrW : Nat) (showTrust : Bool) (frame : Report.ParsedFrame) :
    StackwalkJson.frameRow interpreter (.int tid) (tableOf symbols) addrW showTrust (frameOf frame) =
      .ok (pyStr (Report.frameRow tid symbols addrW showTrust frame)) := by
  have trailing : StackwalkJson.frameTrailing interpreter ((tableOf symbols).lookup (.number tid, .number frame.index)) (frameOf frame) =
      pyStr (Report.frameTrailing (symbols.lookup (tid, frame.index)) frame) := by
    have looked : (tableOf symbols).lookup (.number tid, .number frame.index) = (symbols.lookup (tid, frame.index)).map symbolOf :=
      lookup_tableOf symbols (tid, frame.index)
    rw [looked]
    exact frameTrailing_eq interpreter _ frame
  have module : ((frameOf frame).modulePath.orElse (.str (literal "???"))).display interpreter =
      pyStr (if frame.modulePath = [] then "???".toList else frame.modulePath) := by
    rw [PyValue.orElse, frameOf]
    dsimp only
    by_cases nameless : frame.modulePath = []
    · rw [if_neg fun truthy => (truthy_text _).mp truthy nameless, if_pos nameless]
      rfl
    · rw [if_pos ((truthy_text _).mpr nameless), if_neg nameless]
      rfl
  have key (value : Int) : (PyValue.int value).key = .ok (.number value) := rfl
  have index : (frameOf frame).index.key = .ok (.number frame.index) := rfl
  have digits : (frameOf frame).index.twoDigits = .ok (pyStr (formatInt 10 2 frame.index)) := rfl
  have newline : StackwalkJson.newline = pyStr ['\n'] := rfl
  have offset : StackwalkJson.hex addrW (frameOf frame).moduleOffset = pyStr (Report.hex addrW frame.moduleOffset) :=
    (pyStr_append ..).symm
  unfold StackwalkJson.frameRow
  rw [key, value_bind, index, value_bind]
  dsimp only
  rw [trailing, digits, value_bind, module, trustSuffix_eq, newline, offset]
  unfold Report.frameRow
  dsimp only
  by_cases bare : Report.frameTrailing (symbols.lookup (tid, frame.index)) frame = []
  · rw [if_pos (pyStr_eq_nil.mpr bare), if_pos bare]
    simp only [pyStr_append, literal, List.append_nil]
  · rw [if_neg (mt pyStr_eq_nil.mp bare), if_neg bare]
    simp only [pyStr_append, literal]

theorem section_eq (thread : Report.ParsedThread) (symbols : Report.SymbolTable) (addrW : Nat) (showTrust : Bool) :
    StackwalkJson.emitStackTraceSection interpreter (threadOf thread) (tableOf symbols) addrW showTrust =
      .ok ((Report.emitStackTraceSection thread symbols addrW showTrust).map pyStr) := by
  rw [Report.emitStackTraceSection, List.map_map]
  show (thread.frames.map frameOf).mapM _ = _
  rw [List.mapM_map]
  exact mapM_values fun frame _ => frameRow_eq interpreter thread.tid symbols addrW showTrust frame

theorem addrWidth_eq (tombstone : Report.ParsedTombstone) :
    StackwalkJson.tombstoneAddrWidth (tombstoneOf tombstone) = Report.tombstoneAddrWidth tombstone := by
  simp only [StackwalkJson.tombstoneAddrWidth, Report.tombstoneAddrWidth, tombstoneOf, List.any_map, Function.comp_def, threadOf, frameOf]
  rfl

theorem signalRow_eq (tombstone : Report.ParsedTombstone) :
    StackwalkJson.signalRow (tombstoneOf tombstone) = .ok (pyStr (Report.signalRow tombstone)) := by
  rw [StackwalkJson.signalRow, Report.signalRow, tombstoneOf]
  dsimp only
  rw [findSlash_text]
  cases find " / ".toList tombstone.signalInfo with
  | none =>
    simp only [pyStr_append, literal, StackwalkJson.decimal, StackwalkJson.hex, Report.decimal, Report.hex]
    rfl
  | some slash =>
    simp only [pyStr_append, pyStr_take, pyStr_drop, literal, StackwalkJson.decimal, StackwalkJson.hex, Report.decimal, Report.hex]
    rfl

theorem abortRows_eq (tombstone : Report.ParsedTombstone) :
    StackwalkJson.abortRows (tombstoneOf tombstone) = (Report.abortRows tombstone).map pyStr := by
  rw [StackwalkJson.abortRows, Report.abortRows, tombstoneOf]
  dsimp only
  split
  · rfl
  · split
    · simp only [List.map_singleton, pyStr_append, literal]
      rfl
    · simp only [List.map_singleton, pyStr_append, literal]
      rfl

theorem threadRow_eq (thread : Report.ParsedThread) :
    StackwalkJson.threadRow interpreter (threadOf thread) = pyStr (Report.threadRow thread) := by
  rw [StackwalkJson.threadRow, Report.threadRow, threadOf]
  dsimp only
  by_cases nameless : thread.name = []
  · rw [if_neg fun truthy => (truthy_text _).mp truthy nameless, if_pos nameless]
    simp only [pyStr_append]
    rfl
  · rw [if_pos ((truthy_text _).mpr nameless), if_neg nameless]
    simp only [pyStr_append]
    rfl

theorem backtraceRows_eq (threads : List Report.ParsedThread) (symbols : Report.SymbolTable) (addrW : Nat) (showTrust : Bool) :
    StackwalkJson.backtraceRows interpreter (threads.map threadOf) (tableOf symbols) addrW showTrust =
      .ok ((match threads with
        | thread :: _ =>
          if thread.isCrashing then "\nbacktrace:\n".toList :: Report.emitStackTraceSection thread symbols addrW showTrust else []
        | [] => []).map pyStr) := by
  cases threads with
  | nil => rfl
  | cons thread rest =>
    rw [List.map_cons, StackwalkJson.backtraceRows, section_eq]
    cases crashing : thread.isCrashing with
    | true => simp [threadOf, crashing, Except.map, literal]
    | false => simp [threadOf, crashing]

theorem threadRows_eq (symbols : Report.SymbolTable) (addrW : Nat) (showTrust : Bool) (thread : Report.ParsedThread) :
    StackwalkJson.threadRows interpreter (tableOf symbols) addrW showTrust (threadOf thread) =
      .ok ((Report.threadRow thread :: Report.emitStackTraceSection thread symbols addrW showTrust).map pyStr) := by
  rw [StackwalkJson.threadRows, section_eq, threadRow_eq]
  rfl

theorem optionalRow_eq (front : String) (text : Text) :
    (if pyStr text = [] then [] else [literal front ++ pyStr text ++ StackwalkJson.newline]) =
      (if text = [] then [] else [front.toList ++ text ++ ['\n']]).map pyStr := by
  by_cases empty : text = []
  · rw [if_pos (pyStr_eq_nil.mpr empty), if_pos empty]
    rfl
  · rw [if_neg (mt pyStr_eq_nil.mp empty), if_neg empty, List.map_singleton, pyStr_append, pyStr_append]
    rfl

/-- The formatter of arbitrary values, on the fields of a typed tombstone. -/
theorem formatSymbolicated_eq (tombstone : Report.ParsedTombstone) (symbols : Report.SymbolTable) (showTrust : Bool) :
    StackwalkJson.formatSymbolicated interpreter (tombstoneOf tombstone) (tableOf symbols) showTrust =
      .ok (pyStr (Report.formatSymbolicated tombstone symbols showTrust)) := by
  have others : ((tombstoneOf tombstone).threads.drop 1).mapM
      (StackwalkJson.threadRows interpreter (tableOf symbols) (Report.tombstoneAddrWidth tombstone) showTrust) =
        .ok ((tombstone.threads.drop 1).map fun thread =>
          (Report.threadRow thread :: Report.emitStackTraceSection thread symbols (Report.tombstoneAddrWidth tombstone) showTrust).map pyStr) := by
    rw [tombstoneOf, ← List.map_drop, List.mapM_map]
    exact mapM_values fun thread _ => threadRows_eq interpreter symbols _ showTrust thread
  have backtrace := backtraceRows_eq interpreter tombstone.threads symbols (Report.tombstoneAddrWidth tombstone) showTrust
  have heading : literal "pid: " ++ (tombstoneOf tombstone).pid.display interpreter ++ literal ", tid: " ++
      (tombstoneOf tombstone).crashingTid.display interpreter ++ literal ", name: " ++ (tombstoneOf tombstone).processName ++
      literal "  >>> " ++ (tombstoneOf tombstone).processName ++ literal " <<<" ++ StackwalkJson.newline =
        pyStr ("pid: ".toList ++ Report.decimal tombstone.pid ++ ", tid: ".toList ++ Report.decimal tombstone.crashingTid ++
          ", name: ".toList ++ tombstone.processName ++ "  >>> ".toList ++ tombstone.processName ++ " <<<".toList ++ ['\n']) := by
    simp only [pyStr_append]
    rfl
  have timestamp := optionalRow_eq "timestamp: " tombstone.timestamp
  have minidump := optionalRow_eq "\nminidump saved to: " tombstone.minidumpPath
  have ends : StackwalkJson.sep ++ StackwalkJson.newline = pyStr (Report.sep ++ ['\n']) := (pyStr_append ..).symm
  rw [StackwalkJson.formatSymbolicated, addrWidth_eq, signalRow_eq, value_bind]
  show (StackwalkJson.backtraceRows interpreter (tombstone.threads.map threadOf) _ _ _ >>= _) = _
  rw [backtrace, value_bind, others, value_bind, abortRows_eq, heading, ends, Report.formatSymbolicated, pyStr_flatten]
  unfold Report.rows
  simp only [List.map_append, List.flatMap_def, List.map_flatten, List.map_map]
  rw [← timestamp, ← minidump]
  rfl

end Embedding

end Crashomon.Proofs.TypedReports
