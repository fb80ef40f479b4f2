import Crashomon.Proofs.StackwalkShape
import Mathlib.Data.List.Induction
import Mathlib.Data.List.Perm.Basic

/-! What of a document reaches the report. A lone surrogate there keeps the report from being
stored, since the database takes its text in UTF-8. -/

namespace Crashomon.Proofs.StackwalkReport
open Python Raising Tools.StackwalkJson Tools.Analyze StackwalkShape

/-- A str without lone surrogates. -/
def Clean (text : PyStr) : Prop := ∀ character ∈ text, ∃ scalar, character = .scalar scalar

/-- A value that prints without lone surrogates; `repr` escapes those inside it. -/
def PrintsClean (value : PyValue) : Prop := ∀ text, value = .str text → Clean text

theorem clean_append {first second : PyStr} : Clean (first ++ second) ↔ Clean first ∧ Clean second := List.forall_mem_append

theorem clean_nil : Clean [] := List.forall_mem_nil _

theorem clean_pyStr (text : Text) : Clean (pyStr text) := by
  intro character member
  obtain ⟨scalar, _, rfl⟩ := List.mem_map.mp member
  exact ⟨scalar, rfl⟩

theorem clean_literal (text : String) : Clean (literal text) := clean_pyStr _

theorem clean_flatten {rows : List PyStr} : Clean rows.flatten ↔ ∀ row ∈ rows, Clean row := by
  simp only [Clean, List.mem_flatten]
  constructor
  · intro all row member character inside
    exact all character ⟨row, member, inside⟩
  · rintro all character ⟨row, member, inside⟩
    exact all row member character inside

theorem clean_decimal (value : Int) : Clean (decimal value) := clean_pyStr _

theorem clean_hex (width : Nat) (value : Int) : Clean (hex width value) := clean_append.mpr ⟨clean_literal _, clean_pyStr _⟩

theorem clean_display {interpreter : Interpreter} {value : PyValue} : Clean (value.display interpreter) ↔ PrintsClean value := by
  cases value with
  | str text =>
    constructor
    · rintro clean _ ⟨⟩
      exact clean
    · intro clean
      exact clean text rfl
  | _ =>
    constructor
    · intro _ text impossible
      cases impossible
    · intro _
      exact clean_pyStr _

theorem toText_clean {text : PyStr} : (∃ encoded, toText text = some encoded) ↔ Clean text := by
  induction text with
  | nil => exact ⟨fun _ => clean_nil, fun _ => ⟨[], rfl⟩⟩
  | cons character text ih =>
    cases character with
    | scalar character =>
      rw [toText, Clean, List.forall_mem_cons, ← Clean, ← ih]
      simp
    | surrogate index =>
      constructor
      · rintro ⟨_, impossible⟩
        cases impossible
      · intro clean
        obtain ⟨_, impossible⟩ := clean _ List.mem_cons_self
        cases impossible

/-- The default of `or` prints without surrogates. -/
theorem printsClean_orElse {value default : PyValue} (clean : PrintsClean default) :
    PrintsClean (value.orElse default) ↔ PrintsClean value := by
  by_cases truthy : value.truthy = true
  · rw [PyValue.orElse_truthy truthy]
  · rw [PyValue.orElse_falsy truthy]
    refine ⟨fun _ => ?_, fun _ => clean⟩
    rintro text rfl
    have empty : text = [] := by simpa [PyValue.truthy] using truthy
    rw [empty]
    exact clean_nil

section Formatting
variable {interpreter : Interpreter} {symbols : SymbolTable} {addrW : Nat}

def symbolAt (symbols : SymbolTable) (tid : PyValue) (frame : ParsedFrame) : Option SymbolInfo :=
  symbols.lookup (keyOf tid, keyOf frame.index)

def frameText (interpreter : Interpreter) (tid : PyValue) (symbols : SymbolTable) (addrW : Nat) (frame : ParsedFrame) : PyStr :=
  let trailing := frameTrailing interpreter (symbolAt symbols tid frame) frame
  literal "    #" ++ returned frame.index.twoDigits [] ++ literal " pc " ++ hex addrW frame.moduleOffset ++ literal "  " ++
    (frame.modulePath.orElse (.str (literal "???"))).display interpreter ++ (if trailing = [] then [] else literal "  " ++ trailing) ++
    trustSuffix interpreter false frame ++ newline

def RowPrints (tid : PyValue) (frame : ParsedFrame) : Prop := IsHashable tid ∧ frame.index.index.isSome = true

theorem frameRow_ok {tid : PyValue} {frame : ParsedFrame} {row : PyStr} :
    frameRow interpreter tid symbols addrW false frame = .ok row ↔
      RowPrints tid frame ∧ row = frameText interpreter tid symbols addrW frame := by
  unfold frameRow RowPrints
  simp only [bind_ok, PyValue.key_ok, Except.ok.injEq]
  constructor
  · rintro ⟨_, ⟨tidHashes, rfl⟩, _, ⟨_, rfl⟩, index, digits, rfl⟩
    obtain ⟨returns, rfl⟩ := (ok_iff_returned []).mp digits
    exact ⟨⟨tidHashes, PyValue.twoDigits_returns.mp returns⟩, rfl⟩
  · rintro ⟨⟨tidHashes, integer⟩, rfl⟩
    exact ⟨_, ⟨tidHashes, rfl⟩, _, ⟨PyValue.isHashable_of_index integer, rfl⟩, _,
      (ok_iff_returned []).mpr ⟨PyValue.twoDigits_returns.mpr integer, rfl⟩, rfl⟩

def sectionText (interpreter : Interpreter) (symbols : SymbolTable) (addrW : Nat) (thread : ParsedThread) : List PyStr :=
  thread.frames.map (frameText interpreter thread.tid symbols addrW)

theorem emitStackTraceSection_ok {thread : ParsedThread} {rows : List PyStr} :
    emitStackTraceSection interpreter thread symbols addrW false = .ok rows ↔
      (∀ frame ∈ thread.frames, RowPrints thread.tid frame) ∧ rows = sectionText interpreter symbols addrW thread :=
  mapM_ok (fun _ _ => frameRow_ok) thread.frames rows

theorem threadRows_ok (thread : ParsedThread) (rows : List PyStr) :
    threadRows interpreter symbols addrW false thread = .ok rows ↔
      (∀ frame ∈ thread.frames, RowPrints thread.tid frame) ∧
        rows = threadRow interpreter thread :: sectionText interpreter symbols addrW thread := by
  unfold threadRows
  simp only [map_ok, emitStackTraceSection_ok]
  constructor
  · rintro ⟨_, ⟨prints, rfl⟩, rfl⟩
    exact ⟨prints, rfl⟩
  · rintro ⟨prints, rfl⟩
    exact ⟨_, ⟨prints, rfl⟩, rfl⟩

/-- The thread in front, if its frames are printed. -/
def backtraceThread : List ParsedThread → List ParsedThread
  | thread :: _ => if thread.isCrashing then [thread] else []
  | [] => []

def backtraceText (interpreter : Interpreter) (symbols : SymbolTable) (addrW : Nat) (threads : List ParsedThread) : List PyStr :=
  (backtraceThread threads).flatMap fun thread => literal "\nbacktrace:\n" :: sectionText interpreter symbols addrW thread

theorem backtraceRows_ok {threads : List ParsedThread} {rows : List PyStr} :
    backtraceRows interpreter threads symbols addrW false = .ok rows ↔
      (∀ thread ∈ backtraceThread threads, ∀ frame ∈ thread.frames, RowPrints thread.tid frame) ∧
        rows = backtraceText interpreter symbols addrW threads := by
  cases threads with
  | nil => simp [backtraceRows, backtraceText, backtraceThread, eq_comm]
  | cons thread others =>
    unfold backtraceRows backtraceText backtraceThread
    by_cases crashing : thread.isCrashing = true
    · simp only [if_pos crashing, map_ok, emitStackTraceSection_ok, List.forall_mem_singleton, List.flatMap_singleton]
      constructor
      · rintro ⟨_, ⟨prints, rfl⟩, rfl⟩
        exact ⟨prints, rfl⟩
      · rintro ⟨prints, rfl⟩
        exact ⟨_, ⟨prints, rfl⟩, rfl⟩
    · simp [crashing, eq_comm]

/-- The threads whose frames are printed. -/
def printed (threads : List ParsedThread) : List ParsedThread := backtraceThread threads ++ threads.drop 1

def reportText (interpreter : Interpreter) (tombstone : ParsedTombstone) (symbols : SymbolTable) : PyStr :=
  let addrW := tombstoneAddrWidth tombstone
  ([sep ++ newline,
    literal "pid: " ++ tombstone.pid.display interpreter ++ literal ", tid: " ++ tombstone.crashingTid.display interpreter ++
      literal ", name: " ++ tombstone.processName ++ literal "  >>> " ++ tombstone.processName ++ literal " <<<" ++ newline,
    returned (signalRow tombstone) []] ++
    abortRows tombstone ++
    (if tombstone.timestamp = [] then [] else [literal "timestamp: " ++ tombstone.timestamp ++ newline]) ++
    backtraceText interpreter symbols addrW tombstone.threads ++
    (tombstone.threads.drop 1).flatMap (fun thread =>
      threadRow interpreter thread :: sectionText interpreter symbols addrW thread) ++
    (if tombstone.minidumpPath = [] then [] else [literal "\nminidump saved to: " ++ tombstone.minidumpPath ++ newline]) ++
    [sep ++ newline]).flatten

theorem signalRow_returns {tombstone : ParsedTombstone} {signalInfo : PyStr} (info : tombstone.signalInfo = .str signalInfo) :
    ∃ row, signalRow tombstone = .ok row := by
  unfold signalRow
  rw [info]
  dsimp only
  split <;> exact ⟨_, rfl⟩

theorem formatSymbolicated_ok {tombstone : ParsedTombstone} {signalInfo : PyStr} (info : tombstone.signalInfo = .str signalInfo)
    {report : PyStr} :
    formatSymbolicated interpreter tombstone symbols false = .ok report ↔
      (∀ thread ∈ printed tombstone.threads, ∀ frame ∈ thread.frames, RowPrints thread.tid frame) ∧
        report = reportText interpreter tombstone symbols := by
  obtain ⟨signal, same⟩ := signalRow_returns info
  have others := mapM_ok (@threadRows_ok interpreter symbols (tombstoneAddrWidth tombstone)) (tombstone.threads.drop 1)
  unfold formatSymbolicated reportText printed
  simp only [same, returned, value_bind, bind_ok, backtraceRows_ok, others, List.forall_mem_append, Except.ok.injEq,
    List.flatMap_def]
  constructor
  · rintro ⟨_, ⟨first, rfl⟩, _, ⟨later, rfl⟩, rfl⟩
    exact ⟨⟨first, later⟩, rfl⟩
  · rintro ⟨⟨first, later⟩, rfl⟩
    exact ⟨_, ⟨first, rfl⟩, _, ⟨later, rfl⟩, rfl⟩

/-- The name of a symbol with surrogates matters only where it is printed. -/
def SymbolClean (symbol : SymbolInfo) : Prop :=
  ¬ (symbol.function.isText "??" = true ∨ symbol.function.isText "" = true) →
    PrintsClean symbol.function ∧ (symbol.sourceFile.truthy = true ∧ 0 < symbol.sourceLine → PrintsClean symbol.sourceFile)

theorem clean_frameTrailing {symbol : Option SymbolInfo} {frame : ParsedFrame} (bare : frame.trailing = []) :
    Clean (frameTrailing interpreter symbol frame) ↔ ∀ sym, symbol = some sym → SymbolClean sym := by
  cases symbol with
  | none =>
    rw [frameTrailing, bare]
    exact ⟨fun _ _ impossible => (nomatch impossible), fun _ => clean_nil⟩
  | some symbol =>
    simp only [Option.some.injEq, forall_eq', SymbolClean, frameTrailing]
    split
    next unnamed => simp [bare, clean_nil, unnamed]
    next named =>
      split
      next located =>
        simp only [clean_append, clean_literal, clean_display, clean_decimal, true_and, and_true, named, located, not_false_eq_true,
          true_imp_iff]
      next located => simp only [clean_append, clean_literal, clean_display, true_and, and_true, named, located, not_false_eq_true,
          true_imp_iff, false_imp_iff]

def FrameClean (symbols : SymbolTable) (tid : PyValue) (frame : ParsedFrame) : Prop :=
  PrintsClean frame.modulePath ∧ ∀ symbol, symbolAt symbols tid frame = some symbol → SymbolClean symbol

theorem clean_twoDigits (value : PyValue) : Clean (returned value.twoDigits []) := by
  cases value with
  | bool | int => exact clean_pyStr _
  | _ => exact clean_nil

theorem clean_newline : Clean newline := clean_literal _

theorem printsClean_literal (text : String) : PrintsClean (.str (literal text)) := by
  rintro _ ⟨⟩
  exact clean_literal text

theorem clean_frameText {tid : PyValue} {frame : ParsedFrame} (bare : frame.trailing = []) :
    Clean (frameText interpreter tid symbols addrW frame) ↔ FrameClean symbols tid frame := by
  have suffix : Clean (trustSuffix interpreter false frame) := by
    unfold trustSuffix
    split
    next impossible => cases impossible
    next =>
      split
      next => exact clean_literal _
      next => exact clean_nil
  have trailing (text : PyStr) : Clean (if text = [] then [] else literal "  " ++ text) ↔ Clean text := by
    split
    next empty => rw [empty]
    next => simp only [clean_append, clean_literal, true_and]
  unfold frameText FrameClean
  simp only [clean_append, clean_literal, clean_newline, clean_twoDigits, clean_hex, clean_display, trailing, suffix,
    clean_frameTrailing bare, printsClean_orElse (printsClean_literal "???"), true_and, and_true]

theorem clean_threadRow {thread : ParsedThread} :
    Clean (threadRow interpreter thread) ↔ PrintsClean thread.tid ∧ PrintsClean thread.name := by
  unfold threadRow
  split
  next => simp only [clean_append, clean_literal, clean_newline, clean_display, true_and, and_true]
  next falsy =>
    have name : PrintsClean thread.name := by
      intro text same
      have empty : text = [] := by simpa [same, PyValue.truthy] using falsy
      rw [empty]
      exact clean_nil
    simp only [clean_append, clean_literal, clean_newline, clean_display, true_and, and_true, name]

theorem clean_abortRows (tombstone : ParsedTombstone) : ∀ row ∈ abortRows tombstone, Clean row := by
  unfold abortRows
  split
  next => exact List.forall_mem_nil _
  next =>
    split <;>
      simp only [List.forall_mem_singleton, clean_append, clean_literal, clean_newline, clean_pyStr, and_self]

theorem findSlash_splits {text : PyStr} {slash : Nat} (found : findSlash text = some slash) :
    text = text.take slash ++ literal " / " ++ text.drop (slash + 3) := by
  induction text generalizing slash with
  | nil => cases found
  | cons character text ih =>
    rw [findSlash] at found
    split at found
    next here =>
      cases found
      obtain ⟨rest, same⟩ := List.isPrefixOf_iff_prefix.mp here
      rw [← same]
      rfl
    next =>
      obtain ⟨before, later, rfl⟩ := Option.map_eq_some_iff.mp found
      exact congrArg (character :: ·) (ih later)

theorem clean_signalRow {tombstone : ParsedTombstone} {signalInfo : PyStr} (info : tombstone.signalInfo = .str signalInfo) :
    Clean (returned (signalRow tombstone) []) ↔ Clean signalInfo := by
  unfold signalRow
  rw [info]
  dsimp only
  split
  next slash found =>
    have whole : Clean signalInfo ↔ Clean (signalInfo.take slash) ∧ Clean (signalInfo.drop (slash + 3)) := by
      conv_lhs => rw [findSlash_splits found]
      simp only [clean_append, clean_literal, and_true]
    simp only [returned, clean_append, clean_literal, clean_newline, clean_decimal, clean_hex, true_and, and_true, whole]
  next => simp only [returned, clean_append, clean_literal, clean_newline, clean_decimal, clean_hex, true_and, and_true]

theorem clean_sectionText {thread : ParsedThread} (bare : ∀ frame ∈ thread.frames, frame.trailing = []) :
    (∀ row ∈ sectionText interpreter symbols addrW thread, Clean row) ↔ ∀ frame ∈ thread.frames, FrameClean symbols thread.tid frame := by
  rw [sectionText, List.forall_mem_map]
  exact forall₂_congr fun frame member => clean_frameText (bare frame member)

/-- Everything that a report takes from the tombstone. -/
structure ReportClean (tombstone : ParsedTombstone) (symbols : SymbolTable) : Prop where
  pid : PrintsClean tombstone.pid
  crashingTid : PrintsClean tombstone.crashingTid
  processName : Clean tombstone.processName
  signalInfo : PrintsClean tombstone.signalInfo
  headings : ∀ thread ∈ tombstone.threads.drop 1, PrintsClean thread.tid ∧ PrintsClean thread.name
  frames : ∀ thread ∈ printed tombstone.threads, ∀ frame ∈ thread.frames, FrameClean symbols thread.tid frame

theorem clean_reportText {tombstone : ParsedTombstone} {signalInfo : PyStr} (info : tombstone.signalInfo = .str signalInfo)
    (bare : ∀ thread ∈ tombstone.threads, ∀ frame ∈ thread.frames, frame.trailing = []) (untimed : tombstone.timestamp = [])
    (unsaved : tombstone.minidumpPath = []) :
    Clean (reportText interpreter tombstone symbols) ↔ ReportClean tombstone symbols := by
  have signal : Clean signalInfo ↔ PrintsClean tombstone.signalInfo := by
    rw [info]
    exact ⟨fun clean _ same => PyValue.str.inj same ▸ clean, fun clean => clean signalInfo rfl⟩
  have crashing_bare : ∀ thread ∈ backtraceThread tombstone.threads, ∀ frame ∈ thread.frames, frame.trailing = [] := by
    intro thread member
    apply bare
    cases threads : tombstone.threads with
    | nil =>
      rw [threads] at member
      cases member
    | cons first others =>
      rw [threads, backtraceThread] at member
      split at member
      next => exact List.mem_singleton.mp member ▸ List.mem_cons_self
      next => cases member
  have later_bare : ∀ thread ∈ tombstone.threads.drop 1, ∀ frame ∈ thread.frames, frame.trailing = [] :=
    fun thread member => bare thread (List.mem_of_mem_drop member)
  have backtrace : (∀ row ∈ backtraceText interpreter symbols (tombstoneAddrWidth tombstone) tombstone.threads, Clean row) ↔
      ∀ thread ∈ backtraceThread tombstone.threads, ∀ frame ∈ thread.frames, FrameClean symbols thread.tid frame := by
    rw [backtraceText, List.forall_mem_flatMap]
    apply forall₂_congr
    intro thread member
    rw [List.forall_mem_cons, clean_sectionText (crashing_bare thread member)]
    exact and_iff_right (clean_literal _)
  have later : (∀ row ∈ (tombstone.threads.drop 1).flatMap (fun thread => threadRow interpreter thread ::
        sectionText interpreter symbols (tombstoneAddrWidth tombstone) thread), Clean row) ↔
      (∀ thread ∈ tombstone.threads.drop 1, PrintsClean thread.tid ∧ PrintsClean thread.name) ∧
        ∀ thread ∈ tombstone.threads.drop 1, ∀ frame ∈ thread.frames, FrameClean symbols thread.tid frame := by
    rw [List.forall_mem_flatMap, ← forall₂_and]
    apply forall₂_congr
    intro thread member
    rw [List.forall_mem_cons, clean_threadRow, clean_sectionText (later_bare thread member)]
  have nothing : (∀ row ∈ ([] : List PyStr), Clean row) ↔ True := iff_true_intro (List.forall_mem_nil _)
  have abort : (∀ row ∈ abortRows tombstone, Clean row) ↔ True := iff_true_intro (clean_abortRows tombstone)
  unfold reportText
  simp only [clean_flatten, List.forall_mem_append, List.forall_mem_cons, nothing, untimed, unsaved, if_true,
    clean_append, clean_literal, clean_newline, clean_display, clean_signalRow info, abort, backtrace, later, sep,
    signal, true_and, and_true]
  constructor
  · rintro ⟨⟨⟨⟨⟨⟨pid, tid⟩, name⟩, _⟩, signal⟩, first⟩, headings, others⟩
    exact ⟨pid, tid, name, signal, headings, List.forall_mem_append.mpr ⟨first, others⟩⟩
  · rintro ⟨pid, tid, name, signal, headings, frames⟩
    obtain ⟨first, others⟩ := List.forall_mem_append.mp frames
    exact ⟨⟨⟨⟨⟨⟨pid, tid⟩, name⟩, name⟩, signal⟩, first⟩, headings, others⟩

end Formatting

section Views
variable {holds : β → Prop} {meets : α → Prop} {make : Nat → α → β}

theorem forall_mem_mapIdx (same : ∀ position item, holds (make position item) ↔ meets item) (items : List α) :
    (∀ result ∈ items.mapIdx make, holds result) ↔ ∀ item ∈ items, meets item := by
  simp only [List.forall_mem_iff_getElem, List.length_mapIdx, List.getElem_mapIdx, same]

theorem forall_mem_eraseIdx_mapIdx (same : ∀ position item, holds (make position item) ↔ meets item) (items : List α)
    (gone : Nat) : (∀ result ∈ (items.mapIdx make).eraseIdx gone, holds result) ↔ ∀ item ∈ items.eraseIdx gone, meets item := by
  simp only [List.mem_eraseIdx_iff_getElem?, List.getElem?_mapIdx]
  constructor
  · rintro all item ⟨position, other, found⟩
    exact (same position item).mp (all _ ⟨position, other, by rw [found]; rfl⟩)
  · rintro all result ⟨position, other, found⟩
    obtain ⟨item, there, rfl⟩ := Option.map_eq_some_iff.mp found
    exact (same position item).mpr (all item ⟨position, other, there⟩)

theorem mem_cons_eraseIdx {items : List α} {place : Nat} {first : α} (there : items[place]? = some first) {item : α} :
    item ∈ first :: items.eraseIdx place ↔ item ∈ items := by
  obtain ⟨inside, rfl⟩ := List.getElem?_eq_some_iff.mp there
  exact (List.getElem_cons_eraseIdx_perm inside).mem_iff

end Views

section Threads
variable {data : Fields}

theorem moved_threads {crashing : PyValue} {threads : List ParsedThread} (subscripts : Subscripts crashing threads.length)
    (nonempty : 0 < threads.length) :
    ∃ first, threads[front crashing threads.length]? = some first ∧
      (moved crashing threads).1 = first :: threads.eraseIdx (front crashing threads.length) := by
  unfold moved front
  cases selected : placeOf crashing threads.length with
  | some place =>
    have inside := PyValue.placeOf_lt subscripts selected
    exact ⟨threads[place], List.getElem?_eq_getElem inside, by simp [List.getElem?_eq_getElem inside]⟩
  | none =>
    obtain ⟨first, others, rfl⟩ := List.exists_cons_of_length_pos nonempty
    exact ⟨first, rfl, rfl⟩

/-- The order of the report. -/
theorem tombstone_threads (reads : Reads data) :
    ∃ first, (parsedThreads data)[front (crashingIndex data) (views data).length]? = some first ∧
      (tombstoneOf data).threads = first :: (parsedThreads data).eraseIdx (front (crashingIndex data) (views data).length) := by
  have nonempty := views_nonempty reads.someThread reads.threads
  have subscripts := reads.crashingThread
  rw [← length_parsedThreads] at nonempty subscripts ⊢
  exact moved_threads subscripts nonempty

/-- The threads printed are those shown, seen through the conversion. -/
theorem forall_mem_printed {holds : ParsedThread → Prop} {meets : ThreadView → Prop}
    (same : ∀ position thread, holds (parsedThread (crashingIndex data) position thread) ↔ meets thread)
    (reads : Reads data) :
    (∀ thread ∈ printed (tombstoneOf data).threads, holds thread) ↔ ∀ thread ∈ shown (crashingIndex data) (views data), meets thread := by
  obtain ⟨first, there, threads⟩ := tombstone_threads reads
  obtain ⟨view, made⟩ : ∃ view, parsedThread (crashingIndex data) (front (crashingIndex data) (views data).length) view = first := by
    rw [parsedThreads, List.getElem?_mapIdx] at there
    obtain ⟨view, _, made⟩ := Option.map_eq_some_iff.mp there
    exact ⟨view, made⟩
  have crashing : first.isCrashing = (crashingIndex data).equals (front (crashingIndex data) (views data).length) := by
    rw [← made]
    rfl
  rw [threads, printed, backtraceThread, crashing, List.drop_one, List.tail_cons, shown]
  split
  next =>
    simp only [List.singleton_append, mem_cons_eraseIdx there]
    exact forall_mem_mapIdx same (views data)
  next =>
    rw [List.nil_append]
    exact forall_mem_eraseIdx_mapIdx same (views data) _

/-- The last frame with that key among those with a function, whatever thread it is in. -/
def lastSymbol (data : Fields) (key : Key × Key) : Option SymbolInfo :=
  ((views data).flatMap threadEntries).reverse.lookup key

theorem lookup_tableOf (key : Key × Key) : (tableOf data).lookup key = lastSymbol data key := by
  unfold tableOf lastSymbol
  induction (views data).flatMap threadEntries using List.reverseRecOn with
  | nil => rfl
  | append_singleton entries entry ih =>
    obtain ⟨other, symbol⟩ := entry
    rw [List.foldl_append, List.foldl_cons, List.foldl_nil, StackwalkShape.insert, lookup_dictSet, ih, List.reverse_append,
      List.reverse_singleton, List.singleton_append, List.lookup_cons]
    split
    next same => rw [beq_iff_eq.mpr same]
    next differs => rw [beq_false_of_ne differs]

/-- The tid that the report gives to the crash. -/
def crashingTid (data : Fields) : PyValue :=
  match placeOf (crashingIndex data) (views data).length with
  | some place => ((views data)[place]?.map ThreadView.tid).getD .none
  | none => .int 0

/-- What of the document reaches the report has no lone surrogates. -/
structure Printable (data : Fields) : Prop where
  pid : PrintsClean (field data "pid")
  crashingTid : PrintsClean (crashingTid data)
  processName : Clean (mainFilename data).nameOf
  crashType : PrintsClean (field (crashInfo data) "type")
  headings : ∀ thread ∈ (views data).eraseIdx (front (crashingIndex data) (views data).length),
    PrintsClean thread.tid ∧ PrintsClean thread.name
  modules : ∀ thread ∈ shown (crashingIndex data) (views data), ∀ frame ∈ thread.frames, PrintsClean (field frame.2 "module")
  symbols : ∀ thread ∈ shown (crashingIndex data) (views data), ∀ frame ∈ thread.frames, ∀ symbol,
    lastSymbol data (keyOf thread.tid, keyOf frame.1) = some symbol → SymbolClean symbol

theorem printsClean_empty : PrintsClean (.str []) := by
  rintro _ ⟨⟩
  exact clean_nil

theorem reportClean_iff (reads : Reads data) : ReportClean (tombstoneOf data) (tableOf data) ↔ Printable data := by
  have number : PrintsClean (.int 0) := fun _ impossible => nomatch impossible
  have frames : (∀ thread ∈ printed (tombstoneOf data).threads, ∀ frame ∈ thread.frames, FrameClean (tableOf data) thread.tid frame) ↔
      ∀ thread ∈ shown (crashingIndex data) (views data), ∀ frame ∈ thread.frames, PrintsClean (field frame.2 "module") ∧
        ∀ symbol, lastSymbol data (keyOf thread.tid, keyOf frame.1) = some symbol → SymbolClean symbol := by
    apply forall_mem_printed _ reads
    intro position thread
    show (∀ frame ∈ thread.frames.map parsedFrame, FrameClean (tableOf data) thread.tid frame) ↔ _
    rw [List.forall_mem_map]
    apply forall₂_congr
    intro frame member
    unfold FrameClean symbolAt
    rw [lookup_tableOf]
    exact and_congr_left' (printsClean_orElse printsClean_empty)
  have headings : (∀ thread ∈ (tombstoneOf data).threads.drop 1, PrintsClean thread.tid ∧ PrintsClean thread.name) ↔
      ∀ thread ∈ (views data).eraseIdx (front (crashingIndex data) (views data).length),
        PrintsClean thread.tid ∧ PrintsClean thread.name := by
    obtain ⟨first, _, threads⟩ := tombstone_threads reads
    rw [threads, List.drop_one, List.tail_cons]
    apply forall_mem_eraseIdx_mapIdx
    intro position thread
    exact and_congr_right' (printsClean_orElse printsClean_empty)
  have tid : (tombstoneOf data).crashingTid = crashingTid data := by
    unfold tombstoneOf moved crashingTid
    rw [length_parsedThreads]
    dsimp only
    cases placeOf (crashingIndex data) (views data).length with
    | none => rfl
    | some place => simp [parsedThreads, Function.comp_def, parsedThread]
  constructor
  · rintro ⟨pid, crash, name, signal, others, rows⟩
    refine ⟨(printsClean_orElse number).mp pid, tid ▸ crash, name, (printsClean_orElse printsClean_empty).mp signal,
      headings.mp others, ?_, ?_⟩
    · intro thread shown frame member
      exact (frames.mp rows thread shown frame member).1
    · intro thread shown frame member
      exact (frames.mp rows thread shown frame member).2
  · rintro ⟨pid, crash, name, signal, others, modules, symbols⟩
    refine ⟨(printsClean_orElse number).mpr pid, tid.symm ▸ crash, name, (printsClean_orElse printsClean_empty).mpr signal,
      headings.mpr others, frames.mpr ?_⟩
    intro thread shown frame member
    exact ⟨modules thread shown frame member, symbols thread shown frame member⟩

end Threads

end Crashomon.Proofs.StackwalkReport
