import Crashomon.Proofs.StackwalkReport

/-! Which frames of a document a report prints, and with whose symbols. -/

namespace Crashomon.Proofs.ReportFrames
open Python Raising Tools.StackwalkJson StackwalkShape StackwalkReport

section Schema

def IsText (value : PyValue) : Prop := ∃ text, value = .str text
def IsInteger (value : PyValue) : Prop := ∃ integer, value = .int integer
def IsIndex (value : PyValue) : Prop := ∃ index : Nat, value = .int index
def IsObject (value : PyValue) : Prop := ∃ fields, value = .dict fields
def AreObjects (value : PyValue) : Prop := ∃ items, value = .list items ∧ ∀ item ∈ items, IsObject item

/-- Missing, null or of the type. -/
def Optional (type : PyValue → Prop) (value : PyValue) : Prop := value = .none ∨ type value

structure FrameDocument (frame : Fields) : Prop where
  number : Optional IsInteger (field frame "frame")
  offset : Optional IsText (field frame "module_offset")
  module : Optional IsText (field frame "module")
  trust : Optional IsText (field frame "trust")
  function : Optional IsText (field frame "function")
  file : Optional IsText (field frame "file")
  line : Optional IsInteger (field frame "line")

structure ThreadDocument (thread : Fields) : Prop where
  id : Optional IsInteger (field thread "thread_id")
  name : Optional IsText (field thread "thread_name")
  frames : Optional AreObjects (field thread "frames")
  eachFrame : ∀ frame ∈ objects (field thread "frames"), FrameDocument frame

/-- The schema of the documents that minidump-stackwalk prints. -/
structure Document (data : Fields) : Prop where
  crashInfo : Optional IsObject (field data "crash_info")
  crashType : Optional IsText (field (StackwalkShape.crashInfo data) "type")
  crashAddress : Optional IsText (field (StackwalkShape.crashInfo data) "address")
  crashingThread : Optional IsIndex (field (StackwalkShape.crashInfo data) "crashing_thread")
  mainModule : Optional IsIndex (field data "main_module")
  modules : Optional AreObjects (field data "modules")
  filenames : ∀ mod ∈ modulesOf data, Optional IsText (field mod "filename")
  threads : AreObjects (field data "threads")
  someThread : objects (field data "threads") ≠ []
  eachThread : ∀ thread ∈ objects (field data "threads"), ThreadDocument thread

theorem textOrFalsy_of_optional {value : PyValue} (optional : Optional IsText value) : TextOrFalsy value := by
  intro truthy
  rcases optional with rfl | text
  · cases truthy
  · exact text

theorem objectsOrFalsy_of_optional {value : PyValue} (optional : Optional AreObjects value) : ObjectsOrFalsy value := by
  intro truthy
  rcases optional with rfl | objects
  · cases truthy
  · exact objects

/-- An index that is missing or null is 0. -/
def indexOf (value : PyValue) : Nat := (value.index.getD 0).toNat

theorem orElse_index {value : PyValue} (optional : Optional IsIndex value) : value.orElse (.int 0) = .int (indexOf value) := by
  rcases optional with rfl | ⟨index, rfl⟩
  · rfl
  · cases index with
    | zero => rfl
    | succ index => rfl

theorem placeOf_index (index length : Nat) : placeOf (.int index) length = if index < length then some index else none := by
  simp [placeOf, PyValue.index]

theorem equals_index (index count : Nat) : (PyValue.int index).equals count = decide (index = count) := by
  simp only [PyValue.equals, PyValue.number]
  norm_cast

end Schema

section Rows
variable {interpreter : Interpreter} {tombstone : ParsedTombstone} {symbols : SymbolTable}

/-- The entries of the list `out` that the report joins. -/
def outRows (interpreter : Interpreter) (tombstone : ParsedTombstone) (symbols : SymbolTable) : Except Raised (List PyStr) := do
  let addrW := tombstoneAddrWidth tombstone
  let signal ← signalRow tombstone
  let backtrace ← backtraceRows interpreter tombstone.threads symbols addrW false
  let others ← (tombstone.threads.drop 1).mapM (threadRows interpreter symbols addrW false)
  .ok ([sep ++ newline,
        literal "pid: " ++ tombstone.pid.display interpreter ++ literal ", tid: " ++
          tombstone.crashingTid.display interpreter ++ literal ", name: " ++ tombstone.processName ++ literal "  >>> " ++
          tombstone.processName ++ literal " <<<" ++ newline,
        signal] ++
      abortRows tombstone ++
      (if tombstone.timestamp = [] then [] else [literal "timestamp: " ++ tombstone.timestamp ++ newline]) ++
      backtrace ++ others.flatten ++
      (if tombstone.minidumpPath = [] then []
        else [literal "\nminidump saved to: " ++ tombstone.minidumpPath ++ newline]) ++
      [sep ++ newline])

theorem formatSymbolicated_outRows :
    formatSymbolicated interpreter tombstone symbols false = (outRows interpreter tombstone symbols).map List.flatten := by
  unfold formatSymbolicated outRows
  dsimp only
  generalize signalRow tombstone = signal
  generalize backtraceRows interpreter tombstone.threads symbols (tombstoneAddrWidth tombstone) false = backtrace
  generalize (tombstone.threads.drop 1).mapM (threadRows interpreter symbols (tombstoneAddrWidth tombstone) false) = others
  cases signal with
  | error raised => rfl
  | ok signal =>
    cases backtrace with
    | error raised => rfl
    | ok backtrace =>
      cases others with
      | error raised => rfl
      | ok others => rfl

/-- A row that stands for a frame, and no other row of the list. -/
def isFrameRow (row : PyStr) : Bool := (literal "    #").isPrefixOf row

def frameLines (rows : List PyStr) : List PyStr := rows.filter isFrameRow

def tombstoneFrames (interpreter : Interpreter) (tombstone : ParsedTombstone) (symbols : SymbolTable) : List PyStr :=
  (printed tombstone.threads).flatMap (sectionText interpreter symbols (tombstoneAddrWidth tombstone))

theorem frameLines_sectionText (addrW : Nat) (thread : ParsedThread) :
    frameLines (sectionText interpreter symbols addrW thread) = sectionText interpreter symbols addrW thread := by
  apply List.filter_eq_self.mpr
  intro row member
  obtain ⟨frame, _, rfl⟩ := List.mem_map.mp member
  apply List.isPrefixOf_iff_prefix.mpr
  simp only [frameText, List.append_assoc]
  exact List.prefix_append _ _

/-- The list `out` when nothing raises. -/
def rowsOf (interpreter : Interpreter) (tombstone : ParsedTombstone) (symbols : SymbolTable) : List PyStr :=
  let addrW := tombstoneAddrWidth tombstone
  [sep ++ newline,
    literal "pid: " ++ tombstone.pid.display interpreter ++ literal ", tid: " ++ tombstone.crashingTid.display interpreter ++
      literal ", name: " ++ tombstone.processName ++ literal "  >>> " ++ tombstone.processName ++ literal " <<<" ++ newline,
    returned (signalRow tombstone) []] ++
    abortRows tombstone ++
    (if tombstone.timestamp = [] then [] else [literal "timestamp: " ++ tombstone.timestamp ++ newline]) ++
    backtraceText interpreter symbols addrW tombstone.threads ++
    (tombstone.threads.drop 1).flatMap (fun thread =>
      threadRow interpreter thread :: sectionText interpreter symbols addrW thread) ++
    (if tombstone.minidumpPath = [] then [] else [literal "\nminidump saved to: " ++ tombstone.minidumpPath ++ newline]) ++
    [sep ++ newline]

theorem outRows_ok {signalInfo : PyStr} (info : tombstone.signalInfo = .str signalInfo) {rows : List PyStr} :
    outRows interpreter tombstone symbols = .ok rows ↔
      (∀ thread ∈ printed tombstone.threads, ∀ frame ∈ thread.frames, RowPrints thread.tid frame) ∧
        rows = rowsOf interpreter tombstone symbols := by
  obtain ⟨signal, same⟩ := signalRow_returns info
  have others := mapM_ok (@threadRows_ok interpreter symbols (tombstoneAddrWidth tombstone)) (tombstone.threads.drop 1)
  unfold outRows rowsOf printed
  simp only [same, returned, value_bind, bind_ok, backtraceRows_ok, others, List.forall_mem_append, Except.ok.injEq,
    List.flatMap_def]
  constructor
  · rintro ⟨_, ⟨first, rfl⟩, _, ⟨later, rfl⟩, rfl⟩
    exact ⟨⟨first, later⟩, rfl⟩
  · rintro ⟨⟨first, later⟩, rfl⟩
    exact ⟨_, ⟨first, rfl⟩, _, ⟨later, rfl⟩, rfl⟩

theorem frameLines_heading {heading : PyStr} (other : isFrameRow heading = false) (addrW : Nat) (thread : ParsedThread) :
    frameLines (heading :: sectionText interpreter symbols addrW thread) = sectionText interpreter symbols addrW thread := by
  have rows := @frameLines_sectionText interpreter symbols addrW thread
  unfold frameLines at rows ⊢
  rw [List.filter_cons_of_neg (Bool.eq_false_iff.mp other), rows]

theorem isFrameRow_threadRow (thread : ParsedThread) : isFrameRow (threadRow interpreter thread) = false := by
  unfold threadRow
  split <;> rfl

theorem frameLines_abortRows : frameLines (abortRows tombstone) = [] := by
  unfold abortRows
  split
  next => rfl
  next => split <;> rfl

theorem isFrameRow_signalRow : isFrameRow (returned (signalRow tombstone) []) = false := by
  unfold signalRow
  split
  next => split <;> rfl
  next => rfl

/-- Among the entries of `out` the frame rows are those of the printed threads. -/
theorem frameLines_rowsOf : frameLines (rowsOf interpreter tombstone symbols) = tombstoneFrames interpreter tombstone symbols := by
  have backtrace : frameLines (backtraceText interpreter symbols (tombstoneAddrWidth tombstone) tombstone.threads) =
      (backtraceThread tombstone.threads).flatMap (sectionText interpreter symbols (tombstoneAddrWidth tombstone)) := by
    unfold backtraceText frameLines
    rw [List.filter_flatMap]
    exact congrArg (List.flatMap · _) (funext fun thread => frameLines_heading rfl _ thread)
  have others : frameLines ((tombstone.threads.drop 1).flatMap fun thread =>
      threadRow interpreter thread :: sectionText interpreter symbols (tombstoneAddrWidth tombstone) thread) =
      (tombstone.threads.drop 1).flatMap (sectionText interpreter symbols (tombstoneAddrWidth tombstone)) := by
    unfold frameLines
    rw [List.filter_flatMap]
    exact congrArg (List.flatMap · _) (funext fun thread => frameLines_heading (isFrameRow_threadRow thread) _ thread)
  have abort := @frameLines_abortRows tombstone
  have timestamp : frameLines (if tombstone.timestamp = [] then []
      else [literal "timestamp: " ++ tombstone.timestamp ++ newline]) = [] := by
    split <;> rfl
  have path : frameLines (if tombstone.minidumpPath = [] then []
      else [literal "\nminidump saved to: " ++ tombstone.minidumpPath ++ newline]) = [] := by
    split <;> rfl
  have heading (pid signal : PyStr) (other : isFrameRow signal = false) :
      frameLines [sep ++ newline, literal "pid: " ++ pid, signal] = [] := by
    unfold frameLines
    rw [List.filter_cons_of_neg (by decide), List.filter_cons_of_neg (Bool.eq_false_iff.mp rfl),
      List.filter_cons_of_neg (Bool.eq_false_iff.mp other), List.filter_nil]
  have footer : frameLines [sep ++ newline] = [] := rfl
  unfold frameLines at backtrace others abort timestamp path heading footer
  unfold frameLines rowsOf tombstoneFrames printed
  dsimp only
  simp only [List.append_assoc (literal "pid: "), List.filter_append, heading _ _ isFrameRow_signalRow, backtrace, others, abort,
    timestamp, path, footer, List.append_nil, List.nil_append, List.flatMap_append]

end Rows

section Conversion
variable {data : Fields}

/-- What the converter asks of a document beyond its schema: an explicit null is no object,
and a signal name of blanks has no first word. -/
structure Convertible (data : Fields) : Prop where
  crashInfo : data.lookup (literal "crash_info") ≠ some .none
  crashType : WordOrFalsy (field (StackwalkShape.crashInfo data) "type")

def crashIndex (data : Fields) : Nat := indexOf (field (crashInfo data) "crashing_thread")

theorem Document.crashingIndex_eq (document : Document data) : crashingIndex data = .int (crashIndex data) :=
  orElse_index document.crashingThread

theorem Document.views_nonempty (document : Document data) : 0 < (views data).length := by
  rw [views, List.length_mapIdx]
  exact List.length_pos_iff.mpr document.someThread

theorem mem_viewOf_frames {position : Nat} {thread : Fields} {frame : PyValue × Fields}
    (member : frame ∈ (viewOf position thread).frames) :
    ∃ index, ∃ fields ∈ objects (field thread "frames"), frame = frameAt index fields := by
  obtain ⟨index, inside, rfl⟩ := List.mem_mapIdx.mp member
  exact ⟨index, _, List.getElem_mem inside, rfl⟩

theorem mem_views {thread : ThreadView} (member : thread ∈ views data) :
    ∃ position, ∃ fields ∈ objects (field data "threads"), thread = viewOf position fields := by
  obtain ⟨position, inside, rfl⟩ := List.mem_mapIdx.mp member
  exact ⟨position, _, List.getElem_mem inside, rfl⟩

theorem ThreadDocument.hashable_tid {thread : Fields} (document : ThreadDocument thread) (position : Nat) :
    IsHashable (viewOf position thread).tid := by
  show IsHashable ((field thread "thread_id").orElse (.int position))
  rcases document.id with missing | ⟨id, present⟩
  · rw [missing]
    trivial
  · rw [present, PyValue.orElse]
    split <;> trivial

theorem FrameDocument.number_cases {frame : Fields} (document : FrameDocument frame) (position : Nat) :
    (frameAt position frame).1 = .none ∨ IsInteger (frameAt position frame).1 := by
  have number := document.number
  unfold field at number
  unfold frameAt
  cases found : frame.lookup (literal "frame") with
  | none => exact Or.inr ⟨position, rfl⟩
  | some value =>
    rw [found] at number
    exact number

theorem FrameDocument.reads {frame : Fields} (document : FrameDocument frame) {tid : PyValue} (hashable : IsHashable tid)
    (position : Nat) : FrameReads tid (frameAt position frame) := by
  refine ⟨textOrFalsy_of_optional document.offset, fun _ => ⟨?_, hashable, ?_⟩⟩
  · show LineOrNone (field frame "line")
    rcases document.line with missing | ⟨line, present⟩
    · rw [missing]
      trivial
    · rw [present]
      trivial
  · rcases document.number_cases position with null | ⟨number, present⟩
    · rw [null]
      trivial
    · rw [present]
      trivial

theorem Document.filename (document : Document data) : TextOrFalsy (mainFilename data) := by
  unfold mainFilename
  split
  next place selected =>
    by_cases inside : place < (modulesOf data).length
    · rw [List.getD_eq_getElem _ _ inside]
      exact textOrFalsy_of_optional (document.filenames _ (List.getElem_mem inside))
    · rw [List.getD_eq_default _ _ (Nat.le_of_not_lt inside)]
      exact fun impossible => nomatch impossible
  next => exact fun impossible => nomatch impossible

theorem subscripts_index (index length : Nat) : Subscripts (.int index) length :=
  Or.inl ⟨index, rfl, by omega⟩

theorem Document.reads_iff (document : Document data) : Reads data ↔ Convertible data := by
  constructor
  · intro reads
    refine ⟨?_, reads.crashType⟩
    intro null
    obtain ⟨info, impossible⟩ := reads.crashObject _ null
    cases impossible
  · rintro ⟨crashInfo, crashType⟩
    have modules := objectsOrFalsy_of_optional document.modules
    obtain ⟨items, listed, each⟩ := document.threads
    refine ⟨modules, ?_, ?_, crashType, textOrFalsy_of_optional document.crashAddress, ?_, document.filename, ?_, ?_, ?_, ?_, ?_⟩
    · intro mod member _
      exact textOrFalsy_of_optional (document.filenames mod member)
    · intro value present
      have object := document.crashInfo
      rw [field, present] at object
      rcases object with rfl | object
      · exact absurd present crashInfo
      · exact object
    · rw [mainModuleIndex, orElse_index document.mainModule]
      exact subscripts_index _ _
    · have some_thread := document.someThread
      rw [objects, listed] at some_thread
      rw [listed]
      cases items with
      | nil => exact absurd rfl some_thread
      | cons item items => rfl
    · intro _
      exact ⟨items, listed, each⟩
    · intro thread member
      exact objectsOrFalsy_of_optional (document.eachThread thread member).frames
    · intro thread member frame inside
      obtain ⟨position, fields, there, rfl⟩ := mem_views member
      obtain ⟨index, frame, listed, rfl⟩ := mem_viewOf_frames inside
      have threadDocument := document.eachThread fields there
      exact (threadDocument.eachFrame frame listed).reads (threadDocument.hashable_tid position) index
    · rw [document.crashingIndex_eq]
      exact subscripts_index _ _

theorem Document.parse_ok (document : Document data) {result : ParsedTombstone × SymbolTable} :
    parseStackwalkJson (.dict data) = .ok result ↔ Convertible data ∧ result = (tombstoneOf data, tableOf data) := by
  have warned : ∃ names, Tools.Analyze.warnMissingBuildIds (.dict data) = .ok names :=
    warnMissingBuildIds_returns.mpr ⟨objectsOrFalsy_of_optional document.modules,
      fun mod member _ => textOrFalsy_of_optional (document.filenames mod member)⟩
  rw [← document.reads_iff, ← StackwalkShape.parse_ok]
  exact (and_iff_right warned).symm

end Conversion

section Order
variable {data : Fields}

/-- One item first, the others in their order. -/
def inOrder (place : Nat) (items : List α) : List α := items[place]?.toList ++ items.eraseIdx place

theorem inOrder_map (f : α → β) (place : Nat) (items : List α) : (inOrder place items).map f = inOrder place (items.map f) := by
  unfold inOrder
  rw [List.map_append, List.getElem?_map, List.eraseIdx_map]
  cases items[place]? <;> rfl

theorem printed_crashing {thread : ParsedThread} (crashing : thread.isCrashing = true) (others : List ParsedThread) :
    printed (thread :: others) = thread :: others := by
  simp [printed, backtraceThread, crashing]

theorem printed_other {thread : ParsedThread} (other : thread.isCrashing = false) (others : List ParsedThread) :
    printed (thread :: others) = others := by
  simp [printed, backtraceThread, other]

theorem mem_inOrder {place : Nat} {items : List α} (inside : place < items.length) {item : α} :
    item ∈ inOrder place items ↔ item ∈ items := by
  rw [inOrder, List.getElem?_eq_getElem inside, Option.toList_some, List.singleton_append]
  exact mem_cons_eraseIdx (List.getElem?_eq_getElem inside)

/-- The threads whose frames reach the report, in its order: the one in front is left out
when the index of the crashing thread is beyond the threads. -/
def printedViews (data : Fields) : List ThreadView :=
  if crashIndex data < (views data).length then inOrder (crashIndex data) (views data) else (views data).drop 1

theorem Document.printed_eq (document : Document data) :
    printed (tombstoneOf data).threads =
      if crashIndex data < (views data).length then inOrder (crashIndex data) (parsedThreads data)
      else (parsedThreads data).drop 1 := by
  have nonempty := document.views_nonempty
  have count := length_parsedThreads data
  unfold tombstoneOf moved
  dsimp only
  rw [document.crashingIndex_eq, placeOf_index, count]
  by_cases inside : crashIndex data < (views data).length
  · have there : (parsedThreads data)[crashIndex data]? =
        some (parsedThread (crashingIndex data) (crashIndex data) (views data)[crashIndex data]) := by
      rw [parsedThreads, List.getElem?_mapIdx, List.getElem?_eq_getElem inside]
      rfl
    have crashing : (parsedThread (crashingIndex data) (crashIndex data) (views data)[crashIndex data]).isCrashing = true := by
      show (crashingIndex data).equals (crashIndex data) = true
      rw [document.crashingIndex_eq, equals_index]
      exact decide_eq_true rfl
    rw [if_pos inside, if_pos inside]
    dsimp only
    unfold inOrder
    rw [there, Option.toList_some, List.singleton_append]
    exact printed_crashing crashing _
  · obtain ⟨first, others, threads⟩ := List.exists_cons_of_length_pos (count ▸ nonempty)
    have front : first.isCrashing = false := by
      have there : (parsedThreads data)[0]? = some first := by rw [threads]; rfl
      rw [parsedThreads, List.getElem?_mapIdx] at there
      obtain ⟨view, _, rfl⟩ := Option.map_eq_some_iff.mp there
      show (crashingIndex data).equals 0 = false
      rw [document.crashingIndex_eq, equals_index]
      exact decide_eq_false (by omega)
    rw [if_neg inside, if_neg inside]
    dsimp only
    rw [threads, printed_other front]
    rfl

/-- What of a thread its rows are made of. -/
def outline (thread : ParsedThread) : PyValue × List ParsedFrame := (thread.tid, thread.frames)

def outlineOf (thread : ThreadView) : PyValue × List ParsedFrame := (thread.tid, thread.frames.map parsedFrame)

theorem Document.outlines (document : Document data) :
    (printed (tombstoneOf data).threads).map outline = (printedViews data).map outlineOf := by
  have threads : (parsedThreads data).map outline = (views data).map outlineOf := by
    apply List.ext_getElem?
    intro position
    rw [List.getElem?_map, List.getElem?_map, parsedThreads, List.getElem?_mapIdx, Option.map_map]
    rfl
  rw [document.printed_eq, printedViews]
  split
  next => rw [inOrder_map, threads, ← inOrder_map]
  next => rw [List.map_drop, threads, ← List.map_drop]

/-- A frame whose number is an explicit null cannot be printed. -/
def Numbered (threads : List ThreadView) : Prop := ∀ thread ∈ threads, ∀ frame ∈ thread.frames, frame.1 ≠ .none

theorem mem_printedViews {thread : ThreadView} (member : thread ∈ printedViews data) : thread ∈ views data := by
  unfold printedViews inOrder at member
  split at member
  next =>
    rcases List.mem_append.mp member with first | later
    · exact List.mem_of_getElem? (Option.mem_toList.mp first)
    · exact List.mem_of_mem_eraseIdx later
  next => exact List.mem_of_mem_drop member

theorem Document.rowPrints_iff (document : Document data) {thread : ThreadView} (member : thread ∈ views data)
    {frame : PyValue × Fields} (inside : frame ∈ thread.frames) : RowPrints thread.tid (parsedFrame frame) ↔ frame.1 ≠ .none := by
  obtain ⟨position, fields, there, rfl⟩ := mem_views member
  obtain ⟨index, frame, listed, rfl⟩ := mem_viewOf_frames inside
  have threadDocument := document.eachThread fields there
  unfold RowPrints
  rw [and_iff_right (threadDocument.hashable_tid position)]
  show (frameAt index frame).1.index.isSome = true ↔ _
  rcases (threadDocument.eachFrame frame listed).number_cases index with null | ⟨number, present⟩
  · rw [null]
    exact ⟨fun impossible => (nomatch impossible), fun impossible => absurd rfl impossible⟩
  · rw [present]
    exact ⟨fun _ impossible => (nomatch impossible), fun _ => rfl⟩

theorem Document.printed_prints (document : Document data) :
    (∀ thread ∈ printed (tombstoneOf data).threads, ∀ frame ∈ thread.frames, RowPrints thread.tid frame) ↔
      Numbered (printedViews data) := by
  have outlined : (∀ thread ∈ printed (tombstoneOf data).threads, ∀ frame ∈ thread.frames, RowPrints thread.tid frame) ↔
      ∀ row ∈ (printed (tombstoneOf data).threads).map outline, ∀ frame ∈ row.2, RowPrints row.1 frame := by
    rw [List.forall_mem_map]
    rfl
  rw [outlined, document.outlines, List.forall_mem_map]
  apply forall₂_congr
  intro thread member
  show (∀ frame ∈ thread.frames.map parsedFrame, RowPrints thread.tid frame) ↔ _
  rw [List.forall_mem_map]
  exact forall₂_congr fun frame inside => document.rowPrints_iff (mem_printedViews member) inside

theorem Document.outRows_ok (document : Document data) {interpreter : Interpreter} {rows : List PyStr} :
    outRows interpreter (tombstoneOf data) (tableOf data) = .ok rows ↔
      Numbered (printedViews data) ∧ rows = rowsOf interpreter (tombstoneOf data) (tableOf data) := by
  obtain ⟨signalInfo, info⟩ : ∃ signalInfo, (tombstoneOf data).signalInfo = .str signalInfo := by
    show ∃ signalInfo, (field (StackwalkShape.crashInfo data) "type").orElse (.str []) = .str signalInfo
    rcases document.crashType with missing | ⟨text, present⟩
    · rw [missing]
      exact ⟨[], rfl⟩
    · rw [present, PyValue.orElse]
      split <;> exact ⟨_, rfl⟩
  rw [ReportFrames.outRows_ok info, document.printed_prints]

/-- The frames of some threads, each with the tid that its row is looked up under. -/
def framesOf (threads : List ThreadView) : List (PyValue × PyValue × Fields) :=
  threads.flatMap fun thread => thread.frames.map (thread.tid, ·)

theorem length_framesOf (threads : List ThreadView) :
    (framesOf threads).length = (threads.flatMap ThreadView.frames).length := by
  simp [framesOf, List.length_flatMap]

theorem Document.frameLines_eq (document : Document data) (interpreter : Interpreter) :
    frameLines (rowsOf interpreter (tombstoneOf data) (tableOf data)) =
      (framesOf (printedViews data)).map fun frame =>
        frameText interpreter frame.1 (tableOf data) (tombstoneAddrWidth (tombstoneOf data)) (parsedFrame frame.2) := by
  have rows (threads : List ParsedThread) :
      threads.flatMap (sectionText interpreter (tableOf data) (tombstoneAddrWidth (tombstoneOf data))) =
        (threads.map outline).flatMap fun thread =>
          thread.2.map (frameText interpreter thread.1 (tableOf data) (tombstoneAddrWidth (tombstoneOf data))) := by
    rw [List.flatMap_map]
    rfl
  rw [frameLines_rowsOf, tombstoneFrames, rows, document.outlines, List.flatMap_map, framesOf, List.map_flatMap]
  simp only [outlineOf, List.map_map]
  rfl

end Order

section Frames
variable {interpreter : Interpreter} {data : Fields}

/-- How the line of a frame begins. -/
def frameHead (interpreter : Interpreter) (addrW : Nat) (frame : PyValue × Fields) : PyStr :=
  literal "    #" ++ returned frame.1.twoDigits [] ++ literal " pc " ++ hex addrW (field frame.2 "module_offset").hexOf ++
    literal "  " ++ (((field frame.2 "module").orElse (.str [])).orElse (.str (literal "???"))).display interpreter

/-- The report has one line for every frame: first those of the crashing thread, then those of
the other threads in their order. -/
def Complete (interpreter : Interpreter) (data : Fields) : Prop :=
  ∃ tombstone symbols rows, parseStackwalkJson (.dict data) = .ok (tombstone, symbols) ∧
    formatSymbolicated interpreter tombstone symbols false = .ok rows.flatten ∧ outRows interpreter tombstone symbols = .ok rows ∧
      List.Forall₂ (fun line frame => frameHead interpreter (tombstoneAddrWidth tombstone) frame <+: line)
        (frameLines rows) ((inOrder (crashIndex data) (views data)).flatMap ThreadView.frames)

/-- When every frame is printed: the index of the crashing thread is one of the threads, or
the first thread has no frames to lose. -/
structure PrintsAll (data : Fields) : Prop where
  convertible : Convertible data
  numbered : Numbered (views data)
  front : crashIndex data < (views data).length ∨ ∀ first, (views data).head? = some first → first.frames = []

/-- How the line of a frame goes on after the module. -/
def frameTail (interpreter : Interpreter) (trailing : PyStr) (frame : PyValue × Fields) : PyStr :=
  (if trailing = [] then [] else literal "  " ++ trailing) ++ (trustSuffix interpreter false (parsedFrame frame) ++ newline)

theorem frameText_split {addrW : Nat} {tid : PyValue} {symbols : SymbolTable} (frame : PyValue × Fields) :
    frameText interpreter tid symbols addrW (parsedFrame frame) = frameHead interpreter addrW frame ++
      frameTail interpreter (frameTrailing interpreter (symbolAt symbols tid (parsedFrame frame)) (parsedFrame frame)) frame := by
  simp only [frameText, frameHead, frameTail, List.append_assoc]
  rfl

theorem inOrder_beyond {place : Nat} {items : List α} (beyond : items.length ≤ place) : inOrder place items = items := by
  rw [inOrder, List.getElem?_eq_none beyond, List.eraseIdx_of_length_le beyond]
  rfl

theorem Document.complete_of_printsAll (document : Document data) (prints : PrintsAll data) : Complete interpreter data := by
  have numbered : Numbered (printedViews data) := fun thread member => prints.numbered thread (mem_printedViews member)
  have rows : outRows interpreter (tombstoneOf data) (tableOf data) = .ok _ := document.outRows_ok.mpr ⟨numbered, rfl⟩
  refine ⟨_, _, _, document.parse_ok.mpr ⟨prints.convertible, rfl⟩, ?_, rows, ?_⟩
  · rw [formatSymbolicated_outRows, rows]
    rfl
  have frames : (framesOf (printedViews data)).map Prod.snd = (inOrder (crashIndex data) (views data)).flatMap ThreadView.frames := by
    have same (threads : List ThreadView) : (framesOf threads).map Prod.snd = threads.flatMap ThreadView.frames := by
      simp [framesOf, List.map_flatMap, Function.comp_def]
    rw [same, printedViews]
    split
    next => rfl
    next outside =>
      have lost := prints.front.resolve_left outside
      rw [inOrder_beyond (Nat.le_of_not_lt outside)]
      cases listed : views data with
      | nil => rfl
      | cons first others =>
        rw [List.flatMap_cons, lost first (by rw [listed]; rfl)]
        rfl
  rw [document.frameLines_eq, ← frames, List.forall₂_map_left_iff, List.forall₂_map_right_iff, List.forall₂_same]
  intro frame _
  rw [frameText_split]
  exact List.prefix_append _ _

theorem Document.printsAll_of_complete (document : Document data) (complete : Complete interpreter data) : PrintsAll data := by
  obtain ⟨tombstone, symbols, rows, parsed, _, made, shown⟩ := complete
  obtain ⟨convertible, same⟩ := document.parse_ok.mp parsed
  obtain ⟨rfl, rfl⟩ := Prod.mk.inj same
  obtain ⟨numbered, rfl⟩ := document.outRows_ok.mp made
  by_cases inside : crashIndex data < (views data).length
  · refine ⟨convertible, ?_, Or.inl inside⟩
    rw [printedViews, if_pos inside] at numbered
    intro thread member
    exact numbered thread ((mem_inOrder inside).mpr member)
  · -- Without the frames of the first thread there are fewer lines than frames.
    have count := shown.length_eq
    rw [document.frameLines_eq, List.length_map, length_framesOf, inOrder_beyond (Nat.le_of_not_lt inside), printedViews,
      if_neg inside] at count
    rw [printedViews, if_neg inside] at numbered
    cases listed : views data with
    | nil => exact absurd document.views_nonempty (by simp [listed])
    | cons first others =>
      rw [listed, List.drop_one, List.tail_cons] at numbered count
      rw [List.flatMap_cons, List.length_append] at count
      have empty : first.frames = [] := List.length_eq_zero_iff.mp (by omega)
      refine ⟨convertible, ?_, Or.inr ?_⟩
      · rw [listed]
        refine List.forall_mem_cons.mpr ⟨?_, numbered⟩
        rw [empty]
        exact List.forall_mem_nil _
      · rw [listed]
        rintro _ ⟨⟩
        exact empty

/-- The report covers all frames exactly when the index of the crashing thread is below the
number of threads or the thread it then leaves out is empty. -/
theorem all_frames_printed_iff (document : Document data) : Complete interpreter data ↔ PrintsAll data :=
  ⟨document.printsAll_of_complete, document.complete_of_printsAll⟩

/-- What a frame's own fields say of its function. -/
def ownTrailing (interpreter : Interpreter) (frame : Fields) : PyStr :=
  if (field frame "function").truthy then
    if (field frame "file").truthy ∧ 0 < lineOf frame then
      literal "(" ++ (field frame "function").display interpreter ++ literal ") [" ++ (field frame "file").display interpreter ++
        literal ":" ++ decimal (lineOf frame) ++ literal "]"
    else literal "(" ++ (field frame "function").display interpreter ++ literal ")"
  else []

/-- Every line of a frame shows what the frame itself says. -/
def ShowsOwn (interpreter : Interpreter) (data : Fields) : Prop :=
  ∀ tombstone symbols rows, parseStackwalkJson (.dict data) = .ok (tombstone, symbols) →
    outRows interpreter tombstone symbols = .ok rows →
    frameLines rows = ((printedViews data).flatMap ThreadView.frames).map fun frame =>
      frameHead interpreter (tombstoneAddrWidth tombstone) frame ++ frameTail interpreter (ownTrailing interpreter frame.2) frame

/-- The symbol that the table keeps for a frame: the last one entered under its tid and number. -/
def keptSymbol (data : Fields) (tid : PyValue) (frame : PyValue × Fields) : Option SymbolInfo :=
  lastSymbol data (keyOf tid, keyOf frame.1)

/-- The symbol kept for each printed frame reads like the frame's own. -/
def SymbolsAgree (interpreter : Interpreter) (data : Fields) : Prop :=
  ∀ thread ∈ printedViews data, ∀ frame ∈ thread.frames,
    frameTrailing interpreter (keptSymbol data thread.tid frame) (parsedFrame frame) = ownTrailing interpreter frame.2

theorem frameTail_inj {first second : PyStr} {frame : PyValue × Fields}
    (same : frameTail interpreter first frame = frameTail interpreter second frame) : first = second := by
  have spaced := List.append_cancel_right same
  split at spaced
  next empty =>
    rw [empty]
    split at spaced
    next other => exact other.symm
    next => exact absurd spaced.symm (by simp [literal, pyStr])
  next =>
    split at spaced
    next => exact absurd spaced (by simp [literal, pyStr])
    next => exact List.append_cancel_left spaced

theorem Document.showsOwn_of_agree (document : Document data)
    (agree : Convertible data → Numbered (printedViews data) → SymbolsAgree interpreter data) : ShowsOwn interpreter data := by
  intro tombstone symbols rows parsed made
  obtain ⟨convertible, same⟩ := document.parse_ok.mp parsed
  obtain ⟨rfl, rfl⟩ := Prod.mk.inj same
  obtain ⟨numbered, rfl⟩ := document.outRows_ok.mp made
  have own := agree convertible numbered
  rw [document.frameLines_eq, framesOf, List.map_flatMap, List.map_flatMap]
  apply List.flatMap_congr
  intro thread member
  rw [List.map_map]
  apply List.map_congr_left
  intro frame inside
  show frameText interpreter thread.tid (tableOf data) _ (parsedFrame frame) = _
  rw [frameText_split, symbolAt, lookup_tableOf]
  exact congrArg (fun trailing => _ ++ frameTail interpreter trailing frame) (own thread member frame inside)

theorem Document.agree_of_showsOwn (document : Document data) (shows : ShowsOwn interpreter data) (convertible : Convertible data)
    (numbered : Numbered (printedViews data)) : SymbolsAgree interpreter data := by
  have lines := shows _ _ _ (document.parse_ok.mpr ⟨convertible, rfl⟩) (document.outRows_ok.mpr ⟨numbered, rfl⟩)
  have frames : (printedViews data).flatMap ThreadView.frames = (framesOf (printedViews data)).map Prod.snd := by
    simp [framesOf, List.map_flatMap, Function.comp_def]
  rw [document.frameLines_eq, frames, List.map_map, List.map_inj_left] at lines
  intro thread member frame inside
  have listed : (thread.tid, frame) ∈ framesOf (printedViews data) :=
    List.mem_flatMap.mpr ⟨thread, member, List.mem_map.mpr ⟨frame, inside, rfl⟩⟩
  have line := lines _ listed
  rw [frameText_split, symbolAt, lookup_tableOf] at line
  exact frameTail_inj (List.append_cancel_left line)

/-- The lines show their own frames exactly when no two frames with different symbols share a
tid and a number, as far as a report is printed at all. -/
theorem own_symbols_shown_iff (document : Document data) :
    ShowsOwn interpreter data ↔
      (Convertible data → Numbered (printedViews data) → SymbolsAgree interpreter data) :=
  ⟨document.agree_of_showsOwn, document.showsOwn_of_agree⟩

end Frames

section Runs

def plain : Interpreter where
  maxDepth := 1000
  toFloat _ := .nan
  repr _ := []

def mainFrame : Fields := [(literal "frame", .int 0), (literal "function", .str (literal "main"))]

def bareFrame : Fields := [(literal "frame", .int 0)]

def mainThread : Fields := [(literal "thread_id", .int 1), (literal "frames", .list [.dict mainFrame])]

def bareThread : Fields := [(literal "frames", .list [.dict bareFrame])]

def documentOf (crashing : Nat) (threads : List Fields) : Fields :=
  [(literal "crash_info", .dict [(literal "crashing_thread", .int crashing)]), (literal "threads", .list (threads.map .dict))]

theorem mainFrame_document : FrameDocument mainFrame :=
  ⟨.inr ⟨0, rfl⟩, .inl rfl, .inl rfl, .inl rfl, .inr ⟨literal "main", rfl⟩, .inl rfl, .inl rfl⟩

theorem bareFrame_document : FrameDocument bareFrame :=
  ⟨.inr ⟨0, rfl⟩, .inl rfl, .inl rfl, .inl rfl, .inl rfl, .inl rfl, .inl rfl⟩

theorem mainThread_document : ThreadDocument mainThread :=
  ⟨.inr ⟨1, rfl⟩, .inl rfl, .inr ⟨_, rfl, List.forall_mem_singleton.mpr ⟨mainFrame, rfl⟩⟩,
    List.forall_mem_singleton.mpr mainFrame_document⟩

theorem bareThread_document : ThreadDocument bareThread :=
  ⟨.inl rfl, .inl rfl, .inr ⟨_, rfl, List.forall_mem_singleton.mpr ⟨bareFrame, rfl⟩⟩,
    List.forall_mem_singleton.mpr bareFrame_document⟩

theorem documentOf_document {crashing : Nat} {threads : List Fields} (nonempty : threads ≠ [])
    (each : ∀ thread ∈ threads, ThreadDocument thread) : Document (documentOf crashing threads) := by
  have listed : objects (field (documentOf crashing threads) "threads") = threads := by
    show (threads.map PyValue.dict).map fieldsOf = threads
    rw [List.map_map]
    exact List.map_id threads
  refine ⟨.inr ⟨_, rfl⟩, .inl rfl, .inl rfl, .inr ⟨crashing, rfl⟩, .inl rfl, .inl rfl, List.forall_mem_nil _,
    ⟨threads.map .dict, rfl, ?_⟩, ?_, ?_⟩
  · intro item member
    obtain ⟨thread, _, rfl⟩ := List.mem_map.mp member
    exact ⟨thread, rfl⟩
  · rwa [listed]
  · rwa [listed]

theorem convertible_documentOf (crashing : Nat) (threads : List Fields) : Convertible (documentOf crashing threads) :=
  ⟨fun impossible => (nomatch impossible), fun impossible => (nomatch impossible)⟩

def twoThreads : Fields := documentOf 0 [mainThread, bareThread]

theorem twoThreads_document : Document twoThreads :=
  documentOf_document (List.cons_ne_nil _ _) (List.forall_mem_cons.mpr ⟨mainThread_document, List.forall_mem_singleton.mpr bareThread_document⟩)

theorem two_threads_printed : Complete plain twoThreads :=
  (all_frames_printed_iff twoThreads_document).mpr
    ⟨convertible_documentOf _ _, List.forall_mem_cons.mpr ⟨List.forall_mem_singleton.mpr nofun,
      List.forall_mem_singleton.mpr (List.forall_mem_singleton.mpr nofun)⟩, Or.inl (by decide)⟩

/-- The frames of the first thread are lost where the crashing one is beyond the threads. -/
theorem first_thread_lost : Document (documentOf 1 [mainThread]) ∧ ¬ Complete plain (documentOf 1 [mainThread]) := by
  have document : Document (documentOf 1 [mainThread]) :=
    documentOf_document (List.cons_ne_nil _ _) (List.forall_mem_singleton.mpr mainThread_document)
  refine ⟨document, ?_⟩
  intro complete
  rcases (document.printsAll_of_complete complete).front with inside | empty
  · exact absurd inside (by decide)
  · exact List.cons_ne_nil _ _ (empty _ rfl)

/-- The second thread has an id and a function of its own. -/
def otherThread : Fields :=
  [(literal "thread_id", .int 2),
    (literal "frames", .list [.dict [(literal "frame", .int 0), (literal "function", .str (literal "wait"))]])]

theorem otherThread_document : ThreadDocument otherThread :=
  ⟨.inr ⟨2, rfl⟩, .inl rfl, .inr ⟨_, rfl, List.forall_mem_singleton.mpr ⟨_, rfl⟩⟩,
    List.forall_mem_singleton.mpr ⟨.inr ⟨0, rfl⟩, .inl rfl, .inl rfl, .inl rfl, .inr ⟨literal "wait", rfl⟩, .inl rfl, .inl rfl⟩⟩

theorem numbered_threads_show_own : ShowsOwn plain (documentOf 1 [mainThread, otherThread]) := by
  have document : Document (documentOf 1 [mainThread, otherThread]) :=
    documentOf_document (List.cons_ne_nil _ _)
      (List.forall_mem_cons.mpr ⟨mainThread_document, List.forall_mem_singleton.mpr otherThread_document⟩)
  refine (own_symbols_shown_iff document).mpr ?_
  intro _ _
  exact List.forall_mem_cons.mpr ⟨List.forall_mem_singleton.mpr rfl, List.forall_mem_singleton.mpr (List.forall_mem_singleton.mpr rfl)⟩

/-- The second thread has no id, so that its position stands for one and its frame takes the
function of the thread with that id. -/
theorem missing_id_borrows_symbol : Document twoThreads ∧ ¬ ShowsOwn plain twoThreads := by
  refine ⟨twoThreads_document, ?_⟩
  intro shows
  have numbered : Numbered (printedViews twoThreads) := List.forall_mem_cons.mpr ⟨List.forall_mem_singleton.mpr nofun,
    List.forall_mem_singleton.mpr (List.forall_mem_singleton.mpr nofun)⟩
  have agree := twoThreads_document.agree_of_showsOwn shows (convertible_documentOf _ _) numbered
  have second := agree (viewOf 1 bareThread) (List.mem_cons_of_mem _ List.mem_cons_self) (.int 0, bareFrame) List.mem_cons_self
  exact List.cons_ne_nil _ _ second

end Runs

end Crashomon.Proofs.ReportFrames
