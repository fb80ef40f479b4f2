import Crashomon.Proofs.StackwalkReport
import Crashomon.Web.CrashUpload

/-! Which outcomes of minidump-stackwalk a crash upload survives. The handlers catch
RuntimeError, but the analysis also raises what JSON decoding and an unexpected type raise. -/

namespace Crashomon.Proofs.CrashUploads
open Bytes Python Json Raising Tools.StackwalkJson Tools.Analyze Web.App Web.Models Web.CrashUpload StackwalkShape StackwalkReport

def IsRuntime (raised : Raised) : Prop := ∃ message, raised = .runtimeError message

/-- The analysis returns or raises RuntimeError. -/
def RuntimeOnly (analysis : Except Raised α) : Prop := ∀ raised, analysis = .error raised → IsRuntime raised

/-- Exactly one row is added, and the answer names it. -/
def Recorded (database : Database) (stored : Nat → Reply) (outcome : Outcome) : Prop :=
  ∃ row, outcome.database.rows = database.rows ++ [row] ∧ outcome.result = .ok (stored row.id)

/-- The outcomes of the run that are met, with a document that has the given property. -/
def Expects (interpreter : Interpreter) (holds : Fields → Prop) : Walk → Prop
  | .notFound | .timedOut => True
  | .refused | .garbled => False
  | .exited _ stdout =>
    stdout = [] ∨ (∃ container, loads interpreter stdout = .error (.tooDeep container)) ∨
      ∃ document, loads interpreter stdout = .ok (.dict document) ∧ holds document

section Annotations
open Tools.Symbolizer

/-- `struct.error` is all that the reader of annotations raises inside. -/
abbrev StructOnly (run : Raises α) : Prop := Avoids (· ≠ PyException.structError) run

theorem structOnly_unpackFrom (data : Buffer) (off : Nat) : StructOnly (unpackFrom data off) := by
  unfold unpackFrom
  split
  next => exact avoids_value _
  next => exact avoids_other (not_not.mpr rfl)

theorem structOnly_readUtf8String (data : Buffer) (rva : Nat) : StructOnly (readUtf8String data rva) := by
  unfold readUtf8String
  split
  next => exact avoids_value _
  next =>
    apply (structOnly_unpackFrom data rva).bind
    intro length
    split <;> exact avoids_value _

theorem structOnly_findCrashpadStream (data : Buffer) (dirRva remaining i : Nat) :
    StructOnly (findCrashpadStream data dirRva remaining i) := by
  induction remaining generalizing i with
  | zero => exact avoids_value 0
  | succ remaining ih =>
    apply (structOnly_unpackFrom data _).bind
    intro stype
    apply (structOnly_unpackFrom data _).bind
    intro _
    apply (structOnly_unpackFrom data _).bind
    intro srva
    split
    next => exact avoids_value srva
    next => exact ih (i + 1)

theorem structOnly_readDictionary (data : Buffer) (dictRva remaining i : Nat) (result : List (Text × Text)) :
    StructOnly (readDictionary data dictRva remaining i result) := by
  induction remaining generalizing i result with
  | zero => exact avoids_value result
  | succ remaining ih =>
    unfold readDictionary
    dsimp only
    split
    next => exact avoids_value result
    next =>
      apply (structOnly_unpackFrom data _).bind
      intro keyRva
      apply (structOnly_unpackFrom data _).bind
      intro valRva
      apply (structOnly_readUtf8String data keyRva).bind
      intro key
      apply (structOnly_readUtf8String data valRva).bind
      intro value
      exact ih (i + 1) _

theorem structOnly_parseAnnotations (data : Buffer) : StructOnly (parseAnnotations data) := by
  unfold parseAnnotations
  apply (structOnly_unpackFrom data _).bind
  intro streamCount
  apply (structOnly_unpackFrom data _).bind
  intro dirRva
  apply (structOnly_findCrashpadStream data dirRva streamCount 0).bind
  intro streamRva
  split
  next => exact avoids_value _
  next =>
    apply (structOnly_unpackFrom data _).bind
    intro version
    split
    next => exact avoids_value _
    next =>
      apply (structOnly_unpackFrom data _).bind
      intro dictSize
      apply (structOnly_unpackFrom data _).bind
      intro dictRva
      split
      next => exact avoids_value _
      next =>
        apply (structOnly_unpackFrom data _).bind
        intro count
        exact structOnly_readDictionary data dictRva count 0 []

/-- The annotations of any file can be read. -/
theorem readAnnotations_returns (content : Option Buffer) : ∃ annotations, readAnnotations content = .ok annotations := by
  cases content with
  | none => exact ⟨[], rfl⟩
  | some data =>
    have inner := structOnly_parseAnnotations data
    unfold readAnnotations readMinidumpAnnotations
    dsimp only
    split
    next => exact ⟨[], rfl⟩
    next =>
      cases parsed : parseAnnotations data with
      | ok annotations => exact ⟨annotations, rfl⟩
      | error raised =>
        have struct := not_not.mp (inner raised parsed)
        rw [struct]
        exact ⟨[], rfl⟩

end Annotations

section Types

/-- A wrong type or value in the document raises, but never RuntimeError. -/
abbrev Typed (run : Except Raised α) : Prop := Avoids IsRuntime run

theorem typed_raised {raised : Raised} (other : ∀ message, raised ≠ .runtimeError message) : Typed (.error raised : Except Raised α) :=
  avoids_other fun ⟨message, same⟩ => other message same

variable (value : PyValue)

theorem typed_getOr (name : String) (default : PyValue) : Typed (value.getOr name default) := by
  cases value with
  | dict fields => exact avoids_value _
  | _ => exact typed_raised fun _ impossible => nomatch impossible

theorem typed_get (name : String) : Typed (value.get name) := typed_getOr value name .none

theorem typed_contains (name : String) : Typed (value.contains name) := by
  cases value with
  | dict | list | str => exact avoids_value _
  | _ => exact typed_raised fun _ impossible => nomatch impossible

theorem typed_elements : Typed value.elements := by
  cases value with
  | dict | list | str => exact avoids_value _
  | _ => exact typed_raised fun _ impossible => nomatch impossible

theorem typed_length : Typed value.length := by
  cases value with
  | dict | list | str => exact avoids_value _
  | _ => exact typed_raised fun _ impossible => nomatch impossible

theorem typed_lessThan (bound : Nat) : Typed (value.lessThan bound) := by
  unfold PyValue.lessThan
  split <;> first | exact avoids_value _ | exact typed_raised fun _ impossible => nomatch impossible

theorem typed_position {unfit : Raised} (other : ∀ message, unfit ≠ .runtimeError message) (length : Nat) :
    Typed (value.position unfit length) := by
  unfold PyValue.position
  split
  next =>
    split
    next => exact avoids_value _
    next =>
      split
      next => exact avoids_value _
      next =>
        split
        next => exact typed_raised fun _ impossible => nomatch impossible
        next => exact typed_raised other
  next => exact typed_raised fun _ impossible => nomatch impossible

theorem typed_subscript (index : PyValue) : Typed (value.subscript index) := by
  cases value with
  | list items => exact (typed_position index (fun _ => Raised.noConfusion) items.length).map _
  | str text => exact (typed_position index (fun _ => Raised.noConfusion) text.length).map _
  | dict fields =>
    unfold PyValue.subscript
    cases index with
    | str name =>
      dsimp only
      split
      next => exact avoids_value _
      next => exact typed_raised fun _ impossible => nomatch impossible
    | _ => exact typed_raised fun _ impossible => nomatch impossible
  | _ => exact typed_raised fun _ impossible => nomatch impossible

theorem typed_key : Typed value.key := by
  cases value with
  | float value => cases value <;> exact avoids_value _
  | list | dict => exact typed_raised fun _ impossible => nomatch impossible
  | _ => exact avoids_value _

theorem typed_toInt : Typed value.toInt := by
  cases value with
  | float value =>
    cases value with
    | finite | negativeZero => exact avoids_value _
    | infinite | nan => exact typed_raised fun _ impossible => nomatch impossible
  | str text =>
    unfold PyValue.toInt
    dsimp only
    split
    next => exact avoids_value _
    next => exact typed_raised fun _ impossible => nomatch impossible
  | bool | int => exact avoids_value _
  | none | list | dict => exact typed_raised fun _ impossible => nomatch impossible

theorem typed_hexOrZero : Typed value.hexOrZero := by
  cases value with
  | str => exact avoids_value _
  | _ => exact typed_raised fun _ impossible => nomatch impossible

theorem typed_twoDigits : Typed value.twoDigits := by
  cases value with
  | bool | int => exact avoids_value _
  | _ => exact typed_raised fun _ impossible => nomatch impossible

theorem typed_pathName : Typed value.pathName := by
  cases value with
  | str => exact avoids_value _
  | _ => exact typed_raised fun _ impossible => nomatch impossible

theorem typed_firstWord : Typed value.firstWord := by
  unfold PyValue.firstWord
  split
  next =>
    split
    next => exact avoids_value _
    next => exact typed_raised fun _ impossible => nomatch impossible
  next => exact typed_raised fun _ impossible => nomatch impossible

section Conversion

theorem typed_missingBuildId (mod : PyValue) : Typed (missingBuildId mod) := by
  apply (typed_get mod "code_id").bind
  intro codeId
  split
  next =>
    apply (typed_get mod "filename").bind
    intro filename
    exact (typed_pathName _).map some
  next => exact avoids_value _

theorem typed_warnMissingBuildIds (data : PyValue) : Typed (warnMissingBuildIds data) := by
  apply (typed_get data "modules").bind
  intro modules
  apply (typed_elements _).bind
  intro items
  apply (avoids_mapM typed_missingBuildId items).bind
  intro missing
  exact avoids_value _

theorem typed_signalNumberOf (sigName : PyValue) : Typed (signalNumberOf sigName) := by
  unfold signalNumberOf
  split
  next => exact (typed_firstWord sigName).map _
  next => exact avoids_value 0

theorem typed_sourceLineOf (srcLine : PyValue) : Typed (sourceLineOf srcLine) := by
  unfold sourceLineOf
  split
  next => exact avoids_value 0
  next => exact typed_toInt srcLine

theorem typed_symbolOf (frameData function : PyValue) : Typed (symbolOf frameData function) := by
  apply (typed_get frameData "file").bind
  intro srcFile
  apply (typed_get frameData "line").bind
  intro srcLine
  apply (typed_sourceLineOf srcLine).bind
  intro sourceLine
  exact avoids_value _

theorem typed_addSymbol (tid frameIdx frameData : PyValue) (table : SymbolTable) :
    Typed (addSymbol tid frameIdx frameData table) := by
  apply (typed_get frameData "function").bind
  intro function
  split
  next =>
    apply (typed_symbolOf frameData function).bind
    intro sym
    apply (typed_key tid).bind
    intro tidKey
    apply (typed_key frameIdx).bind
    intro frameKey
    exact avoids_value _
  next => exact avoids_value table

theorem typed_addFrame (tid : PyValue) (read : List ParsedFrame × SymbolTable) (frameData : PyValue) :
    Typed (addFrame tid read frameData) := by
  apply (typed_getOr frameData "frame" _).bind
  intro frameIdx
  apply (typed_get frameData "module_offset").bind
  intro offsetStr
  apply (typed_hexOrZero _).bind
  intro offset
  apply (typed_get frameData "module").bind
  intro modulePath
  apply (typed_get frameData "trust").bind
  intro trust
  apply (typed_addSymbol tid frameIdx frameData read.2).bind
  intro table
  exact avoids_value _

theorem typed_addThread (crashing : PyValue) (read : List ParsedThread × SymbolTable) (threadData : PyValue) :
    Typed (addThread crashing read threadData) := by
  apply (typed_get threadData "thread_id").bind
  intro threadId
  apply (typed_get threadData "thread_name").bind
  intro name
  apply (typed_get threadData "frames").bind
  intro frames
  apply (typed_elements _).bind
  intro items
  apply (avoids_foldlM (typed_addFrame _) items _).bind
  intro inner
  exact avoids_value _

theorem typed_processNameOf (data : PyValue) : Typed (processNameOf data) := by
  apply (typed_get data "main_module").bind
  intro mainModule
  apply (typed_get data "modules").bind
  intro modules
  apply (typed_length _).bind
  intro count
  apply (typed_lessThan _ count).bind
  intro inside
  split
  next =>
    apply (typed_subscript _ _).bind
    intro mod
    apply (typed_get mod "filename").bind
    intro filename
    exact typed_pathName _
  next => exact avoids_value _

theorem typed_moveCrashingThread (crashing : PyValue) (threads : List ParsedThread) :
    Typed (moveCrashingThread crashing threads) := by
  apply (typed_lessThan crashing threads.length).bind
  intro inside
  split
  next =>
    apply (typed_position crashing (fun _ => Raised.noConfusion) threads.length).bind
    intro place
    split
    next => exact avoids_value _
    next => exact typed_raised fun _ impossible => nomatch impossible
  next => exact avoids_value _

theorem typed_parseThreads (data crashing : PyValue) : Typed (parseThreads data crashing) := by
  apply (typed_subscript data _).bind
  intro threads
  apply (typed_elements threads).bind
  intro items
  exact avoids_foldlM (typed_addThread crashing) items _

theorem typed_parseStackwalkJson (data : PyValue) : Typed (parseStackwalkJson data) := by
  apply (typed_contains data "threads").bind
  intro present
  split
  next => exact typed_raised fun _ impossible => nomatch impossible
  next =>
    apply (typed_get data "pid").bind
    intro pid
    apply (typed_getOr data "crash_info" _).bind
    intro crashInfo
    apply (typed_get crashInfo "type").bind
    intro sigName
    apply (typed_signalNumberOf sigName).bind
    intro signalNumber
    apply (typed_get crashInfo "address").bind
    intro addrStr
    apply (typed_hexOrZero _).bind
    intro faultAddr
    apply (typed_get crashInfo "crashing_thread").bind
    intro crashingThread
    apply (typed_processNameOf data).bind
    intro processName
    apply (typed_parseThreads data _).bind
    intro read
    split
    next => exact typed_raised fun _ impossible => nomatch impossible
    next =>
      apply (typed_moveCrashingThread _ read.1).bind
      intro moved
      exact avoids_value _

end Conversion

section Formatting
variable {interpreter : Interpreter} {symbols : SymbolTable} {addrW : Nat}

theorem typed_frameRow (tid : PyValue) (frame : ParsedFrame) : Typed (frameRow interpreter tid symbols addrW false frame) := by
  apply (typed_key tid).bind
  intro tidKey
  apply (typed_key frame.index).bind
  intro frameKey
  apply (typed_twoDigits frame.index).bind
  intro index
  exact avoids_value _

theorem typed_emitStackTraceSection (thread : ParsedThread) :
    Typed (emitStackTraceSection interpreter thread symbols addrW false) :=
  avoids_mapM (typed_frameRow thread.tid) thread.frames

theorem typed_backtraceRows (threads : List ParsedThread) : Typed (backtraceRows interpreter threads symbols addrW false) := by
  unfold backtraceRows
  split
  next thread _ =>
    split
    next => exact (typed_emitStackTraceSection thread).map _
    next => exact avoids_value []
  next => exact avoids_value []

theorem typed_formatSymbolicated (tombstone : ParsedTombstone) : Typed (formatSymbolicated interpreter tombstone symbols false) := by
  have signal : Typed (signalRow tombstone) := by
    unfold signalRow
    split
    next => split <;> exact avoids_value _
    next => exact typed_raised fun _ impossible => nomatch impossible
  apply signal.bind
  intro signal
  apply (typed_backtraceRows tombstone.threads).bind
  intro backtrace
  apply (avoids_mapM (fun thread => (typed_emitStackTraceSection thread).map _) (tombstone.threads.drop 1)).bind
  intro others
  exact avoids_value _

end Formatting

end Types

section Analysis
variable {interpreter : Interpreter} {content : Option Buffer}

/-- The analysis behind the run of minidump-stackwalk. -/
def analyzeDocument (interpreter : Interpreter) (content : Option Buffer) (data : PyValue) : Except Raised PyStr := do
  let _ ← warnMissingBuildIds data
  let (tombstone, symbols) ← parseStackwalkJson data
  let tombstone ← applyAnnotations tombstone content
  formatSymbolicated interpreter tombstone symbols false

def annotated (content : Option Buffer) (document : Fields) : ParsedTombstone :=
  { tombstoneOf document with
    abortMessage := Tools.Symbolizer.annotation (returned (readAnnotations content) []) "abort_message".toList
    terminateType := Tools.Symbolizer.annotation (returned (readAnnotations content) []) "terminate_type".toList }

theorem applyAnnotations_ok (document : Fields) :
    applyAnnotations (tombstoneOf document) content = .ok (annotated content document) := by
  obtain ⟨annotations, read⟩ := readAnnotations_returns content
  unfold applyAnnotations annotated
  rw [read]
  rfl

theorem signalInfo_text {document : Fields} (reads : Reads document) :
    ∃ signalInfo, (tombstoneOf document).signalInfo = .str signalInfo := by
  by_cases truthy : (field (crashInfo document) "type").truthy = true
  · obtain ⟨text, same, _⟩ := reads.crashType truthy
    exact ⟨text, (PyValue.orElse_truthy truthy _).trans same⟩
  · exact ⟨[], PyValue.orElse_falsy truthy _⟩

theorem framesPrint_iff {document : Fields} (reads : Reads document) :
    (∀ thread ∈ printed (tombstoneOf document).threads, ∀ frame ∈ thread.frames, RowPrints thread.tid frame) ↔
      ∀ thread ∈ shown (crashingIndex document) (views document), ∀ frame ∈ thread.frames, FramePrints thread.tid frame := by
  apply forall_mem_printed _ reads
  intro position thread
  exact List.forall_mem_map

theorem analyzeDocument_ok {data : PyValue} {report : PyStr} :
    analyzeDocument interpreter content data = .ok report ↔
      ∃ document, data = .dict document ∧ Shaped document ∧
        report = reportText interpreter (annotated content document) (tableOf document) := by
  unfold analyzeDocument
  constructor
  · intro analysed
    obtain ⟨names, warned, analysed⟩ := bind_ok.mp analysed
    obtain ⟨modules, got, _⟩ := bind_ok.mp warned
    obtain ⟨document, rfl⟩ := PyValue.get_ok got
    obtain ⟨⟨tombstone, symbols⟩, parsed, analysed⟩ := bind_ok.mp analysed
    obtain ⟨reads, same⟩ := parse_ok.mp ⟨⟨names, warned⟩, parsed⟩
    cases same
    dsimp only at analysed
    rw [applyAnnotations_ok, value_bind] at analysed
    obtain ⟨signalInfo, info⟩ := signalInfo_text reads
    have text : (annotated content document).signalInfo = .str signalInfo := info
    obtain ⟨rows, rfl⟩ := (formatSymbolicated_ok text).mp analysed
    exact ⟨document, rfl, ⟨reads, (framesPrint_iff reads).mp rows⟩, rfl⟩
  · rintro ⟨document, rfl, shaped, rfl⟩
    have reads := shaped.toReads
    obtain ⟨⟨names, warned⟩, parsed⟩ := parse_ok.mpr ⟨reads, rfl⟩
    obtain ⟨signalInfo, info⟩ := signalInfo_text reads
    have text : (annotated content document).signalInfo = .str signalInfo := info
    rw [warned, value_bind, parsed, value_bind]
    dsimp only
    rw [applyAnnotations_ok, value_bind]
    exact (formatSymbolicated_ok text).mpr ⟨(framesPrint_iff reads).mpr shaped.framesPrint, rfl⟩

theorem typed_analyzeDocument (data : PyValue) : Typed (analyzeDocument interpreter content data) := by
  apply (typed_warnMissingBuildIds data).bind
  intro names
  apply (typed_parseStackwalkJson data).bind
  intro read
  have annotations (tombstone : ParsedTombstone) : Typed (applyAnnotations tombstone content) := by
    obtain ⟨annotations, read⟩ := readAnnotations_returns content
    unfold applyAnnotations
    rw [read]
    exact avoids_value _
  apply (annotations read.1).bind
  intro tombstone
  exact typed_formatSymbolicated tombstone

/-- The report of a document that can be printed has text that can be stored. -/
theorem clean_report {document : Fields} (reads : Reads document) :
    Clean (reportText interpreter (annotated content document) (tableOf document)) ↔ Printable document := by
  obtain ⟨signalInfo, info⟩ := signalInfo_text reads
  have text : (annotated content document).signalInfo = .str signalInfo := info
  have bare : ∀ thread ∈ (annotated content document).threads, ∀ frame ∈ thread.frames, frame.trailing = [] := by
    obtain ⟨first, there, threads⟩ := tombstone_threads reads
    have all : ∀ thread ∈ parsedThreads document, ∀ frame ∈ thread.frames, frame.trailing = [] := by
      intro thread member frame inside
      obtain ⟨position, _, rfl⟩ := List.mem_mapIdx.mp member
      obtain ⟨view, _, rfl⟩ := List.mem_map.mp inside
      rfl
    have order : (annotated content document).threads = first :: _ := threads
    rw [order]
    intro thread member
    exact all thread ((mem_cons_eraseIdx there).mp member)
  rw [clean_reportText text bare rfl rfl, ← reportClean_iff reads]
  exact ⟨fun ⟨pid, crash, name, signal, headings, frames⟩ => ⟨pid, crash, name, signal, headings, frames⟩,
    fun ⟨pid, crash, name, signal, headings, frames⟩ => ⟨pid, crash, name, signal, headings, frames⟩⟩

end Analysis

section Outcomes
variable {interpreter : Interpreter} {stackwalk : Text} {content : Option Buffer}

theorem runStackwalkJson_exited {returncode : Int} {stdout : Text} (nonempty : stdout ≠ []) :
    runStackwalkJson interpreter stackwalk (.exited returncode stdout) = (loads interpreter stdout).mapError raisedOf := by
  rw [runStackwalkJson, if_neg nonempty]

theorem analyzeMinidump_exited {returncode : Int} {stdout : Text} {data : PyValue} (nonempty : stdout ≠ [])
    (loaded : loads interpreter stdout = .ok data) :
    analyzeMinidump interpreter stackwalk (.exited returncode stdout) content = analyzeDocument interpreter content data := by
  unfold analyzeMinidump modeMinidumpStore
  rw [runStackwalkJson_exited nonempty, loaded]
  rfl

theorem analyzeMinidump_refused {walk : Walk} {raised : Raised} (refused : runStackwalkJson interpreter stackwalk walk = .error raised) :
    analyzeMinidump interpreter stackwalk walk content = .error raised := by
  unfold analyzeMinidump modeMinidumpStore
  rw [refused]
  rfl

/-- What becomes of the analysis: it ends before there is a document, or with the document. -/
theorem analyzeMinidump_cases (interpreter : Interpreter) (stackwalk : Text) (walk : Walk) (content : Option Buffer) :
    (∃ message, analyzeMinidump interpreter stackwalk walk content = .error (.runtimeError message) ∧
        ∀ holds, Expects interpreter holds walk) ∨
      (∃ raised, analyzeMinidump interpreter stackwalk walk content = .error raised ∧ ¬ IsRuntime raised ∧
        ∀ holds, ¬ Expects interpreter holds walk) ∨
      ∃ data, analyzeMinidump interpreter stackwalk walk content = analyzeDocument interpreter content data ∧
        ∀ holds, Expects interpreter holds walk ↔ ∃ document, data = .dict document ∧ holds document := by
  cases walk with
  | notFound => exact Or.inl ⟨_, rfl, fun _ => trivial⟩
  | timedOut => exact Or.inl ⟨_, rfl, fun _ => trivial⟩
  | refused => exact Or.inr (Or.inl ⟨_, rfl, fun ⟨_, impossible⟩ => (nomatch impossible), fun _ impossible => impossible⟩)
  | garbled => exact Or.inr (Or.inl ⟨_, rfl, fun ⟨_, impossible⟩ => (nomatch impossible), fun _ impossible => impossible⟩)
  | exited returncode stdout =>
    by_cases empty : stdout = []
    · rw [empty]
      exact Or.inl ⟨_, rfl, fun _ => Or.inl rfl⟩
    · cases loaded : loads interpreter stdout with
      | ok data =>
        refine Or.inr (Or.inr ⟨data, analyzeMinidump_exited empty loaded, ?_⟩)
        intro holds
        simp [Expects, empty, loaded]
      | error error =>
        have ended : runStackwalkJson interpreter stackwalk (.exited returncode stdout) = .error (raisedOf error) := by
          rw [runStackwalkJson_exited empty, loaded]
          rfl
        cases error with
        | tooDeep container =>
          refine Or.inl ⟨_, analyzeMinidump_refused ended, ?_⟩
          intro holds
          exact Or.inr (Or.inl ⟨container, loaded⟩)
        | invalid =>
          refine Or.inr (Or.inl ⟨_, analyzeMinidump_refused ended, fun ⟨_, impossible⟩ => (nomatch impossible), ?_⟩)
          intro holds
          simp [Expects, empty, loaded]
        | exhausted => exact absurd loaded (loads_not_exhausted interpreter stdout)

theorem runtimeOnly_iff {walk : Walk} : RuntimeOnly (analyzeMinidump interpreter stackwalk walk content) ↔ Expects interpreter Shaped walk := by
  rcases analyzeMinidump_cases interpreter stackwalk walk content with
    ⟨message, ended, met⟩ | ⟨raised, ended, other, missed⟩ | ⟨data, ended, expects⟩
  · rw [ended]
    refine ⟨fun _ => met Shaped, fun _ => ?_⟩
    rintro _ ⟨⟩
    exact ⟨message, rfl⟩
  · rw [ended]
    exact ⟨fun only => absurd (only raised rfl) other, fun expected => absurd expected (missed Shaped)⟩
  · rw [ended, expects]
    constructor
    · intro only
      cases analysed : analyzeDocument interpreter content data with
      | ok report =>
        obtain ⟨document, same, shaped, _⟩ := analyzeDocument_ok.mp analysed
        exact ⟨document, same, shaped⟩
      | error raised => exact absurd (only raised analysed) (typed_analyzeDocument data raised analysed)
    · rintro ⟨document, rfl, shaped⟩ raised impossible
      rw [analyzeDocument_ok.mpr ⟨document, rfl, shaped, rfl⟩] at impossible
      cases impossible

end Outcomes

section Handlers
variable {replies : Replies} {site : Site} {database : Database} {ts : Text} {file : Upload} {walk : Walk}

theorem recorded_insertion {report : PyStr} {dmpPath : Text} :
    Recorded database replies.stored
        ⟨(insertCrash site database ts report dmpPath).1.map replies.stored, (insertCrash site database ts report dmpPath).2⟩ ↔
      Clean report := by
  rw [← toText_clean]
  unfold insertCrash
  cases encoded : toText report with
  | none =>
    constructor
    · rintro ⟨_, _, impossible⟩
      cases impossible
    · rintro ⟨_, impossible⟩
      cases impossible
  | some text => exact ⟨fun _ => ⟨text, rfl⟩, fun _ => ⟨_, rfl, rfl⟩⟩

/-- A handler records the crash unless the analysis or the insertion raises. -/
theorem recorded_upload (named : file.filename ≠ []) (acceptable : site.secureFilename file.filename ≠ []) :
    Recorded database replies.stored (upload replies site database ts (some file) walk) ↔
      ∃ report, crashReport (analyzeMinidump site.interpreter site.stackwalk walk (some file.data)) = .ok report ∧ Clean report := by
  unfold upload
  dsimp only
  rw [if_neg named, if_neg acceptable]
  cases crashReport (analyzeMinidump site.interpreter site.stackwalk walk (some file.data)) with
  | error raised =>
    constructor
    · rintro ⟨_, _, impossible⟩
      cases impossible
    · rintro ⟨_, impossible, _⟩
      cases impossible
  | ok report =>
    constructor
    · intro recorded
      exact ⟨report, rfl, recorded_insertion.mp recorded⟩
    · rintro ⟨_, ⟨⟩, clean⟩
      exact recorded_insertion.mpr clean

theorem crashReport_raised {raised : Raised} (other : ¬ IsRuntime raised) :
    crashReport (.error raised) = .error raised := by
  unfold crashReport
  split
  next message same => exact absurd ⟨message, Except.error.inj same⟩ other
  next => rfl

theorem recorded_iff (named : file.filename ≠ []) (acceptable : site.secureFilename file.filename ≠ []) :
    Recorded database replies.stored (upload replies site database ts (some file) walk) ↔
      Expects site.interpreter (fun document => Shaped document ∧ Printable document) walk := by
  rw [recorded_upload named acceptable]
  rcases analyzeMinidump_cases site.interpreter site.stackwalk walk (some file.data) with
    ⟨message, ended, met⟩ | ⟨raised, ended, other, missed⟩ | ⟨data, ended, expects⟩
  · rw [ended]
    exact ⟨fun _ => met _, fun _ => ⟨_, rfl, clean_pyStr _⟩⟩
  · rw [ended, crashReport_raised other]
    exact ⟨fun ⟨_, impossible, _⟩ => (nomatch impossible), fun expected => absurd expected (missed _)⟩
  · rw [ended, expects]
    cases analysed : analyzeDocument site.interpreter (some file.data) data with
    | error raised =>
      rw [crashReport_raised (typed_analyzeDocument data raised analysed)]
      constructor
      · rintro ⟨_, impossible, _⟩
        cases impossible
      · rintro ⟨document, rfl, shaped, _⟩
        rw [analyzeDocument_ok.mpr ⟨document, rfl, shaped, rfl⟩] at analysed
        cases analysed
    | ok report =>
      obtain ⟨document, rfl, shaped, rfl⟩ := analyzeDocument_ok.mp analysed
      constructor
      · rintro ⟨_, ⟨⟩, clean⟩
        exact ⟨document, rfl, shaped, (clean_report shaped.toReads).mp clean⟩
      · rintro ⟨_, ⟨⟩, _, printable⟩
        exact ⟨_, rfl, (clean_report shaped.toReads).mpr printable⟩

/-- Both handlers record a crash exactly where minidump-stackwalk gives what the analysis
expects, and the analysis raises RuntimeError only under the same condition on the types. -/
theorem crash_recorded_iff (site : Site) (database : Database) (ts : Text) {file : Upload} (walk : Walk)
    (named : file.filename ≠ []) (acceptable : site.secureFilename file.filename ≠ []) :
    (Recorded database .crashDetail (uploadCrash site database ts (some file) walk) ∧
        Recorded database .created (apiUploadCrash site database ts (some file) walk) ↔
      Expects site.interpreter (fun document => Shaped document ∧ Printable document) walk) ∧
    (RuntimeOnly (analyzeMinidump site.interpreter site.stackwalk walk (some file.data)) ↔
      Expects site.interpreter Shaped walk) := by
  refine ⟨?_, runtimeOnly_iff⟩
  have web := @recorded_iff ⟨.uploadForm "No file selected.".toList, .uploadForm "Invalid filename.".toList, .crashDetail⟩ site
    database ts file walk named acceptable
  have api := @recorded_iff ⟨.badRequest "no minidump provided".toList, .badRequest "invalid filename".toList, .created⟩ site
    database ts file walk named acceptable
  exact ⟨fun both => web.mp both.1, fun expected => ⟨web.mpr expected, api.mpr expected⟩⟩

def plainSite : Site where
  tmpDir := "/var/crashomon/tmp".toList
  secureFilename := id
  sha256 _ := Vector.replicate 32 0
  interpreter := ⟨1000, fun _ => .nan, fun _ => []⟩
  stackwalk := "minidump-stackwalk".toList

def plainUpload : Upload := ⟨"crash.dmp".toList, []⟩

/-- What minidump-stackwalk prints of a crash in the second of two threads. -/
def walkedText : Text :=
  "\x7b\"crash_info\": \x7b\"type\": \"SIGSEGV / SEGV_MAPERR\", \"crashing_thread\": 1\x7d, \"threads\": [".toList ++
    "\x7b\"thread_id\": 7, \"frames\": [\x7b\"frame\": 0\x7d]\x7d, \x7b\"thread_id\": 8, \"frames\": [\x7b\"frame\": 0, ".toList ++
    "\"module\": \"app\", \"module_offset\": \"0x10\", \"function\": \"main\"\x7d]\x7d]\x7d".toList

def mainFrame : Fields :=
  [(literal "frame", .int 0), (literal "module", .str (literal "app")), (literal "module_offset", .str (literal "0x10")),
    (literal "function", .str (literal "main"))]

def idleThread : Fields := [(literal "thread_id", .int 7), (literal "frames", .list [.dict [(literal "frame", .int 0)]])]

def mainThread : Fields := [(literal "thread_id", .int 8), (literal "frames", .list [.dict mainFrame])]

def walked : Fields :=
  [(literal "crash_info", .dict [(literal "type", .str (literal "SIGSEGV / SEGV_MAPERR")), (literal "crashing_thread", .int 1)]),
    (literal "threads", .list [.dict idleThread, .dict mainThread])]

theorem loads_walkedText : loads ⟨1000, fun _ => .nan, fun _ => []⟩ walkedText = .ok (.dict walked) := by cbv

theorem walked_shaped : Shaped walked where
  modules := nofun
  moduleNames := List.forall_mem_nil _
  crashObject value found := ⟨_, (Option.some.inj found).symm⟩
  crashType _ := ⟨_, rfl, .scalar 'S', List.mem_cons_self, by decide⟩
  crashAddress := nofun
  mainModule := Or.inl ⟨0, rfl, by decide⟩
  mainFilename := nofun
  someThread := rfl
  threads _ := ⟨_, rfl, List.forall_mem_cons.mpr ⟨⟨_, rfl⟩, List.forall_mem_singleton.mpr ⟨_, rfl⟩⟩⟩
  frames := List.forall_mem_cons.mpr ⟨fun _ => ⟨_, rfl, List.forall_mem_singleton.mpr ⟨_, rfl⟩⟩,
    List.forall_mem_singleton.mpr fun _ => ⟨_, rfl, List.forall_mem_singleton.mpr ⟨_, rfl⟩⟩⟩
  framesRead := List.forall_mem_cons.mpr ⟨List.forall_mem_singleton.mpr ⟨nofun, nofun⟩,
    List.forall_mem_singleton.mpr (List.forall_mem_singleton.mpr ⟨fun _ => ⟨_, rfl⟩, fun _ => ⟨trivial, trivial, trivial⟩⟩)⟩
  crashingThread := Or.inl ⟨1, rfl, by decide⟩
  framesPrint := List.forall_mem_cons.mpr ⟨List.forall_mem_singleton.mpr ⟨trivial, rfl⟩,
    List.forall_mem_singleton.mpr (List.forall_mem_singleton.mpr ⟨trivial, rfl⟩)⟩

theorem walked_printable : Printable walked := by
  have text (value : String) : PrintsClean (.str (literal value)) := fun _ same => PyValue.str.inj same ▸ clean_literal value
  have number (value : Int) : PrintsClean (.int value) := nofun
  have nothing : PrintsClean .none := nofun
  refine ⟨nothing, number 8, clean_nil, text _, List.forall_mem_singleton.mpr ⟨number 7, nothing⟩, ?modules, ?symbols⟩
  case modules =>
    exact List.forall_mem_cons.mpr ⟨List.forall_mem_singleton.mpr nothing,
      List.forall_mem_singleton.mpr (List.forall_mem_singleton.mpr (text "app"))⟩
  case symbols =>
    refine List.forall_mem_cons.mpr ⟨List.forall_mem_singleton.mpr ?_, List.forall_mem_singleton.mpr (List.forall_mem_singleton.mpr ?_)⟩
    · intro symbol found
      cases found
    · intro symbol found _
      cases found
      exact ⟨text "main", fun impossible => nomatch impossible.1⟩

/-- A crash with two threads, the second of which crashed. -/
theorem walked_crash_recorded :
    (Recorded ⟨[], 0⟩ .crashDetail (uploadCrash plainSite ⟨[], 0⟩ [] (some plainUpload) (.exited 0 walkedText)) ∧
      Recorded ⟨[], 0⟩ .created (apiUploadCrash plainSite ⟨[], 0⟩ [] (some plainUpload) (.exited 0 walkedText))) ∧
    RuntimeOnly (analyzeMinidump plainSite.interpreter plainSite.stackwalk (.exited 0 walkedText) (some plainUpload.data)) := by
  obtain ⟨recorded, runtime⟩ := @crash_recorded_iff plainSite ⟨[], 0⟩ [] plainUpload (.exited 0 walkedText) (by decide) (by decide)
  exact ⟨recorded.mpr (Or.inr (Or.inr ⟨walked, loads_walkedText, walked_shaped, walked_printable⟩)),
    runtime.mpr (Or.inr (Or.inr ⟨walked, loads_walkedText, walked_shaped⟩))⟩

/-- Output that is not JSON, a document without threads, a file that is not executable and
output that is not UTF-8 raise what no handler catches. -/
theorem unexpected_outcomes_lost :
    uploadCrash plainSite ⟨[], 0⟩ [] (some plainUpload) (.exited 1 "not json".toList) = ⟨.error .valueError, ⟨[], 0⟩⟩ ∧
    apiUploadCrash plainSite ⟨[], 0⟩ [] (some plainUpload) (.exited 1 "not json".toList) = ⟨.error .valueError, ⟨[], 0⟩⟩ ∧
    apiUploadCrash plainSite ⟨[], 0⟩ [] (some plainUpload) (.exited 0 "{}".toList) = ⟨.error .valueError, ⟨[], 0⟩⟩ ∧
    apiUploadCrash plainSite ⟨[], 0⟩ [] (some plainUpload) .refused = ⟨.error .osError, ⟨[], 0⟩⟩ ∧
    ¬ ∀ (site : Site) (database : Database) (ts : Text) (file : Upload) (walk : Walk), file.filename ≠ [] →
      site.secureFilename file.filename ≠ [] →
      (Recorded database .crashDetail (uploadCrash site database ts (some file) walk) ∧
        Recorded database .created (apiUploadCrash site database ts (some file) walk)) ∧
      RuntimeOnly (analyzeMinidump site.interpreter site.stackwalk walk (some file.data)) := by
  refine ⟨rfl, rfl, rfl, rfl, ?_⟩
  intro all
  obtain ⟨_, only⟩ := all plainSite ⟨[], 0⟩ [] plainUpload .refused (by decide) (by decide)
  obtain ⟨_, impossible⟩ := only .osError rfl
  cases impossible

end Handlers

end Crashomon.Proofs.CrashUploads
