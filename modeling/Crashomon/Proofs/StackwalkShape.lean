import Crashomon.Base.PyShape
import Crashomon.Tools.Analyze
import Mathlib.Data.List.GetD

/-! The documents that the analysis can convert and print. Its reader takes the types of
the fields for granted; these are the types it relies on. -/

namespace Crashomon.Proofs.StackwalkShape
open Python Raising Tools.StackwalkJson Tools.Analyze
open PyValue (objects_loop get_dict hexOrZero_ok elements_ok selects_ok key_ok pathName_ok pathName_returns twoDigits_returns)

/-- A thread of the document with its index and that of each frame filled in. -/
structure ThreadView where
  tid : PyValue
  name : PyValue
  frames : List (PyValue × Fields)

def frameAt (position : Nat) (frame : Fields) : PyValue × Fields :=
  ((frame.lookup (literal "frame")).getD (.int position), frame)

def viewOf (position : Nat) (thread : Fields) : ThreadView where
  tid := (field thread "thread_id").orElse (.int position)
  name := field thread "thread_name"
  frames := (objects (field thread "frames")).mapIdx frameAt

def views (data : Fields) : List ThreadView := (objects (field data "threads")).mapIdx viewOf

def crashInfo (data : Fields) : Fields := fieldsOf (field data "crash_info")

def crashingIndex (data : Fields) : PyValue := (field (crashInfo data) "crashing_thread").orElse (.int 0)

def modulesOf (data : Fields) : List Fields := objects (field data "modules")

def mainModuleIndex (data : Fields) : PyValue := (field data "main_module").orElse (.int 0)

/-- The file name of the main module. -/
def mainFilename (data : Fields) : PyValue :=
  match placeOf (mainModuleIndex data) (modulesOf data).length with
  | some place => field ((modulesOf data).getD place []) "filename"
  | none => .none

/-- The thread that moves to the front. -/
def front (crashing : PyValue) (count : Nat) : Nat := (placeOf crashing count).getD 0

/-- The threads whose frames are printed: the one in front only if it is the crashing one. -/
def shown (crashing : PyValue) (threads : List ThreadView) : List ThreadView :=
  if crashing.equals (front crashing threads.length) then threads else threads.eraseIdx (front crashing threads.length)

/-- A frame with a function has an entry in the symbol table, under the tid and the index. -/
def FrameReads (tid : PyValue) (frame : PyValue × Fields) : Prop :=
  TextOrFalsy (field frame.2 "module_offset") ∧
    ((field frame.2 "function").truthy = true → LineOrNone (field frame.2 "line") ∧ IsHashable tid ∧ IsHashable frame.1)

def FramePrints (tid : PyValue) (frame : PyValue × Fields) : Prop := IsHashable tid ∧ frame.1.index.isSome = true

/-- The types that the conversion relies on. -/
structure Reads (data : Fields) : Prop where
  modules : ObjectsOrFalsy (field data "modules")
  moduleNames : ∀ mod ∈ modulesOf data, (field mod "code_id").isText "id" = true → TextOrFalsy (field mod "filename")
  crashObject : ∀ value, data.lookup (literal "crash_info") = some value → ∃ info, value = .dict info
  crashType : WordOrFalsy (field (crashInfo data) "type")
  crashAddress : TextOrFalsy (field (crashInfo data) "address")
  mainModule : Subscripts (mainModuleIndex data) (modulesOf data).length
  mainFilename : TextOrFalsy (mainFilename data)
  someThread : (field data "threads").truthy = true
  threads : ObjectsOrFalsy (field data "threads")
  frames : ∀ thread ∈ objects (field data "threads"), ObjectsOrFalsy (field thread "frames")
  framesRead : ∀ thread ∈ views data, ∀ frame ∈ thread.frames, FrameReads thread.tid frame
  crashingThread : Subscripts (crashingIndex data) (views data).length

/-- The types that the analysis relies on. -/
structure Shaped (data : Fields) : Prop extends Reads data where
  framesPrint : ∀ thread ∈ shown (crashingIndex data) (views data), ∀ frame ∈ thread.frames, FramePrints thread.tid frame

section Parsing

def parsedFrame (frame : PyValue × Fields) : ParsedFrame :=
  { index := frame.1, moduleOffset := (field frame.2 "module_offset").hexOf,
    modulePath := (field frame.2 "module").orElse (.str []), trust := (field frame.2 "trust").orElse (.str []) }

def lineOf (frame : Fields) : Int := returned (sourceLineOf (field frame "line")) 0

def symbolInfo (frame : Fields) : SymbolInfo :=
  ⟨field frame "function", (field frame "file").orElse (.str []), lineOf frame⟩

def insert (table : SymbolTable) (entry : (Key × Key) × SymbolInfo) : SymbolTable := dictSet table entry.1 entry.2

/-- The entry of a frame that has a function. -/
def entries (tid : PyValue) (frame : PyValue × Fields) : List ((Key × Key) × SymbolInfo) :=
  if (field frame.2 "function").truthy then [((keyOf tid, keyOf frame.1), symbolInfo frame.2)] else []

theorem sourceLineOf_returns {value : PyValue} : (∃ line, sourceLineOf value = .ok line) ↔ LineOrNone value := by
  by_cases absent : value = .none
  · rw [absent]
    exact ⟨fun _ => trivial, fun _ => ⟨0, rfl⟩⟩
  · have converted : sourceLineOf value = value.toInt := by
      cases value with
      | none => exact absurd rfl absent
      | _ => rfl
    rw [converted]
    exact PyValue.toInt_returns absent

theorem addSymbol_ok {tid : PyValue} {frame : PyValue × Fields} {table result : SymbolTable} :
    addSymbol tid frame.1 (.dict frame.2) table = .ok result ↔
      ((field frame.2 "function").truthy = true → LineOrNone (field frame.2 "line") ∧ IsHashable tid ∧ IsHashable frame.1) ∧
        result = (entries tid frame).foldl insert table := by
  unfold addSymbol symbolOf entries
  simp only [get_dict, bind_ok, Except.ok.injEq, exists_eq_left']
  split
  next truthy =>
    simp only [bind_ok, Except.ok.injEq, exists_eq_left', key_ok, truthy, true_imp_iff, List.foldl_cons, List.foldl_nil]
    constructor
    · rintro ⟨_, ⟨line, taken, rfl⟩, _, ⟨tidHashes, rfl⟩, _, ⟨frameHashes, rfl⟩, rfl⟩
      obtain ⟨lined, rfl⟩ := (ok_iff_returned 0).mp taken
      exact ⟨⟨sourceLineOf_returns.mp lined, tidHashes, frameHashes⟩, rfl⟩
    · rintro ⟨⟨lined, tidHashes, frameHashes⟩, rfl⟩
      exact ⟨_, ⟨_, (ok_iff_returned 0).mpr ⟨sourceLineOf_returns.mpr lined, rfl⟩, rfl⟩, _, ⟨tidHashes, rfl⟩, _,
        ⟨frameHashes, rfl⟩, rfl⟩
  next falsy =>
    simp only [falsy, Except.ok.injEq, List.foldl_nil]
    exact ⟨fun same => ⟨fun impossible => (nomatch impossible), same.symm⟩, fun same => same.2.symm⟩

theorem addFrame_ok {tid frameData : PyValue} {read result : List ParsedFrame × SymbolTable} :
    addFrame tid read frameData = .ok result ↔
      (∃ frame, frameData = .dict frame ∧ FrameReads tid (frameAt read.1.length frame)) ∧
        result = (read.1 ++ [parsedFrame (frameAt read.1.length (fieldsOf frameData))],
          (entries tid (frameAt read.1.length (fieldsOf frameData))).foldl insert read.2) := by
  cases frameData with
  | dict frame =>
    have index : PyValue.getOr (.dict frame) "frame" (.int read.1.length) = .ok (frameAt read.1.length frame).1 := rfl
    unfold addFrame FrameReads
    simp only [index, get_dict, bind_ok, Except.ok.injEq, exists_eq_left', PyValue.dict.injEq, hexOrZero_ok, fieldsOf]
    constructor
    · rintro ⟨_, ⟨offset, rfl⟩, table, symbols, rfl⟩
      obtain ⟨reads, rfl⟩ := addSymbol_ok.mp symbols
      exact ⟨⟨offset, reads⟩, rfl⟩
    · rintro ⟨⟨offset, reads⟩, rfl⟩
      exact ⟨_, ⟨offset, rfl⟩, _, addSymbol_ok.mpr ⟨reads, rfl⟩, rfl⟩
  | _ => exact ⟨fun impossible => (nomatch impossible), fun ⟨⟨_, impossible, _⟩, _⟩ => (nomatch impossible)⟩

def parsedThread (crashing : PyValue) (position : Nat) (thread : ThreadView) : ParsedThread :=
  ⟨thread.tid, thread.name.orElse (.str []), crashing.equals position, thread.frames.map parsedFrame⟩

def ThreadReads (thread : Nat × Fields) : Prop :=
  ObjectsOrFalsy (field thread.2 "frames") ∧
    ∀ frame ∈ (viewOf thread.1 thread.2).frames, FrameReads (viewOf thread.1 thread.2).tid frame

def threadEntries (thread : ThreadView) : List ((Key × Key) × SymbolInfo) := thread.frames.flatMap (entries thread.tid)

theorem addThread_ok {crashing threadData : PyValue} {read result : List ParsedThread × SymbolTable} :
    addThread crashing read threadData = .ok result ↔
      (∃ thread, threadData = .dict thread ∧ ThreadReads (read.1.length, thread)) ∧
        result = (read.1 ++ [parsedThread crashing read.1.length (viewOf read.1.length (fieldsOf threadData))],
          (threadEntries (viewOf read.1.length (fieldsOf threadData))).foldl insert read.2) := by
  cases threadData with
  | dict thread =>
    have loop (inner : List ParsedFrame × SymbolTable) := objects_loop frameAt _ _ _
      (fun frames item result => @addFrame_ok (viewOf read.1.length thread).tid item frames result)
      (field thread "frames") read.2 inner
    simp only [bind_ok] at loop
    unfold addThread ThreadReads
    simp only [get_dict, bind_ok, Except.ok.injEq, exists_eq_left', PyValue.dict.injEq, fieldsOf]
    constructor
    · rintro ⟨items, elements, inner, ran, rfl⟩
      obtain ⟨shape, reads, rfl⟩ := (loop inner).mp ⟨items, elements, ran⟩
      exact ⟨⟨shape, reads⟩, rfl⟩
    · rintro ⟨⟨shape, reads⟩, rfl⟩
      obtain ⟨items, elements, ran⟩ := (loop _).mpr ⟨shape, reads, rfl⟩
      exact ⟨items, elements, _, ran, rfl⟩
  | _ => exact ⟨fun impossible => (nomatch impossible), fun ⟨⟨_, impossible, _⟩, _⟩ => (nomatch impossible)⟩

def parsedThreads (data : Fields) : List ParsedThread := (views data).mapIdx (parsedThread (crashingIndex data))

def tableOf (data : Fields) : SymbolTable := ((views data).flatMap threadEntries).foldl insert []

theorem views_nonempty {data : Fields} (truthy : (field data "threads").truthy = true)
    (shape : ObjectsOrFalsy (field data "threads")) : 0 < (views data).length := by
  obtain ⟨items, listed, _⟩ := shape truthy
  rw [listed] at truthy
  cases items with
  | nil => cases truthy
  | cons item items => simp [views, objects, listed, itemsOf]

theorem length_parsedThreads (data : Fields) : (parsedThreads data).length = (views data).length := List.length_mapIdx

theorem parseThreads_ok {data : Fields} {read : List ParsedThread × SymbolTable} :
    (parseThreads (.dict data) (crashingIndex data) = .ok read ∧ read.1 ≠ []) ↔
      (field data "threads").truthy = true ∧ ObjectsOrFalsy (field data "threads") ∧
        (∀ thread ∈ (objects (field data "threads")).mapIdx Prod.mk, ThreadReads thread) ∧
        read = (parsedThreads data, tableOf data) := by
  have loop := objects_loop Prod.mk ThreadReads
    (fun thread => parsedThread (crashingIndex data) thread.1 (viewOf thread.1 thread.2))
    (fun thread => threadEntries (viewOf thread.1 thread.2))
    (fun threads item result => @addThread_ok (crashingIndex data) item threads result) (field data "threads") [] read
  have same : (((objects (field data "threads")).mapIdx Prod.mk).map
        (fun thread => parsedThread (crashingIndex data) thread.1 (viewOf thread.1 thread.2)),
      (((objects (field data "threads")).mapIdx Prod.mk).flatMap
        (fun thread => threadEntries (viewOf thread.1 thread.2))).foldl insert []) = (parsedThreads data, tableOf data) := by
    rw [Prod.mk.injEq]
    constructor
    · symm
      rw [parsedThreads, views, List.mapIdx_mapIdx, List.mapIdx_eq_iff]
      intro position
      simp [Function.comp_def]
    · have entries : ((objects (field data "threads")).mapIdx Prod.mk).map (fun thread => threadEntries (viewOf thread.1 thread.2)) =
          (views data).map threadEntries := by
        apply List.ext_getElem?
        intro position
        simp [views, Function.comp_def]
      rw [tableOf, List.flatMap_def, List.flatMap_def, entries]
  rw [same] at loop
  by_cases truthy : (field data "threads").truthy = true
  · obtain ⟨threads, found⟩ : ∃ threads, data.lookup (literal "threads") = some threads := by
      cases found : data.lookup (literal "threads") with
      | some threads => exact ⟨threads, rfl⟩
      | none =>
        rw [field, found] at truthy
        cases truthy
    have threads_eq : field data "threads" = threads := by rw [field, found, Option.getD_some]
    have item : PyValue.subscript (.dict data) (.str (literal "threads")) = .ok (field data "threads") := by
      rw [threads_eq, PyValue.subscript, found]
    rw [PyValue.orElse_truthy truthy] at loop
    unfold parseThreads
    rw [item]
    simp only [bind_ok] at loop ⊢
    simp only [Except.ok.injEq, exists_eq_left', loop, truthy, true_and]
    constructor
    · rintro ⟨read, _⟩
      exact read
    · rintro ⟨shape, reads, rfl⟩
      refine ⟨⟨shape, reads, rfl⟩, ?_⟩
      apply List.ne_nil_of_length_pos
      rw [length_parsedThreads]
      exact views_nonempty truthy shape
  · constructor
    · rintro ⟨read, nonempty⟩
      obtain ⟨threads, item, read⟩ := bind_ok.mp read
      obtain ⟨items, elements, ran⟩ := bind_ok.mp read
      have threads_eq : field data "threads" = threads := by
        rw [PyValue.subscript] at item
        split at item
        next found =>
          cases item
          rw [field, found, Option.getD_some]
        next => cases item
      rw [threads_eq] at truthy
      rw [PyValue.elements_falsy truthy elements] at ran
      cases ran
      exact absurd rfl nonempty
    · rintro ⟨impossible, _⟩
      exact absurd impossible truthy

/-- The threads with the crashing one in front, and its tid. -/
def moved (crashing : PyValue) (threads : List ParsedThread) : List ParsedThread × PyValue :=
  match placeOf crashing threads.length with
  | some place => (threads[place]?.toList ++ threads.eraseIdx place, (threads[place]?.map ParsedThread.tid).getD .none)
  | none => (threads, .int 0)

theorem moveCrashingThread_ok {crashing : PyValue} {threads : List ParsedThread} {result : List ParsedThread × PyValue} :
    moveCrashingThread crashing threads = .ok result ↔
      Subscripts crashing threads.length ∧ result = moved crashing threads := by
  unfold moveCrashingThread
  rw [selects_ok]
  apply and_congr_right
  intro subscripts
  unfold moved
  cases selected : placeOf crashing threads.length with
  | none => exact ⟨fun same => (Except.ok.inj same).symm, fun same => congrArg Except.ok same.symm⟩
  | some place =>
    have inside := PyValue.placeOf_lt subscripts selected
    simp only [List.getElem?_eq_getElem inside, Except.ok.injEq]
    exact eq_comm

theorem processNameOf_ok {data : Fields} {name : PyStr} (shape : ObjectsOrFalsy (field data "modules")) :
    processNameOf (.dict data) = .ok name ↔
      Subscripts (mainModuleIndex data) (modulesOf data).length ∧ TextOrFalsy (mainFilename data) ∧
        name = (mainFilename data).nameOf := by
  have listed := PyValue.orElse_objects shape
  have count : (itemsOf (field data "modules")).length = (modulesOf data).length := by simp [modulesOf, objects]
  have index : (field data "main_module").orElse (.int 0) = mainModuleIndex data := rfl
  unfold processNameOf
  simp only [get_dict, value_bind, index]
  rw [listed, PyValue.length, value_bind]
  simp only [PyValue.subscript, mapped_bind]
  rw [selects_ok, count]
  apply and_congr_right
  intro subscripts
  unfold mainFilename
  cases selected : placeOf (mainModuleIndex data) (modulesOf data).length with
  | none =>
    have absent : TextOrFalsy .none := fun impossible => nomatch impossible
    exact ⟨fun same => ⟨absent, (Except.ok.inj same).symm⟩, fun same => congrArg Except.ok same.2.symm⟩
  | some place =>
    have inside := PyValue.placeOf_lt subscripts selected
    have some_item : place < (itemsOf (field data "modules")).length := count ▸ inside
    obtain ⟨mod, object⟩ := PyValue.mem_itemsOf shape (List.getElem_mem some_item)
    have found : (modulesOf data).getD place [] = mod := by
      simp [modulesOf, objects, List.getElem?_eq_getElem some_item, object, fieldsOf]
    dsimp only
    rw [List.getD_eq_getElem _ _ some_item, object, get_dict, value_bind, found]
    exact pathName_ok

theorem warnMissingBuildIds_returns {data : Fields} :
    (∃ names, warnMissingBuildIds (.dict data) = .ok names) ↔
      ObjectsOrFalsy (field data "modules") ∧
        ∀ mod ∈ modulesOf data, (field mod "code_id").isText "id" = true → TextOrFalsy (field mod "filename") := by
  have each (mod : Fields) : (∃ name, missingBuildId (.dict mod) = .ok name) ↔
      ((field mod "code_id").isText "id" = true → TextOrFalsy (field mod "filename")) := by
    unfold missingBuildId
    simp only [get_dict, value_bind]
    split
    next missing =>
      simp only [map_ok, missing, true_imp_iff, ← pathName_returns (literal "?")]
      exact ⟨fun ⟨_, name, found, _⟩ => ⟨name, found⟩, fun ⟨name, found⟩ => ⟨_, name, found, rfl⟩⟩
    next present => exact ⟨fun _ impossible => absurd impossible present, fun _ => ⟨_, rfl⟩⟩
  unfold warnMissingBuildIds
  simp only [get_dict, value_bind]
  constructor
  · rintro ⟨names, warned⟩
    obtain ⟨items, elements, warned⟩ := bind_ok.mp warned
    obtain ⟨missing, visited, _⟩ := bind_ok.mp warned
    have all := mapM_returns items |>.mp ⟨missing, visited⟩
    have dicts : ∀ item ∈ items, ∃ fields, item = .dict fields := by
      intro item member
      obtain ⟨name, found⟩ := all item member
      obtain ⟨codeId, got, _⟩ := bind_ok.mp found
      exact PyValue.get_ok got
    obtain ⟨shape, rfl⟩ := (elements_ok dicts).mp elements
    refine ⟨shape, ?_⟩
    intro mod member
    obtain ⟨item, there, rfl⟩ := List.mem_map.mp member
    obtain ⟨fields, rfl⟩ := dicts item there
    exact (each fields).mp (all _ there)
  · rintro ⟨shape, named⟩
    have visited : ∃ missing, (itemsOf (field data "modules")).mapM missingBuildId = .ok missing := by
      rw [mapM_returns]
      intro item member
      obtain ⟨fields, rfl⟩ := PyValue.mem_itemsOf shape member
      exact (each fields).mpr (named fields (List.mem_map.mpr ⟨_, member, rfl⟩))
    obtain ⟨missing, visited⟩ := visited
    refine ⟨missing.reduceOption, ?_⟩
    rw [PyValue.orElse_objects shape, PyValue.elements, value_bind, visited, value_bind]

theorem signalNumberOf_ok {sigName : PyValue} {number : Int} :
    signalNumberOf sigName = .ok number ↔ WordOrFalsy sigName ∧ number = returned (signalNumberOf sigName) 0 := by
  have returns : (∃ number, signalNumberOf sigName = .ok number) ↔ WordOrFalsy sigName := by
    unfold signalNumberOf WordOrFalsy
    split
    next truthy =>
      simp only [map_ok, truthy, true_imp_iff, ← PyValue.firstWord_returns]
      exact ⟨fun ⟨_, word, found, _⟩ => ⟨word, found⟩, fun ⟨word, found⟩ => ⟨_, word, found, rfl⟩⟩
    next falsy => exact ⟨fun _ impossible => absurd impossible falsy, fun _ => ⟨0, rfl⟩⟩
  rw [ok_iff_returned 0, returns]

def tombstoneOf (data : Fields) : ParsedTombstone :=
  { pid := (field data "pid").orElse (.int 0)
    crashingTid := (moved (crashingIndex data) (parsedThreads data)).2
    processName := (mainFilename data).nameOf
    signalInfo := (field (crashInfo data) "type").orElse (.str [])
    signalNumber := returned (signalNumberOf (field (crashInfo data) "type")) 0
    faultAddr := (field (crashInfo data) "address").hexOf
    threads := (moved (crashingIndex data) (parsedThreads data)).1 }

theorem crashInfo_eq {data : Fields}
    (object : ∀ value, data.lookup (literal "crash_info") = some value → ∃ info, value = .dict info) :
    PyValue.getOr (.dict data) "crash_info" (.dict []) = .ok (.dict (crashInfo data)) := by
  unfold PyValue.getOr crashInfo field
  dsimp only
  cases found : data.lookup (literal "crash_info") with
  | none => rfl
  | some value =>
    obtain ⟨info, rfl⟩ := object value found
    rfl

theorem crashInfo_object {data : Fields} {info value : PyValue} {name : String}
    (found : PyValue.getOr (.dict data) "crash_info" (.dict []) = .ok info) (got : info.get name = .ok value) :
    ∀ value, data.lookup (literal "crash_info") = some value → ∃ info, value = .dict info := by
  intro value present
  rw [PyValue.getOr, present] at found
  cases found
  exact PyValue.get_ok got

/-- The frames that the symbol table and the tombstone need, in the terms of the view. -/
theorem threadsRead_iff {data : Fields} :
    (∀ thread ∈ (objects (field data "threads")).mapIdx Prod.mk, ThreadReads thread) ↔
      (∀ thread ∈ objects (field data "threads"), ObjectsOrFalsy (field thread "frames")) ∧
        ∀ thread ∈ views data, ∀ frame ∈ thread.frames, FrameReads thread.tid frame := by
  constructor
  · intro all
    refine ⟨?_, ?_⟩
    · intro thread member
      obtain ⟨position, inside, rfl⟩ := List.mem_iff_getElem.mp member
      exact (all _ (List.mem_mapIdx.mpr ⟨position, inside, rfl⟩)).1
    · intro thread member
      obtain ⟨position, inside, rfl⟩ := List.mem_mapIdx.mp member
      exact (all _ (List.mem_mapIdx.mpr ⟨position, inside, rfl⟩)).2
  · rintro ⟨frames, reads⟩ thread member
    obtain ⟨position, inside, rfl⟩ := List.mem_mapIdx.mp member
    exact ⟨frames _ (List.getElem_mem inside), reads _ (List.mem_mapIdx.mpr ⟨position, inside, rfl⟩)⟩

theorem parse_ok {data : Fields} {result : ParsedTombstone × SymbolTable} :
    ((∃ names, warnMissingBuildIds (.dict data) = .ok names) ∧ parseStackwalkJson (.dict data) = .ok result) ↔
      Reads data ∧ result = (tombstoneOf data, tableOf data) := by
  rw [warnMissingBuildIds_returns]
  constructor
  · rintro ⟨⟨shape, named⟩, parsed⟩
    unfold parseStackwalkJson at parsed
    obtain ⟨present, _, parsed⟩ := bind_ok.mp parsed
    split at parsed
    next => cases parsed
    next =>
      simp only [get_dict, value_bind] at parsed
      obtain ⟨info, found, parsed⟩ := bind_ok.mp parsed
      obtain ⟨sigName, type, parsed⟩ := bind_ok.mp parsed
      have object := crashInfo_object found type
      rw [crashInfo_eq object] at found
      cases found
      cases type
      obtain ⟨number, numbered, parsed⟩ := bind_ok.mp parsed
      obtain ⟨word, rfl⟩ := signalNumberOf_ok.mp numbered
      simp only [get_dict, value_bind] at parsed
      obtain ⟨faultAddr, converted, parsed⟩ := bind_ok.mp parsed
      obtain ⟨address, rfl⟩ := hexOrZero_ok.mp converted
      obtain ⟨processName, taken, parsed⟩ := bind_ok.mp parsed
      obtain ⟨main, filename, rfl⟩ := (processNameOf_ok shape).mp taken
      obtain ⟨read, ran, parsed⟩ := bind_ok.mp parsed
      split at parsed
      next => cases parsed
      next nonempty =>
        have some_thread : read.1 ≠ [] := by simpa using nonempty
        obtain ⟨someThread, threads, reads, rfl⟩ := parseThreads_ok.mp ⟨ran, some_thread⟩
        obtain ⟨result, first, parsed⟩ := bind_ok.mp parsed
        obtain ⟨crashing, rfl⟩ := moveCrashingThread_ok.mp first
        cases parsed
        obtain ⟨frames, framesRead⟩ := threadsRead_iff.mp reads
        rw [length_parsedThreads] at crashing
        exact ⟨⟨shape, named, object, word, address, main, filename, someThread, threads, frames, framesRead, crashing⟩, rfl⟩
  · rintro ⟨reads, rfl⟩
    refine ⟨⟨reads.modules, reads.moduleNames⟩, ?_⟩
    have present : PyValue.contains (.dict data) "threads" = .ok true := by
      have truthy := reads.someThread
      unfold PyValue.contains
      cases found : data.lookup (literal "threads") with
      | some threads => simp [found]
      | none =>
        rw [field, found] at truthy
        cases truthy
    obtain ⟨ran, nonempty⟩ := parseThreads_ok.mpr
      ⟨reads.someThread, reads.threads, threadsRead_iff.mpr ⟨reads.frames, reads.framesRead⟩, rfl⟩
    have some_thread : (parsedThreads data).isEmpty = false := by simpa using nonempty
    have index : (field (crashInfo data) "crashing_thread").orElse (.int 0) = crashingIndex data := rfl
    have name := (processNameOf_ok reads.modules).mpr ⟨reads.mainModule, reads.mainFilename, rfl⟩
    have crashing : Subscripts (crashingIndex data) (parsedThreads data).length := by
      rw [length_parsedThreads]
      exact reads.crashingThread
    unfold parseStackwalkJson
    rw [present, value_bind, if_neg (by decide), get_dict, value_bind, crashInfo_eq reads.crashObject, value_bind, get_dict,
      value_bind, signalNumberOf_ok.mpr ⟨reads.crashType, rfl⟩, value_bind, get_dict, value_bind,
      hexOrZero_ok.mpr ⟨reads.crashAddress, rfl⟩, value_bind, get_dict, value_bind]
    dsimp only
    rw [name, value_bind, index, ran, value_bind, if_neg (by simp [some_thread]), moveCrashingThread_ok.mpr ⟨crashing, rfl⟩]
    rfl

end Parsing

end Crashomon.Proofs.StackwalkShape
