import Crashomon.Proofs.PruneSafety

/-! Where exported dumps end up. The name of the copy tells apart the sanitised process
name, the second of the export and the short build ID, and nothing else of a crash. -/

namespace Crashomon.Proofs.ExportNames
open Bytes Daemon Daemon.DiskManager Daemon.MinidumpReader Daemon.Worker Daemon.Watcher

section Names

def sanitized (info : MinidumpInfo) : ByteString := info.processName.map fun chr => if isAlnum chr || chr = 45 then chr else 95

def buildIdDigits (info : MinidumpInfo) : ByteString :=
  ((((info.modules.head?.map ModuleInfo.buildId).getD []).filter isXDigit).take 8).map toLower

/-- The eight digits of the build ID in the name, filled up with zeros. -/
def shortId (info : MinidumpInfo) : ByteString := buildIdDigits info ++ List.replicate (8 - (buildIdDigits info).length) 48

def underscore : UInt8 := 95

theorem exportName_eq (info : MinidumpInfo) (timestamp : ByteString) :
    exportName info timestamp =
      ((sanitized info ++ underscore :: timestamp) ++ underscore :: shortId info) ++ ascii ".crashdump" := by
  have separator : ascii "_" = [underscore] := by decide
  simp only [exportName, sanitized, shortId, buildIdDigits, separator, List.append_assoc, List.cons_append, List.nil_append]

theorem toLower_ne_underscore (chr : UInt8) (hex : isXDigit chr = true) : toLower chr ≠ underscore := by
  have each : ∀ value : Fin 256, isXDigit (UInt8.ofFin value) = true → toLower (UInt8.ofFin value) ≠ underscore := by
    decide +kernel
  exact each chr.toFin hex

theorem underscore_not_mem_shortId (info : MinidumpInfo) : underscore ∉ shortId info := by
  intro member
  rcases List.mem_append.mp member with digit | filler
  · obtain ⟨chr, kept, lowered⟩ := List.mem_map.mp digit
    have hex : isXDigit chr = true := (List.mem_filter.mp (List.mem_of_mem_take kept)).2
    exact toLower_ne_underscore chr hex lowered
  · exact absurd (List.eq_of_mem_replicate filler) (by decide)

theorem underscore_not_mem_digits {timestamp : ByteString} (clock : timestamp.all isDigit = true) : underscore ∉ timestamp := by
  intro member
  exact absurd (List.all_eq_true.mp clock underscore member) (by decide)

/-- The name can be read back: its three parts are determined. -/
theorem exportName_inj {first second : MinidumpInfo} {early late : ByteString} (clock : early.all isDigit = true)
    (other : late.all isDigit = true) :
    exportName first early = exportName second late ↔
      sanitized first = sanitized second ∧ early = late ∧ shortId first = shortId second := by
  rw [exportName_eq, exportName_eq]
  constructor
  · intro same
    have stems := List.append_cancel_right same
    obtain ⟨front, ids⟩ := split_at_last (underscore_not_mem_shortId first) (underscore_not_mem_shortId second) stems
    obtain ⟨names, times⟩ := split_at_last (underscore_not_mem_digits clock) (underscore_not_mem_digits other) front
    exact ⟨names, times, ids⟩
  · rintro ⟨names, rfl, ids⟩
    rw [names, ids]

end Names

/-- The content of a file of the directory. -/
def fileAt (files : List StoredFile) (path : ByteString) : Option Buffer :=
  (files.find? fun file => file.path = path).map StoredFile.data

theorem fileAt_place (file : StoredFile) (files : List StoredFile) (path : ByteString) :
    fileAt (place file files) path = if path = file.path then some file.data else fileAt files path := by
  unfold fileAt place without
  rw [List.find?_append, List.find?_filter]
  by_cases here : path = file.path
  · have absent : files.find? (fun entry => decide (decide (entry.path ≠ file.path) = true ∧ decide (entry.path = path) = true)) =
        none := by
      apply List.find?_eq_none.mpr
      intro entry _
      simp [here]
    rw [absent]
    simp [here]
  · have same : (fun entry : StoredFile => decide (decide (entry.path ≠ file.path) = true ∧ decide (entry.path = path) = true)) =
        fun entry => decide (entry.path = path) := by
      funext entry
      by_cases found : entry.path = path
      · simp [found, here]
      · simp [found]
    rw [same, if_neg here]
    simp [Ne.symm here]

/-- A dump that was read and not suppressed, when the worker reports it. -/
structure Export where
  info : MinidumpInfo
  timestamp : ByteString
  /-- The bytes of the dump, where its file is still there. -/
  dump : Option Buffer
  copied : Bool

def Export.destination (setup : Setup) (entry : Export) : ByteString :=
  setup.exportPath ++ slash :: exportName entry.info entry.timestamp

/-- What the copy has written. -/
def Export.stored (entry : Export) : Option Buffer := if entry.copied then entry.dump else none

/-- The two agree in all that the name of the copy tells. -/
def Alike (first second : Export) : Prop :=
  sanitized first.info = sanitized second.info ∧ first.timestamp = second.timestamp ∧ shortId first.info = shortId second.info

def exportOf (state : State) (action : Action) : Option Export :=
  match action, state.worker with
  | .worker (.report call), .reporting path =>
    match call.readMinidump with
    | .ok info =>
      if Suppressed state.world call info then none
      else some ⟨info, call.timestamp, fileAt state.world.pending path, call.copied⟩
    | .error _ => none
  | _, _ => none

/-- The dumps that a run exports, oldest first. -/
def exportsOf (setup : Setup) : State → List Action → List Export
  | _, [] => []
  | state, action :: rest =>
    (exportOf state action).toList ++
      match step setup state action with
      | some next => exportsOf setup next rest
      | none => []

/-- The directory after a copy. -/
def Wrote (setup : Setup) (before after : List StoredFile) : Option Export → Prop
  | some entry => ∀ path, fileAt after path =
      match entry.stored with
      | some data => if path = entry.destination setup then some data else fileAt before path
      | none => fileAt before path
  | none => after = before

section Steps
variable {setup : Setup} {before after : State}

theorem report_wrote (exporting : setup.exportPath ≠ []) {call : Circumstances} {path : ByteString}
    (phase : before.worker = .reporting path) :
    Wrote setup before.world.exported (reportMinidump setup call path before.world).exported
      (exportOf before (.worker (.report call))) := by
  simp only [exportOf, phase, reportMinidump]
  cases read : call.readMinidump with
  | error failure => rfl
  | ok info =>
    dsimp only
    split
    next => rfl
    next =>
      intro other
      simp only [Export.stored, fileAt, exportMinidump]
      cases copied : call.copied with
      | false => rfl
      | true =>
        cases found : before.world.pending.find? fun file => file.path = path with
        | none => rfl
        | some file => exact fileAt_place _ _ other

theorem pruneExportDir_unlimited (unlimited : setup.config.maxBytes = 0 ∧ setup.config.maxAgeSeconds = 0)
    (calls : DirectoryCalls) (files : List StoredFile) :
    (pruneExportDir setup.sort setup.config calls files).2 = files := by
  unfold pruneExportDir pruneDir
  rw [if_pos unlimited]

theorem step_wrote (unlimited : setup.config.maxBytes = 0 ∧ setup.config.maxAgeSeconds = 0) (exporting : setup.exportPath ≠ [])
    {action : Action} (stepped : step setup before action = some after) :
    Wrote setup before.world.exported after.world.exported (exportOf before action) := by
  cases action with
  | signal =>
    cases stepped
    rfl
  | main action =>
    show after.world.exported = before.world.exported
    rw [(PruneSafety.mainStep_frame stepped).1]
  | handler action =>
    show after.world.exported = before.world.exported
    cases action <;> simp only [step, handlerStep] at stepped <;> split at stepped <;> cases stepped <;> rfl
  | worker action =>
    cases action <;> cases phase : before.worker <;> simp only [step, workerStep, phase, reduceCtorEq] at stepped
    case report.reporting call path =>
      cases stepped
      exact report_wrote exporting phase
    case dequeue.waiting =>
      split at stepped <;> cases stepped
      rfl
    case «return».waiting =>
      split at stepped <;> cases stepped
      rfl
    case patch.patching call path =>
      cases stepped
      rfl
    case list.listing calls =>
      cases stepped
      show (listStep setup before calls).world.exported = before.world.exported
      rw [listStep, if_pos unlimited]
    case removeNext.removing reports total calls =>
      cases stepped
      show (removeStep setup before calls reports total).world.exported = before.world.exported
      cases reports with
      | nil => rfl
      | cons report rest =>
        rw [removeStep]
        split
        next => rfl
        next => split <;> rfl
    case pruneExports.pruningExports calls =>
      cases stepped
      show (if setup.config.exportPath = [] then before.world
        else { before.world with exported := (pruneExportDir setup.sort setup.config calls before.world.exported).2 }).exported =
          before.world.exported
      rw [pruneExportDir_unlimited unlimited]
      split <;> rfl

end Steps

section Runs
variable {setup : Setup}

/-- The copies that were written, oldest first. -/
def written (setup : Setup) (exports : List Export) : List (ByteString × Buffer) :=
  exports.filterMap fun entry => entry.stored.map fun data => (entry.destination setup, data)

theorem written_append (first second : List Export) :
    written setup (first ++ second) = written setup first ++ written setup second := List.filterMap_append

/-- After a run, a file of the export directory holds the latest copy with its name. -/
theorem run_wrote (unlimited : setup.config.maxBytes = 0 ∧ setup.config.maxAgeSeconds = 0) (exporting : setup.exportPath ≠ [])
    {state last : State} {actions : List Action} (ran : run setup state actions = some last) (path : ByteString) :
    fileAt last.world.exported path =
      ((written setup (exportsOf setup state actions)).reverse.lookup path).or (fileAt state.world.exported path) := by
  induction actions generalizing state with
  | nil =>
    cases ran
    rfl
  | cons action rest ih =>
    obtain ⟨next, stepped, remaining⟩ := Option.bind_eq_some_iff.mp ran
    have wrote := step_wrote unlimited exporting stepped
    rw [ih remaining, exportsOf, stepped, written_append, List.reverse_append, List.lookup_append, Option.or_assoc]
    congr 1
    cases entry : exportOf state action with
    | none =>
      rw [entry] at wrote
      rw [show next.world.exported = state.world.exported from wrote]
      rfl
    | some entry' =>
      rw [entry] at wrote
      rw [wrote path]
      simp only [written, Option.toList_some, List.filterMap_cons, List.filterMap_nil]
      cases entry'.stored with
      | none => rfl
      | some data =>
        simp only [Option.map_some, List.reverse_singleton, List.lookup_cons, List.lookup_nil]
        by_cases here : path = entry'.destination setup
        · simp [here]
        · simp [here, beq_false_of_ne here]

theorem destination_eq_iff {first second : Export} (clock : first.timestamp.all isDigit = true)
    (other : second.timestamp.all isDigit = true) :
    first.destination setup = second.destination setup ↔ Alike first second := by
  rw [Alike, ← exportName_inj clock other]
  unfold Export.destination
  constructor
  · intro same
    exact (List.cons.inj (List.append_cancel_left same)).2
  · intro same
    rw [same]

/-- A copy that succeeds stays as it is unless another exported dump is alike; only such dumps
share a destination. -/
theorem exports_kept (unlimited : setup.config.maxBytes = 0 ∧ setup.config.maxAgeSeconds = 0) (exporting : setup.exportPath ≠ [])
    {state last : State} {actions : List Action} (ran : run setup state actions = some last)
    (clock : ∀ entry ∈ exportsOf setup state actions, entry.timestamp.all isDigit = true) :
    (∀ front entry back data, exportsOf setup state actions = front ++ entry :: back → entry.stored = some data →
        (∀ other ∈ front ++ back, ¬ Alike other entry) →
        fileAt last.world.exported (entry.destination setup) = some data) ∧
      ∀ first ∈ exportsOf setup state actions, ∀ second ∈ exportsOf setup state actions,
        first.destination setup = second.destination setup ↔ Alike first second := by
  refine ⟨?_, fun first one second two => destination_eq_iff (clock first one) (clock second two)⟩
  intro front entry back data exports stored apart
  have later : (written setup back).reverse.lookup (entry.destination setup) = none := by
    apply List.lookup_eq_none_iff.mpr
    intro copy member
    obtain ⟨other, inside, copied⟩ := List.mem_filterMap.mp (List.mem_reverse.mp member)
    obtain ⟨bytes, _, rfl⟩ := Option.map_eq_some_iff.mp copied
    have present (one : Export) (found : one ∈ front ++ entry :: back) : one.timestamp.all isDigit = true :=
      clock one (by rw [exports]; exact found)
    have different : ¬ Alike other entry := apart other (List.mem_append_right front inside)
    rw [← destination_eq_iff (present other (by simp [inside])) (present entry (by simp))] at different
    simpa using Ne.symm different
  have here : written setup (entry :: back) = (entry.destination setup, data) :: written setup back := by
    simp [written, stored]
  rw [run_wrote unlimited exporting ran, exports, written_append, here, List.reverse_append, List.reverse_cons,
    List.lookup_append, List.lookup_append, later]
  simp

end Runs

def exportSetup : Setup := ⟨⟨ascii "/db", ascii "/export", 0, 0⟩, ascii "/export", fun _ => [], false, stableSort⟩

/-- A crash of one program in a fixed second of the wall clock. -/
def crashCall (faultAddr : UInt64) (copied : Bool) : Circumstances :=
  { WatcherQueues.calmCall with
    readMinidump := .ok ⟨ascii "app", ascii "SIGSEGV / SEGV_MAPERR", faultAddr, [⟨ascii "/usr/bin/app", 0x400000, 0x1000, ascii "0123456789ABCDEF"⟩]⟩
    timestamp := ascii "20260420120000"
    copied := copied }

def crash (name : String) (data : Buffer) (call : Circumstances) : List Action :=
  [.handler (.rename (ascii name) data 0), .main .check, .main .pollReadable, .main (.read 1), .main .enqueue, .main .enqueue,
    .worker .dequeue, .worker (.patch call), .worker (.report call), .worker (.list WatcherQueues.calmCalls),
    .worker (.pruneExports WatcherQueues.calmCalls)]

/-- One crash, whose copy succeeds. -/
theorem single_crash_exported :
    ∃ last, run exportSetup (initial []) (crash "a.dmp" [1] (crashCall 16 true)) = some last ∧
      fileAt last.world.exported (ascii "/export/app_20260420120000_01234567.crashdump") = some [1] := by
  refine ⟨_, rfl, ?_⟩
  have kept := (exports_kept ⟨rfl, rfl⟩ (by decide) (rfl : run exportSetup (initial []) (crash "a.dmp" [1] (crashCall 16 true)) = _)
    (by decide +kernel)).1 [] _ [] [1] rfl rfl (by simp)
  exact kept

/-- Every exported dump has a file of its own with its bytes. -/
def EachKept (setup : Setup) (state : State) (actions : List Action) (last : State) : Prop :=
  (∀ entry ∈ exportsOf setup state actions, ∀ data ∈ entry.dump,
      fileAt last.world.exported (entry.destination setup) = some data) ∧
    (exportsOf setup state actions).Pairwise fun first second => first.destination setup ≠ second.destination setup

instance (setup : Setup) (state : State) (actions : List Action) (last : State) : Decidable (EachKept setup state actions last) :=
  inferInstanceAs (Decidable (_ ∧ _))

def twoCrashes : List Action := crash "a.dmp" [1] (crashCall 16 true) ++ crash "b.dmp" [2] (crashCall 32 true)

/-- Two crashes of one program in one second share a file, and a failed copy leaves none. -/
theorem exports_lost :
    (∃ last, run exportSetup (initial []) twoCrashes = some last ∧ ¬ EachKept exportSetup (initial []) twoCrashes last) ∧
      ∃ last, run exportSetup (initial []) (crash "a.dmp" [1] (crashCall 16 false)) = some last ∧
        ¬ EachKept exportSetup (initial []) (crash "a.dmp" [1] (crashCall 16 false)) last :=
  ⟨⟨_, rfl, by decide +kernel⟩, ⟨_, rfl, by decide +kernel⟩⟩

end Crashomon.Proofs.ExportNames
