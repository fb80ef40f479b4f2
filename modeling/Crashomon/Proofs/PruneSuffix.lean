import Crashomon.Base.LongestSuffix
import Crashomon.Proofs.DirectoryListing
import Crashomon.Proofs.PruneSafety

/-! What pruning leaves when nothing fails: the newest files that the limits allow,
and every other file but the sidecars of the removed dumps. -/

namespace Crashomon.Proofs.PruneSuffix
open Bytes Daemon.DiskManager Daemon.MinidumpReader Daemon.Worker PruneSafety DirectoryListing
open WatcherQueues (calmCall calmCalls)

/-- The limits allow these reports side by side. -/
structure Fits (config : DiskManagerConfig) (now : Int) (reports : List Report) : Prop where
  size : 0 < config.maxBytes → sumSizes reports ≤ config.maxBytes
  age : 0 < config.maxAgeSeconds → ∀ report ∈ reports, now - report.mtime ≤ config.maxAgeSeconds

/-- No call on the directory or its files fails. -/
structure Works (calls : DirectoryCalls) (files : List StoredFile) : Prop where
  directory : calls.isDirectory = true
  iterates : calls.iterates = true
  regular : ∀ file ∈ files, calls.isRegularFile file.path ≠ none
  stat : ∀ file ∈ files, calls.stat file.path = true
  remove : ∀ path, calls.remove path = true

/-- A regular file with the extension. -/
def IsDump (calls : DirectoryCalls) (ext : ByteString) (file : StoredFile) : Prop :=
  calls.isRegularFile file.path = some true ∧ extension file.path = ext

instance (calls : DirectoryCalls) (ext : ByteString) (file : StoredFile) : Decidable (IsDump calls ext file) :=
  inferInstanceAs (Decidable (_ ∧ _))

def dumps (calls : DirectoryCalls) (ext : ByteString) (files : List StoredFile) : List StoredFile :=
  files.filter fun file => IsDump calls ext file

/-- Of the dumps exactly the longest suffix that the limits allow is left, in the order of
the modification times, and of the other files all but the sidecars of removed dumps. -/
structure Pruned (sort : MtimeSort) (config : DiskManagerConfig) (calls : DirectoryCalls) (ext : ByteString)
    (report : StoredFile → Report) (found left : List StoredFile) : Prop where
  subset : left.Sublist found
  kept : ∃ removed kept, sort.apply ((dumps calls ext found).map report) = removed ++ kept ∧
    LongestSuffix (Fits config calls.time) (removed ++ kept) kept ∧
    (∀ file ∈ found, IsDump calls ext file → (file ∈ left ↔ report file ∈ kept)) ∧
    ∀ file ∈ found, ¬ IsDump calls ext file → (file ∈ left ↔ ∀ gone ∈ removed, gone.metaPath ≠ some file.path)

/-- The file is neither one of the removed reports nor the sidecar of one. -/
def Outlives (removed : List Report) (file : StoredFile) : Prop :=
  ∀ report ∈ removed, file.path ≠ report.path ∧ report.metaPath ≠ some file.path

instance (removed : List Report) (file : StoredFile) : Decidable (Outlives removed file) :=
  inferInstanceAs (Decidable (∀ report ∈ removed, _ ∧ _))

section Loop
variable {config : DiskManagerConfig} {calls : DirectoryCalls} {report : Report} {files : List StoredFile}

theorem not_overSize_iff {total : Nat} : ¬ OverSize config total ↔ (0 < config.maxBytes → total ≤ config.maxBytes) := by
  unfold OverSize
  omega

theorem not_overAge_iff {now mtime : Int} :
    ¬ OverAge config now mtime ↔ (0 < config.maxAgeSeconds → now - mtime ≤ config.maxAgeSeconds) := by
  unfold OverAge
  omega

theorem removeReport_filter (remove : ∀ path, calls.remove path = true) :
    removeReport calls report files = files.filter fun file => Outlives [report] file := by
  cases sidecar : report.metaPath with
  | none => simp only [removeReport, sidecar, without, Outlives, List.mem_singleton, forall_eq, reduceCtorEq, ne_eq,
      not_false_eq_true, and_true]
  | some path =>
    simp only [removeReport, sidecar, remove, if_true, without, List.filter_filter, Outlives, List.mem_singleton, forall_eq]
    apply List.filter_congr
    intro file _
    simp only [ne_eq, Option.some.injEq, ← Bool.decide_and, and_comm, eq_comm]

theorem outlives_cons {removed : List Report} {file : StoredFile} :
    Outlives (report :: removed) file ↔ Outlives [report] file ∧ Outlives removed file := by
  simp only [Outlives, List.forall_mem_cons, List.mem_singleton, forall_eq]

/-- Where all reports fit, the loop goes by each of them. -/
theorem pruneReports_fits {reports : List Report} {total : Nat} (within : ¬ OverSize config total)
    (young : ∀ report ∈ reports, ¬ OverAge config calls.time report.mtime) :
    pruneReports config calls reports total files = (.ok (), files) := by
  induction reports with
  | nil => rfl
  | cons report rest ih =>
    obtain ⟨first, later⟩ := List.forall_mem_cons.mp young
    rw [pruneReports, if_pos ⟨within, first⟩]
    exact ih later

theorem sumSizes_rest {rest : List Report} (small : sumSizes (report :: rest) < 2 ^ 64) :
    u64 ((sumSizes (report :: rest) : Int) - report.size) = sumSizes rest ∧ sumSizes rest < 2 ^ 64 := by
  simp only [sumSizes, List.map_cons, List.sum_cons, u64] at small ⊢
  omega

theorem onDisk_rest {rest : List Report} (fresh : report.path ∉ rest.map Report.path)
    (sidecars : ∀ other ∈ rest, report.metaPath ≠ some other.path) (present : ∀ other ∈ rest, OnDisk files other.path) :
    ∀ other ∈ rest, OnDisk (removeReport calls report files) other.path := by
  intro other member
  apply onDisk_remove
  · exact fun same => fresh (same ▸ List.mem_map_of_mem member)
  · intro sidecar found same
    exact sidecars other member (same ▸ found)
  · exact present other member

/-- The loop removes a report exactly while it and the newer ones do not fit. -/
theorem pruneReports_longest (remove : ∀ path, calls.remove path = true) {reports : List Report} :
    ∀ {files : List StoredFile}, reports.Pairwise (fun older newer => older.mtime ≤ newer.mtime) →
      sumSizes reports < 2 ^ 64 → (reports.map Report.path).Nodup → (∀ report ∈ reports, OnDisk files report.path) →
      (∀ report ∈ reports, ∀ other ∈ reports, report.metaPath ≠ some other.path) →
      ∃ removed kept, reports = removed ++ kept ∧ LongestSuffix (Fits config calls.time) reports kept ∧
        pruneReports config calls reports (sumSizes reports) files =
          (.ok (), files.filter fun file => Outlives removed file) := by
  induction reports with
  | nil =>
    intro files _ _ _ _ _
    refine ⟨[], [], rfl, .whole_of_good ⟨fun _ => Nat.zero_le _, fun _ _ member => absurd member List.not_mem_nil⟩, ?_⟩
    simp [pruneReports, Outlives]
  | cons report rest ih =>
    intro files sorted small distinct present sidecars
    obtain ⟨oldest, sortedRest⟩ := List.pairwise_cons.mp sorted
    obtain ⟨fresh, distinctRest⟩ := List.nodup_cons.mp distinct
    by_cases fits : Fits config calls.time (report :: rest)
    · refine ⟨[], report :: rest, rfl, .whole_of_good fits, ?_⟩
      have young : ∀ other ∈ report :: rest, ¬ OverAge config calls.time other.mtime :=
        fun other member => not_overAge_iff.mpr fun limited => fits.age limited other member
      rw [pruneReports_fits (not_overSize_iff.mpr fits.size) young]
      simp [Outlives]
    · have exceeds : ¬ (¬ OverSize config (sumSizes (report :: rest)) ∧ ¬ OverAge config calls.time report.mtime) := by
        intro ⟨within, young⟩
        apply fits
        refine ⟨not_overSize_iff.mp within, fun limited other member => ?_⟩
        have bound := not_overAge_iff.mp young limited
        rcases List.mem_cons.mp member with same | later
        · rwa [same]
        · have order := oldest other later
          omega
      have there : removable calls report files := by
        obtain ⟨file, member, same⟩ := present report List.mem_cons_self
        simp only [removable, remove, true_and, decide_eq_true_eq]
        exact List.any_eq_true.mpr ⟨file, member, decide_eq_true same⟩
      obtain ⟨less, lighter⟩ := sumSizes_rest small
      have kept : ∀ other ∈ rest, OnDisk (removeReport calls report files) other.path :=
        onDisk_rest fresh (fun other member => sidecars report List.mem_cons_self other (List.mem_cons_of_mem _ member))
          fun other member => present other (List.mem_cons_of_mem _ member)
      obtain ⟨removed, suffix, parts, longest, ended⟩ := ih sortedRest lighter distinctRest kept
        fun first member other later => sidecars first (List.mem_cons_of_mem _ member) other (List.mem_cons_of_mem _ later)
      refine ⟨report :: removed, suffix, by rw [parts, List.cons_append], longest.of_tail fits, ?_⟩
      rw [pruneReports, if_neg exceeds, if_neg (not_not.mpr there), less, ended, removeReport_filter remove,
        List.filter_filter]
      apply congrArg (Prod.mk _)
      apply List.filter_congr
      intro file _
      rw [← Bool.decide_and]
      apply decide_eq_decide.mpr
      exact and_comm.trans outlives_cons.symm

end Loop

section Directory
variable {config : DiskManagerConfig} {calls : DirectoryCalls} {files : List StoredFile} {ext : ByteString}

theorem listEntries_works (regular : ∀ file ∈ files, calls.isRegularFile file.path ≠ none)
    (stat : ∀ file ∈ files, calls.stat file.path = true) :
    listEntries calls ext false files = (dumps calls ext files, false) := by
  have same : (files.filter fun file => Listable calls ext file) = dumps calls ext files := by
    apply List.filter_congr
    intro file member
    apply decide_eq_decide.mpr
    simp only [Listable, IsDump, stat file member, and_true]
  rw [listEntries_known regular, same]

theorem listFiles_works {sort : MtimeSort} {dir : ByteString} {report : StoredFile → Report} (works : Works calls files) :
    listFiles sort calls dir ext report files = .ok (sort.apply ((dumps calls ext files).map report)) := by
  simp [listFiles, works.directory, works.iterates, listEntries_works works.regular works.stat]

/-- How a file of the directory becomes a report. -/
structure Reports (ext : ByteString) (report : StoredFile → Report) : Prop where
  path : ∀ file, (report file).path = file.path
  /-- A sidecar is no dump. -/
  sidecar : ∀ file other, (report file).metaPath = some other → extension other ≠ ext

theorem reports_crashReport : Reports (ascii ".dmp") crashReport where
  path _ := rfl
  sidecar file other same named := by
    have ends := extension_last named
    cases same
    rw [sidecar_last] at ends
    cases ends

theorem reports_exportFile (ext : ByteString) : Reports ext exportFile where
  path _ := rfl
  sidecar _ _ impossible := nomatch impossible

theorem pruneDir_pruned {sort : MtimeSort} {dir : ByteString} {report : StoredFile → Report} (reports : Reports ext report)
    (distinct : (files.map StoredFile.path).Nodup) (works : Works calls files)
    (small : sumSizes ((dumps calls ext files).map report) < 2 ^ 64) :
    (pruneDir config calls (listFiles sort calls dir ext report files) files).1 = .ok () ∧
      Pruned sort config calls ext report files
        (pruneDir config calls (listFiles sort calls dir ext report files) files).2 := by
  let listed := sort.apply ((dumps calls ext files).map report)
  have sorted := sort.perm ((dumps calls ext files).map report)
  have member_iff {file : StoredFile} (member : file ∈ files) (dump : IsDump calls ext file) : report file ∈ listed := by
    apply sorted.mem_iff.mpr
    exact List.mem_map_of_mem (List.mem_filter.mpr ⟨member, decide_eq_true dump⟩)
  have origin {entry : Report} (member : entry ∈ listed) : ∃ file ∈ files, IsDump calls ext file ∧ report file = entry := by
    obtain ⟨file, found, same⟩ := List.mem_map.mp (sorted.mem_iff.mp member)
    obtain ⟨inside, dump⟩ := List.mem_filter.mp found
    exact ⟨file, inside, of_decide_eq_true dump, same⟩
  have chosen : ((dumps calls ext files).map StoredFile.path).Nodup := distinct.sublist (List.filter_sublist.map _)
  have apart : (listed.map Report.path).Nodup := by
    refine (sorted.map Report.path).nodup_iff.mpr ?_
    rw [List.map_map]
    have paths : Report.path ∘ report = StoredFile.path := funext reports.path
    rwa [paths]
  have total : sumSizes listed = sumSizes ((dumps calls ext files).map report) := (sorted.map Report.size).sum_nat
  by_cases idle : config.maxBytes = 0 ∧ config.maxAgeSeconds = 0
  · unfold pruneDir
    rw [if_pos idle]
    refine ⟨rfl, List.Sublist.refl _, [], listed, rfl, ?_, fun file member dump => ?_, fun file member _ => ?_⟩
    · exact .whole_of_good ⟨fun limited => by omega, fun limited => by omega⟩
    · exact iff_of_true member (member_iff member dump)
    · exact iff_of_true member fun gone impossible => absurd impossible List.not_mem_nil
  · have sidecars : ∀ entry ∈ listed, ∀ other ∈ listed, entry.metaPath ≠ some other.path := by
      intro entry member other later same
      obtain ⟨file, _, _, rfl⟩ := origin member
      obtain ⟨next, _, dump, rfl⟩ := origin later
      apply reports.sidecar file _ same
      rw [reports.path]
      exact dump.2
    have present : ∀ entry ∈ listed, OnDisk files entry.path := by
      intro entry member
      obtain ⟨file, inside, _, rfl⟩ := origin member
      exact ⟨file, inside, (reports.path file).symm⟩
    obtain ⟨removed, kept, parts, longest, ended⟩ := @pruneReports_longest config calls works.remove listed files
      (sort.sorted _) (total ▸ small) apart present sidecars
    unfold pruneDir
    rw [if_neg idle, listFiles_works works]
    dsimp only
    rw [totalBytes_eq (total ▸ small), ended]
    refine ⟨rfl, List.filter_sublist, removed, kept, parts, parts ▸ longest, fun file member dump => ?_,
      fun file member other => ?_⟩
    · rw [List.mem_filter, decide_eq_true_eq]
      have whole := member_iff member dump
      rw [parts, List.mem_append] at whole
      rw [parts, List.map_append, List.nodup_append] at apart
      constructor
      · intro ⟨_, outlives⟩
        rcases whole with gone | stays
        · exact absurd (reports.path file).symm (outlives _ gone).1
        · exact stays
      · intro stays
        refine ⟨member, fun gone missing => ⟨fun same => ?_, fun same => ?_⟩⟩
        · apply apart.2.2 gone.path (List.mem_map_of_mem missing) (report file).path (List.mem_map_of_mem stays)
          rw [reports.path, same]
        · apply sidecars gone (parts ▸ List.mem_append_left _ missing) (report file) (parts ▸ List.mem_append_right _ stays)
          rw [same, reports.path]
    · rw [List.mem_filter, decide_eq_true_eq]
      constructor
      · intro ⟨_, outlives⟩ gone missing
        exact (outlives gone missing).2
      · intro spared
        refine ⟨member, fun gone missing => ⟨fun same => ?_, spared gone missing⟩⟩
        obtain ⟨twin, inside, dump, rfl⟩ := origin (parts ▸ List.mem_append_left kept missing)
        rw [reports.path] at same
        rw [List.inj_on_of_nodup_map distinct member inside same] at other
        exact other dump

end Directory

/-- The directories as the pruner finds them at the end of processing a dump. -/
def beforePruning (setup : Setup) (call : Circumstances) (path : ByteString) (world : World) : World :=
  reportMinidump setup call path { world with pending := patchMinidump setup call path world.pending }

section Process
variable {setup : Setup} {call : Circumstances} {path : ByteString} {world : World}

theorem beforePruning_pending_distinct (distinct : (world.pending.map StoredFile.path).Nodup) :
    ((beforePruning setup call path world).pending.map StoredFile.path).Nodup := by
  rw [beforePruning, pending_report, map_path_patch]
  exact distinct

theorem exportMinidump_distinct {exportPath : ByteString} {info : MinidumpInfo}
    (distinct : (world.exported.map StoredFile.path).Nodup) :
    ((exportMinidump call exportPath path info world).exported.map StoredFile.path).Nodup := by
  unfold exportMinidump
  split
  next => exact nodup_place distinct
  next => exact distinct

theorem beforePruning_exported_distinct (distinct : (world.exported.map StoredFile.path).Nodup) :
    ((beforePruning setup call path world).exported.map StoredFile.path).Nodup := by
  unfold beforePruning reportMinidump
  split
  next => exact distinct
  next =>
    split
    next => exact distinct
    next =>
      dsimp only
      split
      next => exact distinct
      next =>
        apply exportMinidump_distinct
        exact distinct

theorem pruneWorld_pending : (pruneWorld setup call world).pending =
    (prunePendingDir setup.sort setup.config call.pendingCalls world.pending).2 := by
  unfold pruneWorld pruneMinidumps
  dsimp only
  split
  next => rfl
  next => split <;> rfl

theorem pruneWorld_exported
    (status : (prunePendingDir setup.sort setup.config call.pendingCalls world.pending).1 = .ok ()) :
    (pruneWorld setup call world).exported = if setup.config.exportPath = [] then world.exported
      else (pruneExportDir setup.sort setup.config call.exportCalls world.exported).2 := by
  unfold pruneWorld pruneMinidumps
  dsimp only
  rw [status]
  dsimp only
  split <;> rfl

/-- After a dump is processed, whatever came of reading and reporting it, both directories
hold the longest suffix of their dumps that the limits allow. -/
theorem process_leaves_longest_suffix (setup : Setup) (call : Circumstances) (path : ByteString) (world : World)
    (distinct : (world.pending.map StoredFile.path).Nodup) (exportsDistinct : (world.exported.map StoredFile.path).Nodup)
    (works : Works call.pendingCalls (beforePruning setup call path world).pending)
    (exportsWork : setup.config.exportPath ≠ [] → Works call.exportCalls (beforePruning setup call path world).exported)
    (small : sumSizes ((dumps call.pendingCalls (ascii ".dmp") (beforePruning setup call path world).pending).map crashReport) <
      2 ^ 64)
    (exportsSmall : setup.config.exportPath ≠ [] →
      sumSizes ((dumps call.exportCalls (ascii ".crashdump") (beforePruning setup call path world).exported).map exportFile) <
        2 ^ 64) :
    Pruned setup.sort setup.config call.pendingCalls (ascii ".dmp") crashReport
        (beforePruning setup call path world).pending (processNewMinidump setup call path world).pending ∧
      if setup.config.exportPath = [] then
        (processNewMinidump setup call path world).exported = (beforePruning setup call path world).exported
      else
        Pruned setup.sort setup.config call.exportCalls (ascii ".crashdump") exportFile
          (beforePruning setup call path world).exported (processNewMinidump setup call path world).exported := by
  obtain ⟨status, pending⟩ := @pruneDir_pruned setup.config _ _ _ setup.sort (pendingDir setup.config) _ reports_crashReport
    (@beforePruning_pending_distinct setup call path world distinct) works small
  change (prunePendingDir setup.sort setup.config call.pendingCalls (beforePruning setup call path world).pending).1 = _
    at status
  have parts : processNewMinidump setup call path world = pruneWorld setup call (beforePruning setup call path world) := rfl
  rw [parts]
  refine ⟨?_, ?_⟩
  · rw [pruneWorld_pending]
    exact pending
  · rw [pruneWorld_exported status]
    split
    next => rfl
    next exports =>
      exact (pruneDir_pruned (reports_exportFile _) (beforePruning_exported_distinct exportsDistinct) (exportsWork exports)
        (exportsSmall exports)).2

end Process

def tightSetup : Setup := ⟨⟨ascii "/db", ascii "/exports", 20, 0⟩, ascii "/exports", fun _ => [], false, stableSort⟩

/-- Two old dumps, a new one and the sidecar of the oldest. -/
def threeDumps : World where
  pending := [⟨ascii "/db/pending/c.dmp", List.replicate 10 0, 3⟩, ⟨ascii "/db/pending/a.dmp", List.replicate 10 0, 1⟩,
    ⟨ascii "/db/pending/a.meta", [], 1⟩, ⟨ascii "/db/pending/b.dmp", List.replicate 10 0, 2⟩]
  exported := [⟨ascii "/exports/old.crashdump", List.replicate 30 0, 1⟩]
  rateLimitMap := []
  log := []

theorem threeDumps_pruned :
    (processNewMinidump tightSetup calmCall (ascii "/db/pending/c.dmp") threeDumps).pending.map StoredFile.path =
        [ascii "/db/pending/c.dmp", ascii "/db/pending/b.dmp"] ∧
      Pruned stableSort tightSetup.config calmCalls (ascii ".dmp") crashReport threeDumps.pending
        (processNewMinidump tightSetup calmCall (ascii "/db/pending/c.dmp") threeDumps).pending := by
  refine ⟨by decide +kernel, ?_⟩
  have works (files : List StoredFile) : Works calmCalls files := by constructor <;> intros <;> first | rfl | exact nofun
  exact (process_leaves_longest_suffix tightSetup calmCall (ascii "/db/pending/c.dmp") threeDumps (by decide +kernel)
    (by decide +kernel) (works _) (fun _ => works _) (by decide +kernel) (fun _ => by decide +kernel)).1

end Crashomon.Proofs.PruneSuffix
