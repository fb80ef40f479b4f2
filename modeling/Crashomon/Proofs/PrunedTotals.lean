import Mathlib.Algebra.Order.BigOperators.Group.List
import Mathlib.Data.List.TakeWhile
import Crashomon.Proofs.PruneFailures

/-! The size that GetTotalMinidumpSize reports after any number of dumps. What failed with one of them is made up for
with the next one. -/

namespace Crashomon.Proofs.PrunedTotals
open Bytes Daemon Daemon.DiskManager Daemon.Worker PruneSafety PruneSuffix PruneFailures DirectoryListing
open WatcherQueues (calmCall calmCalls)

section Directory
variable {config : DiskManagerConfig} {calls : DirectoryCalls} {files : List StoredFile} {sort : MtimeSort}

theorem pruneReports_distinct {reports : List Report} {total : Nat} (distinct : (files.map StoredFile.path).Nodup) :
    ((pruneReports config calls reports total files).2.map StoredFile.path).Nodup := by
  induction reports generalizing total files with
  | nil => exact distinct
  | cons report rest ih =>
    rw [pruneReports]
    split
    next => exact ih distinct
    next =>
      split
      next => exact distinct
      next => exact ih (nodup_remove distinct)

theorem pruneDir_distinct {listed : StatusOr (List Report)} (distinct : (files.map StoredFile.path).Nodup) :
    ((pruneDir config calls listed files).2.map StoredFile.path).Nodup := by
  unfold pruneDir
  split
  next => exact distinct
  next =>
    split
    next => exact distinct
    next => exact pruneReports_distinct distinct

/-- The size is that of the dumps, where the directory can be read. -/
theorem getTotalMinidumpSize_works (works : Works calls files) (small : bytes (dumps calls (ascii ".dmp") files) < 2 ^ 64) :
    getTotalMinidumpSize sort config calls files = .ok (bytes (dumps calls (ascii ".dmp") files)) := by
  have total : sumSizes (sort.apply ((dumps calls (ascii ".dmp") files).map crashReport)) = bytes (dumps calls (ascii ".dmp") files) := by
    rw [describes_crashReport.bytes_eq]
    exact ((sort.perm _).map Report.size).sum_nat
  unfold getTotalMinidumpSize listCrashReports
  rw [listFiles_works works]
  dsimp only
  rw [totalBytes_eq (total ▸ small), total]

theorem Works.sublist {left : List StoredFile} (works : Works calls files) (fewer : left.Sublist files) : Works calls left :=
  ⟨works.directory, works.iterates, fun file member => works.regular file (fewer.subset member),
    fun file member => works.stat file (fewer.subset member), works.remove⟩

theorem bytes_dumps_le {left : List StoredFile} {ext : ByteString} (fewer : left.Sublist files) :
    bytes (dumps calls ext left) ≤ bytes (dumps calls ext files) :=
  List.Sublist.sum_le_sum ((fewer.filter _).map _) fun _ _ => Nat.zero_le _

/-- Where every dump can be removed, none of them is in the way of another one. -/
theorem not_stuck {listed newer : List Report} {first : Report} (remove : ∀ path, calls.remove path = true) :
    ¬ Stuck config calls listed first newer := by
  intro stuck
  have front : fromUndeletable calls listed = [] :=
    List.dropWhile_eq_nil_iff.mpr fun report _ => decide_eq_true (remove report.path)
  exact nomatch front.symm.trans stuck.front

/-- What a pass in which nothing fails has left, and what is said about it. -/
theorem prunePendingDir_total (works : Works calls files) (distinct : (files.map StoredFile.path).Nodup)
    (small : bytes (dumps calls (ascii ".dmp") files) < 2 ^ 64) :
    let left := (prunePendingDir sort config calls files).2
    getTotalMinidumpSize sort config calls left = .ok (bytes (dumps calls (ascii ".dmp") left)) ∧
      (0 < config.maxBytes → bytes (dumps calls (ascii ".dmp") left) ≤ config.maxBytes) ∧
      ∀ file ∈ dumps calls (ascii ".dmp") left, ¬ OverAge config calls.time file.mtime := by
  have sizes := describes_crashReport.bytes_eq (dumps calls (ascii ".dmp") files)
  obtain ⟨_, kept⟩ := @pruneDir_pruned config calls files _ sort (pendingDir config) _ reports_crashReport distinct works (sizes ▸ small)
  have pass := @pruneDir_pass config calls _ _ files sort (pendingDir config) describes_crashReport distinct
    (.listed works.directory works.iterates works.regular works.stat) small
  have fewer := kept.subset
  change Pass config calls _ files _ (prunePendingDir sort config calls files) at pass
  change List.Sublist (prunePendingDir sort config calls files).2 files at fewer
  generalize prunePendingDir sort config calls files = outcome at pass fewer ⊢
  dsimp only
  refine ⟨getTotalMinidumpSize_works (Works.sublist works fewer) (lt_of_le_of_lt (bytes_dumps_le fewer) small), ?_⟩
  cases pass with
  | stopped _ stuck _ => exact absurd stuck (not_stuck works.remove)
  | finished _ _ pruned =>
    have deletable : (dumps calls (ascii ".dmp") files).filter (fun file => calls.remove file.path = false) = [] := by
      rw [List.filter_eq_nil_iff]
      intro file _
      simp [works.remove]
    refine ⟨fun limited => pruned.size limited (by rw [deletable]; exact Nat.zero_le _), fun file member old => ?_⟩
    obtain ⟨inside, dump⟩ := List.mem_filter.mp member
    exact pruned.age file (fewer.subset inside) (of_decide_eq_true dump) (works.remove _) old inside

end Directory

section Runs
variable {setup : Setup} {world : World}

theorem processNewMinidump_pending (call : Circumstances) (path : ByteString) :
    (processNewMinidump setup call path world).pending =
      (prunePendingDir setup.sort setup.config call.pendingCalls (beforePruning setup call path world).pending).2 := pruneWorld_pending

/-- No two files of the pending directory get one path. -/
theorem processAll_distinct (calls : List (ByteString × Circumstances)) (distinct : (world.pending.map StoredFile.path).Nodup) :
    ((processAll setup calls world).pending.map StoredFile.path).Nodup := by
  induction calls generalizing world with
  | nil => exact distinct
  | cons dump calls ih =>
    apply ih
    rw [processNewMinidump_pending]
    exact pruneDir_distinct (beforePruning_pending_distinct distinct)

theorem processAll_snoc (calls : List (ByteString × Circumstances)) (path : ByteString) (call : Circumstances) :
    processAll setup (calls ++ [(path, call)]) world = processNewMinidump setup call path (processAll setup calls world) := by
  rw [processAll, List.foldl_append]
  rfl

end Runs

/-- Whatever became of the dumps before, once no call on the pending directory fails while a dump is processed, the reported
size is that of the dumps that are left. It is within the limit, and none of them is too old. -/
theorem reported_size_limited (setup : Setup) (world : World) (distinct : (world.pending.map StoredFile.path).Nodup)
    (calls : List (ByteString × Circumstances)) (path : ByteString) (call : Circumstances)
    (works : Works call.pendingCalls (beforePruning setup call path (processAll setup calls world)).pending)
    (small : bytes (dumps call.pendingCalls (ascii ".dmp") (beforePruning setup call path (processAll setup calls world)).pending) <
      2 ^ 64) :
    ∃ total, getTotalMinidumpSize setup.sort setup.config call.pendingCalls (processAll setup (calls ++ [(path, call)]) world).pending =
        .ok total ∧
      total = bytes (dumps call.pendingCalls (ascii ".dmp") (processAll setup (calls ++ [(path, call)]) world).pending) ∧
      (0 < setup.config.maxBytes → total ≤ setup.config.maxBytes) ∧
      ∀ file ∈ dumps call.pendingCalls (ascii ".dmp") (processAll setup (calls ++ [(path, call)]) world).pending,
        ¬ OverAge setup.config call.pendingCalls.time file.mtime := by
  have run := @processAll_distinct setup world calls distinct
  have apart := @beforePruning_pending_distinct setup call path _ run
  rw [processAll_snoc, processNewMinidump_pending]
  obtain ⟨reported, limited, young⟩ := prunePendingDir_total works apart small
  exact ⟨_, reported, rfl, limited, young⟩

/-- The pending directory cannot be read, so nothing is pruned. -/
def unreadableCall : Circumstances := { calmCall with pendingCalls := { calmCalls with iterates := false } }

theorem threeDumps_limited : ∃ total,
    getTotalMinidumpSize tightSetup.sort tightSetup.config calmCalls (processAll tightSetup
      ([(ascii "/db/pending/b.dmp", unreadableCall)] ++ [(ascii "/db/pending/c.dmp", calmCall)]) threeDumps).pending = .ok total ∧
      total ≤ 20 := by
  have works (files : List StoredFile) : Works calmCalls files := by constructor <;> intros <;> first | rfl | exact nofun
  obtain ⟨total, reported, _, limited, _⟩ := reported_size_limited tightSetup threeDumps (by decide +kernel)
    [(ascii "/db/pending/b.dmp", unreadableCall)] (ascii "/db/pending/c.dmp") calmCall (works _) (by decide +kernel)
  exact ⟨total, reported, limited (by decide)⟩

end Crashomon.Proofs.PrunedTotals
