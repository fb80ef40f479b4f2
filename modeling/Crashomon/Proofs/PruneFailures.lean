import Crashomon.Proofs.PruneSuffix

/-! What pruning leaves when some files cannot be removed. The loop returns at the first
of them that is in its way, and with it the call. -/

namespace Crashomon.Proofs.PruneFailures
open Bytes Daemon Daemon.DiskManager PruneSafety PruneSuffix
open WatcherQueues (calmCall calmCalls)

/-- The directory is listed as it is; only removals fail. A missing directory has no files. -/
inductive Lists (calls : DirectoryCalls) (files : List StoredFile) : Prop where
  | missing (absent : calls.isDirectory = false) (empty : files = [])
  | listed (directory : calls.isDirectory = true) (iterates : calls.iterates = true)
      (regular : ∀ file ∈ files, calls.isRegularFile file.path ≠ none) (stat : ∀ file ∈ files, calls.stat file.path = true)

def Deletable (calls : DirectoryCalls) (report : Report) : Prop := calls.remove report.path = true

instance (calls : DirectoryCalls) (report : Report) : Decidable (Deletable calls report) :=
  inferInstanceAs (Decidable (_ = _))

/-- What must stay. -/
def undeletable (calls : DirectoryCalls) (reports : List Report) : List Report :=
  reports.filter fun report => ¬ Deletable calls report

/-- Of the listed reports no deletable one is too old, and the size limit is met if the
deletable ones can be given up for it. -/
structure Served (config : DiskManagerConfig) (calls : DirectoryCalls) (listed left : List Report) : Prop where
  age : ∀ report ∈ left, Deletable calls report → ¬ OverAge config calls.time report.mtime
  size : 0 < config.maxBytes → sumSizes (undeletable calls listed) ≤ config.maxBytes → sumSizes left ≤ config.maxBytes

/-- The reports of a directory, the oldest first. -/
def listing (sort : MtimeSort) (calls : DirectoryCalls) (ext : ByteString) (report : StoredFile → Report)
    (files : List StoredFile) : List Report :=
  sort.apply ((dumps calls ext files).map report)

/-- The reports from the first undeletable one on. -/
def fromUndeletable (calls : DirectoryCalls) (listed : List Report) : List Report :=
  listed.dropWhile fun report => Deletable calls report

/-- The first undeletable report exceeds a limit together with the newer ones. -/
structure Stuck (config : DiskManagerConfig) (calls : DirectoryCalls) (listed : List Report) (first : Report)
    (newer : List Report) : Prop where
  front : fromUndeletable calls listed = first :: newer
  exceeds : OverSize config (sumSizes (first :: newer)) ∨ OverAge config calls.time first.mtime

/-- The files of a directory after the pass, without the removed reports. -/
def removeAll (calls : DirectoryCalls) (reports : List Report) (files : List StoredFile) : List StoredFile :=
  reports.foldl (fun files report => removeReport calls report files) files

section Loop
variable {config : DiskManagerConfig} {calls : DirectoryCalls}

/-- How the loop ends. -/
inductive Ends (config : DiskManagerConfig) (calls : DirectoryCalls) (reports : List Report) (files : List StoredFile) :
    Status × List StoredFile → Prop where
  | done (older : List Report) {kept : List Report} (split : reports = older ++ kept) (removed : ∀ report ∈ older, Deletable calls report)
      (fits : Fits config calls.time kept) : Ends config calls reports files (.ok (), removeAll calls older files)
  | stopped (older : List Report) {newer : List Report} {first : Report} {failure : StatusError} (split : reports = older ++ first :: newer)
      (removed : ∀ report ∈ older, Deletable calls report) (refused : ¬ Deletable calls first)
      (exceeds : OverSize config (sumSizes (first :: newer)) ∨ OverAge config calls.time first.mtime)
      (internal : failure.code = .internal) : Ends config calls reports files (.error failure, removeAll calls older files)

theorem Ends.cons {report : Report} {rest : List Report} {files : List StoredFile} {outcome : Status × List StoredFile}
    (deletable : Deletable calls report) (ends : Ends config calls rest (removeReport calls report files) outcome) :
    Ends config calls (report :: rest) files outcome := by
  cases ends with
  | done older split removed fits =>
    exact .done (report :: older) (by rw [split, List.cons_append]) (List.forall_mem_cons.mpr ⟨deletable, removed⟩) fits
  | stopped older split removed refused exceeds internal =>
    exact .stopped (report :: older) (by rw [split, List.cons_append]) (List.forall_mem_cons.mpr ⟨deletable, removed⟩)
      refused exceeds internal

theorem pruneReports_ends {reports : List Report} : ∀ {files : List StoredFile},
    reports.Pairwise (fun older newer => older.mtime ≤ newer.mtime) → sumSizes reports < 2 ^ 64 →
      (reports.map Report.path).Nodup → (∀ report ∈ reports, OnDisk files report.path) →
      (∀ report ∈ reports, ∀ other ∈ reports, report.metaPath ≠ some other.path) →
      Ends config calls reports files (pruneReports config calls reports (sumSizes reports) files) := by
  induction reports with
  | nil =>
    intro files _ _ _ _ _
    exact .done [] rfl (List.forall_mem_nil _) ⟨fun _ => Nat.zero_le _, fun _ _ member => absurd member List.not_mem_nil⟩
  | cons report rest ih =>
    intro files sorted small distinct present sidecars
    obtain ⟨oldest, sortedRest⟩ := List.pairwise_cons.mp sorted
    obtain ⟨fresh, distinctRest⟩ := List.nodup_cons.mp distinct
    by_cases fits : ¬ OverSize config (sumSizes (report :: rest)) ∧ ¬ OverAge config calls.time report.mtime
    · -- The newer reports are younger, so that nothing else is removed.
      have young : ∀ other ∈ report :: rest, ¬ OverAge config calls.time other.mtime := by
        refine List.forall_mem_cons.mpr ⟨fits.2, fun other later => ?_⟩
        have order := oldest other later
        have bound := not_overAge_iff.mp fits.2
        refine not_overAge_iff.mpr fun limited => ?_
        have near := bound limited
        omega
      rw [pruneReports_fits fits.1 young]
      exact .done [] rfl (List.forall_mem_nil _)
        ⟨not_overSize_iff.mp fits.1, fun limited other member => not_overAge_iff.mp (young other member) limited⟩
    · have there : files.any (fun file => file.path = report.path) = true := by
        obtain ⟨file, member, same⟩ := present report List.mem_cons_self
        exact List.any_eq_true.mpr ⟨file, member, decide_eq_true same⟩
      by_cases deletable : Deletable calls report
      · have removes : removable calls report files := by
          simp only [removable, there, and_true, decide_eq_true_eq]
          exact deletable
        obtain ⟨less, lighter⟩ := sumSizes_rest small
        have kept : ∀ other ∈ rest, OnDisk (removeReport calls report files) other.path :=
          onDisk_rest fresh (fun other member => sidecars report List.mem_cons_self other (List.mem_cons_of_mem _ member))
            fun other member => present other (List.mem_cons_of_mem _ member)
        rw [pruneReports, if_neg fits, if_neg (not_not.mpr removes), less]
        exact Ends.cons deletable (ih sortedRest lighter distinctRest kept
          fun first member other later => sidecars first (List.mem_cons_of_mem _ member) other (List.mem_cons_of_mem _ later))
      · have refuses : ¬ removable calls report files := by
          simp only [removable, there, and_true, decide_eq_true_eq]
          exact deletable
        rw [pruneReports, if_neg fits, if_pos refuses]
        exact .stopped [] rfl (List.forall_mem_nil _) deletable (by
          by_cases large : OverSize config (sumSizes (report :: rest))
          · exact Or.inl large
          · exact Or.inr (not_not.mp fun young => fits ⟨large, young⟩)) rfl

end Loop

section Directory
variable {config : DiskManagerConfig} {calls : DirectoryCalls} {ext : ByteString} {report : StoredFile → Report}
  {files : List StoredFile}

def bytes (files : List StoredFile) : Nat := (files.map fun file => file.data.length).sum

/-- Every deletable file that is too old is gone, and the size limit is met if it can be. -/
structure PrunedBut (config : DiskManagerConfig) (calls : DirectoryCalls) (ext : ByteString) (files left : List StoredFile) :
    Prop where
  age : ∀ file ∈ files, IsDump calls ext file → calls.remove file.path = true → OverAge config calls.time file.mtime →
    file ∉ left
  size : 0 < config.maxBytes →
    bytes ((dumps calls ext files).filter fun file => calls.remove file.path = false) ≤ config.maxBytes →
      bytes (dumps calls ext left) ≤ config.maxBytes

/-- How a report describes its file. -/
structure Describes (ext : ByteString) (report : StoredFile → Report) : Prop extends Reports ext report where
  size : ∀ file, (report file).size = file.data.length
  mtime : ∀ file, (report file).mtime = file.mtime

theorem describes_crashReport : Describes (ascii ".dmp") crashReport := ⟨reports_crashReport, fun _ => rfl, fun _ => rfl⟩

theorem describes_exportFile (ext : ByteString) : Describes ext exportFile :=
  ⟨reports_exportFile ext, fun _ => rfl, fun _ => rfl⟩

theorem Describes.bytes_eq (describes : Describes ext report) (files : List StoredFile) :
    bytes files = sumSizes (files.map report) := by
  rw [bytes, sumSizes, List.map_map]
  exact congrArg List.sum (List.map_congr_left fun file _ => (describes.size file).symm)

theorem dumps_without (path : ByteString) (files : List StoredFile) :
    dumps calls ext (without path files) = (dumps calls ext files).filter fun file => file.path ≠ path := by
  rw [dumps, dumps, without, List.filter_filter, List.filter_filter]
  exact List.filter_congr fun file _ => Bool.and_comm _ _

theorem Describes.dumps_removeReport (describes : Describes ext report) (file : StoredFile) (files : List StoredFile) :
    dumps calls ext (removeReport calls (report file) files) =
      (dumps calls ext files).filter fun other => other.path ≠ (report file).path := by
  have spared (sidecar : ByteString) (found : (report file).metaPath = some sidecar) (files : List StoredFile) :
      dumps calls ext (without sidecar files) = dumps calls ext files := by
    rw [dumps_without]
    apply List.filter_eq_self.mpr
    intro other member
    apply decide_eq_true
    intro same
    apply describes.sidecar file sidecar found
    rw [← same]
    exact (of_decide_eq_true (List.mem_filter.mp member).2 : IsDump calls ext other).2
  unfold removeReport
  split
  next sidecar found =>
    split
    next => rw [spared sidecar found, dumps_without]
    next => exact dumps_without _ _
  next => exact dumps_without _ _

theorem Describes.dumps_removeAll (describes : Describes ext report) {older : List Report}
    (origin : ∀ entry ∈ older, ∃ file, report file = entry) : ∀ files : List StoredFile,
    dumps calls ext (removeAll calls older files) =
      (dumps calls ext files).filter fun file => file.path ∉ older.map Report.path := by
  induction older with
  | nil =>
    intro files
    simp [removeAll]
  | cons entry older ih =>
    intro files
    obtain ⟨⟨file, made⟩, others⟩ := List.forall_mem_cons.mp origin
    show dumps calls ext (removeAll calls older (removeReport calls entry files)) = _
    rw [ih others, ← made, describes.dumps_removeReport, List.filter_filter]
    apply List.filter_congr
    intro other _
    rw [List.map_cons, ← Bool.decide_and, decide_eq_decide, List.mem_cons, not_or]
    exact and_comm

theorem removeAll_subset (reports : List Report) : ∀ files, removeAll calls reports files ⊆ files := by
  have once (report : Report) (files : List StoredFile) : removeReport calls report files ⊆ files := by
    unfold removeReport without
    split
    next =>
      split
      next => exact fun _ member => List.mem_of_mem_filter (List.mem_of_mem_filter member)
      next => exact fun _ member => List.mem_of_mem_filter member
    next => exact fun _ member => List.mem_of_mem_filter member
  induction reports with
  | nil => exact fun files => List.Subset.refl files
  | cons report reports ih => exact fun files => List.Subset.trans (ih _) (once report files)

variable {sort : MtimeSort}

theorem listing_perm : (listing sort calls ext report files).Perm ((dumps calls ext files).map report) := sort.perm _

theorem Describes.listing_nodup (describes : Describes ext report) (distinct : (files.map StoredFile.path).Nodup) :
    ((listing sort calls ext report files).map Report.path).Nodup := by
  refine (listing_perm.map Report.path).nodup_iff.mpr ?_
  have paths : Report.path ∘ report = StoredFile.path := funext describes.path
  rw [List.map_map, paths]
  exact distinct.sublist (List.filter_sublist.map _)

/-- What is left of the dumps are the reports that were not removed. -/
theorem Describes.left_perm (describes : Describes ext report) (distinct : (files.map StoredFile.path).Nodup)
    {older rest : List Report} (split : listing sort calls ext report files = older ++ rest) :
    ((dumps calls ext (removeAll calls older files)).map report).Perm rest := by
  have listed := @listing_perm calls ext report files sort
  have apart := @Describes.listing_nodup calls ext report files sort describes distinct
  rw [split] at listed apart
  rw [List.map_append, List.nodup_append] at apart
  have origin : ∀ entry ∈ older, ∃ file, report file = entry := by
    intro entry member
    obtain ⟨file, _, same⟩ := List.mem_map.mp (listed.mem_iff.mp (List.mem_append_left rest member))
    exact ⟨file, same⟩
  have paths : (fun file : StoredFile => decide (file.path ∉ older.map Report.path)) =
      (fun entry : Report => decide (entry.path ∉ older.map Report.path)) ∘ report := by
    funext file
    rw [Function.comp_apply, describes.path]
  have none : older.filter (fun entry => decide (entry.path ∉ older.map Report.path)) = [] := by
    apply List.filter_eq_nil_iff.mpr
    intro entry member
    simp only [decide_eq_true_eq, not_not]
    exact List.mem_map_of_mem member
  have all : rest.filter (fun entry => decide (entry.path ∉ older.map Report.path)) = rest := by
    apply List.filter_eq_self.mpr
    intro entry member
    apply decide_eq_true
    exact fun gone => apart.2.2 _ gone _ (List.mem_map_of_mem member) rfl
  rw [describes.dumps_removeAll origin, paths, ← List.filter_map]
  have filtered := (listed.filter fun entry => decide (entry.path ∉ older.map Report.path)).symm
  rwa [List.filter_append, none, all, List.nil_append] at filtered

/-- The files left are as they should be exactly when the reports left are. -/
theorem Describes.prunedBut_iff (describes : Describes ext report) (distinct : (files.map StoredFile.path).Nodup)
    {older rest : List Report} (split : listing sort calls ext report files = older ++ rest) :
    PrunedBut config calls ext files (removeAll calls older files) ↔
      Served config calls (listing sort calls ext report files) rest := by
  have left := describes.left_perm distinct split
  have undeleted : bytes ((dumps calls ext files).filter fun file => calls.remove file.path = false) =
      sumSizes (undeletable calls (listing sort calls ext report files)) := by
    have same : (fun file : StoredFile => decide (calls.remove file.path = false)) =
        (fun entry : Report => decide (¬ Deletable calls entry)) ∘ report := by
      funext file
      simp only [Function.comp_apply, Deletable, describes.path, Bool.not_eq_true]
    rw [describes.bytes_eq, same, ← List.filter_map]
    exact ((listing_perm.filter _).map Report.size).sum_nat.symm
  have total : bytes (dumps calls ext (removeAll calls older files)) = sumSizes rest := by
    rw [describes.bytes_eq]
    exact (left.map Report.size).sum_nat
  constructor
  · rintro ⟨age, size⟩
    refine ⟨?_, fun limited fits => ?_⟩
    · intro entry member deletable old
      obtain ⟨file, there, rfl⟩ := List.mem_map.mp (left.mem_iff.mpr member)
      obtain ⟨inside, dump⟩ := List.mem_filter.mp there
      rw [Deletable, describes.path] at deletable
      rw [describes.mtime] at old
      exact age file (removeAll_subset older files inside) (of_decide_eq_true dump) deletable old inside
    · rw [← total]
      exact size limited (undeleted ▸ fits)
  · rintro ⟨age, size⟩
    refine ⟨?_, fun limited fits => ?_⟩
    · intro file _ dump deletable old inside
      have kept : report file ∈ rest :=
        left.mem_iff.mp (List.mem_map_of_mem (List.mem_filter.mpr ⟨inside, decide_eq_true dump⟩))
      apply age (report file) kept
      · rw [Deletable, describes.path]
        exact deletable
      · rw [describes.mtime]
        exact old
    · rw [total]
      exact size limited (undeleted ▸ fits)

/-- How the pass over a directory ends, in the terms of its listing. -/
inductive Pass (config : DiskManagerConfig) (calls : DirectoryCalls) (ext : ByteString) (files : List StoredFile)
    (listed : List Report) : Status × List StoredFile → Prop where
  | finished {status : Status} {left : List StoredFile} (fine : ∀ failure, status = .error failure → failure.code = .notFound)
      (free : ∀ first newer, ¬ Stuck config calls listed first newer) (pruned : PrunedBut config calls ext files left) :
      Pass config calls ext files listed (status, left)
  | stopped {failure : StatusError} {left : List StoredFile} {first : Report} {newer : List Report}
      (internal : failure.code = .internal) (stuck : Stuck config calls listed first newer)
      (same : PrunedBut config calls ext files left ↔ Served config calls listed (first :: newer)) :
      Pass config calls ext files listed (.error failure, left)

theorem fromUndeletable_append {older rest : List Report} (deletable : ∀ report ∈ older, Deletable calls report) :
    fromUndeletable calls (older ++ rest) = fromUndeletable calls rest :=
  List.dropWhile_append_of_pos fun report member => decide_eq_true (deletable report member)

theorem not_stuck_of_fits {older kept : List Report} (deletable : ∀ report ∈ older, Deletable calls report)
    (fits : Fits config calls.time kept) (first : Report) (newer : List Report) :
    ¬ Stuck config calls (older ++ kept) first newer := by
  intro ⟨front, exceeds⟩
  rw [fromUndeletable_append deletable] at front
  have suffix : first :: newer <:+ kept := front ▸ List.dropWhile_suffix _
  obtain ⟨before, same⟩ := suffix
  rcases exceeds with large | old
  · have whole : sumSizes kept = sumSizes before + sumSizes (first :: newer) := by
      rw [← same, sumSizes, List.map_append, List.sum_append]
      rfl
    have bound := fits.size large.1
    have exceeded := large.2
    omega
  · have young : ¬ OverAge config calls.time first.mtime :=
      not_overAge_iff.mpr fun limited => fits.age limited first (same ▸ List.mem_append_right before List.mem_cons_self)
    exact young old

theorem served_of_fits {listed kept : List Report} (fits : Fits config calls.time kept) : Served config calls listed kept :=
  ⟨fun entry member _ => not_overAge_iff.mpr fun limited => fits.age limited entry member, fun limited _ => fits.size limited⟩

theorem pruneDir_pass {dir : ByteString} (describes : Describes ext report) (distinct : (files.map StoredFile.path).Nodup)
    (lists : Lists calls files) (small : bytes (dumps calls ext files) < 2 ^ 64) :
    Pass config calls ext files (listing sort calls ext report files)
      (pruneDir config calls (listFiles sort calls dir ext report files) files) := by
  by_cases idle : config.maxBytes = 0 ∧ config.maxAgeSeconds = 0
  · have unlimited (mtime : Int) : ¬ OverAge config calls.time mtime := not_overAge_iff.mpr fun limited => by omega
    unfold pruneDir
    rw [if_pos idle]
    refine .finished (fun failure impossible => nomatch impossible) ?_ ⟨fun _ _ _ _ old => absurd old (unlimited _), ?_⟩
    · intro first newer stuck
      rcases stuck.exceeds with large | old
      · exact absurd large.1 (by omega)
      · exact unlimited _ old
    · intro limited
      omega
  unfold pruneDir
  rw [if_neg idle]
  cases lists with
  | missing absent empty =>
    have failed : listFiles sort calls dir ext report files = .error (notFoundError (ascii "Not a directory: " ++ dir)) := by
      simp [listFiles, absent]
    have nothing : listing sort calls ext report files = [] := by
      rw [empty]
      exact (sort.perm []).eq_nil
    rw [failed, nothing]
    refine .finished ?_ ?_ ?_
    · rintro _ ⟨⟩
      rfl
    · intro first newer stuck
      exact List.cons_ne_nil _ _ stuck.front.symm
    · rw [empty]
      exact ⟨fun _ impossible => absurd impossible List.not_mem_nil, fun _ _ => Nat.zero_le _⟩
  | listed directory iterates regular stat =>
    have found : listFiles sort calls dir ext report files = .ok (listing sort calls ext report files) := by
      simp [listFiles, directory, iterates, listEntries_works regular stat, listing]
    have perm := @listing_perm calls ext report files sort
    have total : sumSizes (listing sort calls ext report files) = bytes (dumps calls ext files) := by
      rw [describes.bytes_eq]
      exact (perm.map Report.size).sum_nat
    have origin {entry : Report} (member : entry ∈ listing sort calls ext report files) :
        ∃ file ∈ files, IsDump calls ext file ∧ report file = entry := by
      obtain ⟨file, there, same⟩ := List.mem_map.mp (perm.mem_iff.mp member)
      obtain ⟨inside, dump⟩ := List.mem_filter.mp there
      exact ⟨file, inside, of_decide_eq_true dump, same⟩
    have present : ∀ entry ∈ listing sort calls ext report files, OnDisk files entry.path := by
      intro entry member
      obtain ⟨file, inside, _, rfl⟩ := origin member
      exact ⟨file, inside, (describes.path file).symm⟩
    have sidecars : ∀ entry ∈ listing sort calls ext report files, ∀ other ∈ listing sort calls ext report files,
        entry.metaPath ≠ some other.path := by
      intro entry member other later same
      obtain ⟨file, _, _, rfl⟩ := origin member
      obtain ⟨next, _, dump, rfl⟩ := origin later
      apply describes.sidecar file _ same
      rw [describes.path]
      exact dump.2
    have ends := @pruneReports_ends config calls (listing sort calls ext report files) files (sort.sorted _) (total ▸ small)
      (describes.listing_nodup distinct) present sidecars
    rw [found]
    dsimp only
    rw [totalBytes_eq (total ▸ small)]
    generalize outcome : pruneReports config calls (listing sort calls ext report files)
      (sumSizes (listing sort calls ext report files)) files = result at ends ⊢
    cases ends with
    | done older split removed fits =>
      refine .finished (fun failure impossible => nomatch impossible) ?_ ((describes.prunedBut_iff distinct split).mpr (served_of_fits fits))
      rw [split]
      exact not_stuck_of_fits removed fits
    | stopped older split removed refused exceeds internal =>
      refine .stopped internal ⟨?_, exceeds⟩ (describes.prunedBut_iff distinct split)
      rw [split, fromUndeletable_append removed]
      exact List.dropWhile_cons_of_neg (by simpa using refused)

end Directory

section Call
variable {sort : MtimeSort} {config : DiskManagerConfig} {pendingCalls exportCalls : DirectoryCalls}
  {pending exported : List StoredFile}

def pendingListing (sort : MtimeSort) (calls : DirectoryCalls) (files : List StoredFile) : List Report :=
  listing sort calls (ascii ".dmp") crashReport files

def exportListing (sort : MtimeSort) (calls : DirectoryCalls) (files : List StoredFile) : List Report :=
  listing sort calls (ascii ".crashdump") exportFile files

/-- What a call should leave in both directories, whatever cannot be removed. -/
structure PrunedAround (sort : MtimeSort) (config : DiskManagerConfig) (pendingCalls exportCalls : DirectoryCalls)
    (pending exported : List StoredFile) : Prop where
  reports : PrunedBut config pendingCalls (ascii ".dmp") pending
    (pruneMinidumps sort config pendingCalls exportCalls pending exported).2.1
  exports : config.exportPath ≠ [] → PrunedBut config exportCalls (ascii ".crashdump") exported
    (pruneMinidumps sort config pendingCalls exportCalls pending exported).2.2

/-- When the failures do no harm: whatever stands behind the first undeletable report that
exceeds a limit is as it should be, and so are all exports when there is one in pending/. -/
structure Harmless (sort : MtimeSort) (config : DiskManagerConfig) (pendingCalls exportCalls : DirectoryCalls)
    (pending exported : List StoredFile) : Prop where
  reports : ∀ first newer, Stuck config pendingCalls (pendingListing sort pendingCalls pending) first newer →
    Served config pendingCalls (pendingListing sort pendingCalls pending) (first :: newer)
  unreached : config.exportPath ≠ [] →
    (∃ first newer, Stuck config pendingCalls (pendingListing sort pendingCalls pending) first newer) →
      Served config exportCalls (exportListing sort exportCalls exported) (exportListing sort exportCalls exported)
  exports : config.exportPath ≠ [] →
    (∀ first newer, ¬ Stuck config pendingCalls (pendingListing sort pendingCalls pending) first newer) →
      ∀ first newer, Stuck config exportCalls (exportListing sort exportCalls exported) first newer →
        Served config exportCalls (exportListing sort exportCalls exported) (first :: newer)

theorem Stuck.unique {calls : DirectoryCalls} {listed newer others : List Report} {first other : Report}
    (stuck : Stuck config calls listed first newer) (again : Stuck config calls listed other others) :
    first = other ∧ newer = others :=
  List.cons.inj (stuck.front.symm.trans again.front)

/-- A directory is pruned as far as possible exactly when nothing that could go stands behind
the report at which the pass stops. -/
theorem Pass.pruned_iff {calls : DirectoryCalls} {ext : ByteString} {files : List StoredFile} {listed : List Report}
    {outcome : Status × List StoredFile} (pass : Pass config calls ext files listed outcome) :
    PrunedBut config calls ext files outcome.2 ↔
      ∀ first newer, Stuck config calls listed first newer → Served config calls listed (first :: newer) := by
  cases pass with
  | finished fine free pruned => exact iff_of_true pruned fun first newer stuck => absurd stuck (free first newer)
  | stopped internal stuck same =>
    refine same.trans ⟨fun served first newer again => ?_, fun all => all _ _ stuck⟩
    obtain ⟨rfl, rfl⟩ := stuck.unique again
    exact served

/-- Pruning gets past the files that cannot be removed exactly when none of them is in the
way of another. -/
theorem pruned_around_failures_iff (distinct : (pending.map StoredFile.path).Nodup)
    (lists : Lists pendingCalls pending) (small : bytes (dumps pendingCalls (ascii ".dmp") pending) < 2 ^ 64)
    (exportsDistinct : (exported.map StoredFile.path).Nodup) (exportsList : config.exportPath ≠ [] → Lists exportCalls exported)
    (exportsSmall : config.exportPath ≠ [] → bytes (dumps exportCalls (ascii ".crashdump") exported) < 2 ^ 64) :
    PrunedAround sort config pendingCalls exportCalls pending exported ↔
      Harmless sort config pendingCalls exportCalls pending exported := by
  have first : Pass config pendingCalls (ascii ".dmp") pending (pendingListing sort pendingCalls pending)
      (prunePendingDir sort config pendingCalls pending) := pruneDir_pass describes_crashReport distinct lists small
  have kept : (pruneMinidumps sort config pendingCalls exportCalls pending exported).2.1 =
      (prunePendingDir sort config pendingCalls pending).2 := by
    unfold pruneMinidumps
    dsimp only
    split
    next => rfl
    next => split <;> rfl
  have pendingPruned := first.pruned_iff
  rw [← kept] at pendingPruned
  by_cases idle : config.exportPath = []
  · constructor
    · intro pruned
      exact ⟨pendingPruned.mp pruned.reports, fun exports => absurd idle exports, fun exports => absurd idle exports⟩
    · intro harmless
      exact ⟨pendingPruned.mpr harmless.reports, fun exports => absurd idle exports⟩
  have second : Pass config exportCalls (ascii ".crashdump") exported (exportListing sort exportCalls exported)
      (pruneExportDir sort config exportCalls exported) :=
    pruneDir_pass (describes_exportFile _) exportsDistinct (exportsList idle) (exportsSmall idle)
  have exportsPruned := second.pruned_iff
  have untouched : PrunedBut config exportCalls (ascii ".crashdump") exported exported ↔
      Served config exportCalls (exportListing sort exportCalls exported) (exportListing sort exportCalls exported) :=
    (describes_exportFile _).prunedBut_iff exportsDistinct (List.nil_append _).symm
  have reports (remaining : (pruneMinidumps sort config pendingCalls exportCalls pending exported).2.2 =
      (pruneExportDir sort config exportCalls exported).2)
      (free : ∀ first newer, ¬ Stuck config pendingCalls (pendingListing sort pendingCalls pending) first newer) :
      PrunedAround sort config pendingCalls exportCalls pending exported ↔
        Harmless sort config pendingCalls exportCalls pending exported := by
    rw [← remaining] at exportsPruned
    constructor
    · intro pruned
      exact ⟨pendingPruned.mp pruned.reports, fun _ ⟨first, newer, stuck⟩ => absurd stuck (free first newer),
        fun _ _ => exportsPruned.mp (pruned.exports idle)⟩
    · intro harmless
      exact ⟨pendingPruned.mpr harmless.reports, fun _ => exportsPruned.mpr (harmless.exports idle free)⟩
  unfold pruneMinidumps at reports
  generalize passed : prunePendingDir sort config pendingCalls pending = outcome at first reports
  cases first with
  | @finished status left fine free pruned =>
    apply reports _ free
    rw [if_neg idle]
    cases status with
    | ok _ => rfl
    | error failure =>
      dsimp only
      rw [if_pos (fine failure rfl)]
  | @stopped failure left first newer internal stuck same =>
    have remaining : (pruneMinidumps sort config pendingCalls exportCalls pending exported).2.2 = exported := by
      unfold pruneMinidumps
      rw [passed]
      dsimp only
      rw [if_neg (by rw [internal]; exact nofun)]
    constructor
    · intro pruned
      refine ⟨pendingPruned.mp pruned.reports, fun exports _ => ?_, fun _ free => absurd stuck (free first newer)⟩
      have spared := pruned.exports exports
      rw [remaining] at spared
      exact untouched.mp spared
    · intro harmless
      refine ⟨pendingPruned.mpr harmless.reports, fun exports => ?_⟩
      rw [remaining]
      exact untouched.mpr (harmless.unreached exports ⟨first, newer, stuck⟩)

/-- Files older than ten seconds go, but the oldest dump cannot be removed. -/
def agedConfig : DiskManagerConfig := ⟨ascii "/db", ascii "/exports", 0, 10⟩

def refusing (path : ByteString) : DirectoryCalls := { calmCalls with remove := fun other => other ≠ path, time := 100 }

def agedDumps : List StoredFile := [⟨ascii "/db/pending/a.dmp", [], 1⟩, ⟨ascii "/db/pending/b.dmp", [], 2⟩]

def agedExports : List StoredFile := [⟨ascii "/exports/c.crashdump", [], 3⟩]

theorem lists_refusing (path : ByteString) (files : List StoredFile) : Lists (refusing path) files :=
  .listed rfl rfl (fun _ _ => nofun) (fun _ _ => rfl)

def freshDump : StoredFile := ⟨ascii "/db/pending/fresh.dmp", [], 95⟩

/-- A dump that cannot be removed is in no other's way while it is young. -/
theorem young_failure_harmless :
    PrunedAround stableSort agedConfig (refusing freshDump.path) (refusing []) (freshDump :: agedDumps) agedExports := by
  apply (pruned_around_failures_iff (by decide +kernel) (lists_refusing _ _) (by decide +kernel) (by decide +kernel)
    (fun _ => lists_refusing _ _) (fun _ => by decide +kernel)).mpr
  have free (first : Report) (newer : List Report) : ¬ Stuck agedConfig (refusing freshDump.path)
      (pendingListing stableSort (refusing freshDump.path) (freshDump :: agedDumps)) first newer := by
    have front : fromUndeletable (refusing freshDump.path)
        (pendingListing stableSort (refusing freshDump.path) (freshDump :: agedDumps)) = [crashReport freshDump] := by
      decide +kernel
    rintro ⟨same, exceeds⟩
    cases front.symm.trans same
    exact absurd exceeds (by decide +kernel)
  have exportsFree (first : Report) (newer : List Report) :
      ¬ Stuck agedConfig (refusing []) (exportListing stableSort (refusing []) agedExports) first newer := by
    have front : fromUndeletable (refusing []) (exportListing stableSort (refusing []) agedExports) = [] := by decide +kernel
    rintro ⟨same, _⟩
    cases front.symm.trans same
  exact ⟨fun first newer stuck => absurd stuck (free first newer), fun _ ⟨first, newer, stuck⟩ => absurd stuck (free first newer),
    fun _ _ first newer stuck => absurd stuck (exportsFree first newer)⟩

/-- The oldest dump stays, and with it the next one and the export. -/
theorem oldest_failure_blocks :
    pruneMinidumps stableSort agedConfig (refusing (ascii "/db/pending/a.dmp")) (refusing []) agedDumps agedExports =
        (.error (internalError (ascii "Failed to remove /db/pending/a.dmp: ")), agedDumps, agedExports) ∧
      ¬ PrunedAround stableSort agedConfig (refusing (ascii "/db/pending/a.dmp")) (refusing []) agedDumps agedExports := by
  have stays : pruneMinidumps stableSort agedConfig (refusing (ascii "/db/pending/a.dmp")) (refusing []) agedDumps agedExports =
      (.error (internalError (ascii "Failed to remove /db/pending/a.dmp: ")), agedDumps, agedExports) := by
    decide +kernel
  refine ⟨stays, ?_⟩
  rintro ⟨reports, _⟩
  rw [stays] at reports
  exact reports.age _ (List.mem_cons_of_mem _ List.mem_cons_self) (by decide +kernel) (by decide +kernel) (by decide +kernel)
    (List.mem_cons_of_mem _ List.mem_cons_self)

end Call

end Crashomon.Proofs.PruneFailures
