import Crashomon.Proofs.PatcherFile
import Crashomon.Proofs.WatcherQueues

/-! Whether the pruner deletes a dump that is still to be processed. It does not
look at the queue, so such a dump survives as long as the limits spare it
whenever the directory is listed. -/

namespace Crashomon.Proofs.PruneSafety
open Bytes Daemon Daemon.DiskManager Daemon.Worker Daemon.Watcher WatcherQueues
open PatcherBounds (dumpOf healthy)
open PatcherFile (unpatchedDump)

def OnDisk (files : List StoredFile) (path : ByteString) : Prop := ∃ file ∈ files, file.path = path

/-- The paths of renamed dumps that no worker has taken yet. -/
def awaited (setup : Setup) (state : State) : List ByteString :=
  state.pending ++ paths setup (batch state.main) ++ paths setup state.inotify

def sumSizes (reports : List Report) : Nat := (reports.map Report.size).sum

/-- The limits spare a report, given the newer ones listed behind it. -/
structure Spared (config : DiskManagerConfig) (time : Int) (report : Report) (newer : List Report) : Prop where
  young : ¬ OverAge config time report.mtime
  small : config.maxBytes = 0 ∨ report.size + sumSizes newer ≤ config.maxBytes

/-- The step lists the directory only when all awaited dumps are spared, and
renames a dump to a new name only, as Crashpad does with its UUIDs. -/
def Sparing (setup : Setup) (state : State) : Action → Prop
  | .worker (.list calls) =>
    ∀ reports, listCrashReports setup.sort calls (pendingDir setup.config) state.world.pending = .ok reports →
      (setup.config.maxBytes ≠ 0 → sumSizes reports < 2 ^ 64) ∧
      ∀ older report newer, reports = older ++ report :: newer → report.path ∈ awaited setup state →
        Spared setup.config calls.time report newer
  | .handler (.rename name _ _) => ¬ OnDisk state.world.pending (pendingDir setup.config ++ slash :: name)
  | _ => True

def AllSparing (setup : Setup) : State → List Action → Prop := Transition.Throughout (step setup) (Sparing setup)

section Names

def lastByte (path : ByteString) : Option UInt8 := path.reverse.head?

private theorem head_of_takeWhile {accepts : α → Bool} {items rest : List α} {first : α}
    (taken : items.takeWhile accepts = first :: rest) : items.head? = some first := by
  cases items with
  | nil => cases taken
  | cons item items =>
    rw [List.takeWhile_cons] at taken
    split at taken
    next => cases taken; rfl
    next => cases taken

theorem lastByte_append {front back : ByteString} {byte : UInt8} (last : lastByte back = some byte) :
    lastByte (front ++ back) = some byte := by
  unfold lastByte at last ⊢
  rw [List.reverse_append, List.head?_append, last]
  rfl

theorem enqueued_last {dir path : ByteString} {event : InotifyEvent} (found : enqueued dir event = some path) :
    lastByte path = some 112 := by
  unfold enqueued at found
  split at found
  next => cases found
  next named =>
    cases found
    have suffix : event.name.drop (event.name.length - 4) = ascii ".dmp" :=
      Decidable.not_not.mp fun other => named (.inr other)
    have parts : dir ++ slash :: event.name =
        (dir ++ slash :: event.name.take (event.name.length - 4)) ++ ascii ".dmp" := by
      rw [List.append_assoc, List.cons_append, ← suffix, List.take_append_drop]
    rw [parts]
    exact lastByte_append (by decide +kernel)

theorem awaited_last {setup : Setup} {events : List InotifyEvent} {path : ByteString}
    (member : path ∈ paths setup events) : lastByte path = some 112 := by
  obtain ⟨event, _, found⟩ := List.mem_filterMap.mp member
  exact enqueued_last found

theorem extension_last {path : ByteString} (named : extension path = ascii ".dmp") : lastByte path = some 112 := by
  have letters : ascii ".dmp" = [46, 100, 109, 112] := by decide +kernel
  simp only [extension] at named
  split at named
  next => rw [letters] at named; cases named
  next =>
    rw [letters] at named
    have suffix : (filename path).reverse.takeWhile (· ≠ dot) = [112, 109, 100] := by
      rw [← List.reverse_reverse (List.takeWhile _ _), (List.cons.inj named).2]
      rfl
    have inName : (filename path).reverse.head? = some 112 := head_of_takeWhile suffix
    rw [filename, List.reverse_reverse] at inName
    cases taken : path.reverse.takeWhile (· ≠ slash) with
    | nil => rw [taken] at inName; cases inName
    | cons first rest =>
      rw [taken] at inName
      cases inName
      exact head_of_takeWhile taken

theorem sidecar_last (path : ByteString) : lastByte (replaceExtension path (ascii ".meta")) = some 97 :=
  lastByte_append (by decide +kernel)

end Names

section Files
variable {files : List StoredFile} {path : ByteString}

theorem onDisk_iff : OnDisk files path ↔ path ∈ files.map StoredFile.path := by
  rw [List.mem_map]
  exact Iff.rfl

theorem onDisk_without {other : ByteString} : OnDisk (without other files) path ↔ OnDisk files path ∧ path ≠ other := by
  constructor
  · intro ⟨file, member, same⟩
    obtain ⟨found, kept⟩ := List.mem_filter.mp member
    exact ⟨⟨file, found, same⟩, same ▸ of_decide_eq_true kept⟩
  · intro ⟨⟨file, found, same⟩, different⟩
    exact ⟨file, List.mem_filter.mpr ⟨found, decide_eq_true (same ▸ different)⟩, same⟩

theorem onDisk_place {file : StoredFile} : OnDisk (place file files) path ↔ OnDisk files path ∨ path = file.path := by
  constructor
  · intro ⟨found, member, same⟩
    rcases List.mem_append.mp member with front | back
    · exact .inl ⟨found, (List.mem_filter.mp front).1, same⟩
    · rw [List.mem_singleton.mp back] at same
      exact .inr same.symm
  · intro reason
    by_cases replaced : path = file.path
    · exact ⟨file, List.mem_append_right _ List.mem_cons_self, replaced.symm⟩
    · rcases reason with present | same
      · obtain ⟨found, member, same⟩ := onDisk_without.mpr ⟨present, replaced⟩
        exact ⟨found, List.mem_append_left _ member, same⟩
      · exact absurd same replaced

theorem map_path_patch (setup : Setup) (call : Circumstances) (other : ByteString) (files : List StoredFile) :
    (patchMinidump setup call other files).map StoredFile.path = files.map StoredFile.path := by
  unfold patchMinidump
  split
  next data =>
    rw [List.map_map]
    apply List.map_congr_left
    intro file _
    simp only [Function.comp_apply]
    split
    next same => exact same.symm
    next => rfl
  next => rfl

theorem nodup_without {other : ByteString} (distinct : (files.map StoredFile.path).Nodup) :
    ((without other files).map StoredFile.path).Nodup :=
  distinct.sublist (List.filter_sublist.map _)

theorem nodup_place {file : StoredFile} (distinct : (files.map StoredFile.path).Nodup) :
    ((place file files).map StoredFile.path).Nodup := by
  rw [place, List.map_append, List.map_singleton, List.nodup_append]
  refine ⟨nodup_without distinct, List.nodup_singleton _, fun path front other back same => ?_⟩
  have present := onDisk_iff.mpr front
  rw [List.mem_singleton.mp back] at same
  exact (onDisk_without.mp present).2 same

theorem pending_report (setup : Setup) (call : Circumstances) (world : World) :
    (reportMinidump setup call path world).pending = world.pending := by
  unfold reportMinidump
  split
  next => rfl
  next info _ =>
    split
    next => rfl
    next =>
      split
      next => rfl
      next =>
        simp only [exportMinidump]
        split <;> rfl

end Files

/-- What the deletion loop knows of the reports still before it. -/
structure Guarded (config : DiskManagerConfig) (calls : DirectoryCalls) (files : List StoredFile)
    (waiting : List ByteString) (reports : List Report) (total : Nat) : Prop where
  present : ∀ report ∈ reports, OnDisk files report.path ∧ lastByte report.path = some 112
  sidecars : ∀ report ∈ reports, ∀ sidecar, report.metaPath = some sidecar → lastByte sidecar = some 97
  distinct : (reports.map Report.path).Nodup
  /-- Nothing wraps, and what is over the limit is all still listed. -/
  exact : config.maxBytes ≠ 0 → total < 2 ^ 64 ∧ sumSizes reports ≤ total ∧
    (total ≤ config.maxBytes ∨ total = sumSizes reports)
  spared : ∀ older report newer, reports = older ++ report :: newer → report.path ∈ waiting →
    Spared config calls.time report newer

/-- What holds in every state of a sparing run. -/
structure Kept (setup : Setup) (state : State) : Prop where
  distinct : (state.world.pending.map StoredFile.path).Nodup
  waiting : ∀ path ∈ awaited setup state, OnDisk state.world.pending path ∧ lastByte path = some 112
  started : ∀ path, state.worker = .patching path → OnDisk state.world.pending path
  guarded : ∀ reports total calls, state.worker = .removing reports total calls →
    Guarded setup.config calls state.world.pending (awaited setup state) reports total

section Listing
variable {calls : DirectoryCalls} {ext : ByteString}

theorem listEntries_sublist (err : Bool) (files : List StoredFile) :
    (listEntries calls ext err files).1.Sublist files ∧
      ∀ entry ∈ (listEntries calls ext err files).1, extension entry.path = ext := by
  induction files generalizing err with
  | nil => cases err <;> exact ⟨List.Sublist.refl _, List.forall_mem_nil _⟩
  | cons file rest ih =>
    cases err with
    | true => exact ⟨List.nil_sublist _, List.forall_mem_nil _⟩
    | false =>
      rw [listEntries]
      split
      next => exact ⟨(ih true).1.cons _, (ih true).2⟩
      next => exact ⟨(ih false).1.cons _, (ih false).2⟩
      next =>
        split
        next wanted =>
          refine ⟨(ih false).1.cons_cons _, fun entry member => ?_⟩
          rcases List.mem_cons.mp member with same | later
          · rw [same]
            exact wanted.1
          · exact (ih false).2 entry later
        next => exact ⟨(ih false).1.cons _, (ih false).2⟩

theorem listCrashReports_ok {sort : MtimeSort} {dir : ByteString} {files : List StoredFile} {reports : List Report}
    (listed : listCrashReports sort calls dir files = .ok reports) :
    (∀ report ∈ reports, ∃ file ∈ files, report = crashReport file ∧ extension file.path = ascii ".dmp") ∧
      ((files.map StoredFile.path).Nodup → (reports.map Report.path).Nodup) := by
  unfold listCrashReports listFiles at listed
  split at listed
  next => cases listed
  next =>
    obtain ⟨sublist, named⟩ := @listEntries_sublist calls (ascii ".dmp") (¬ calls.iterates) files
    generalize listEntries calls (ascii ".dmp") (¬ calls.iterates) files = entries at listed sublist named
    simp only at listed
    split at listed
    next => cases listed
    next =>
      cases listed
      have sorted := sort.perm (entries.1.map crashReport)
      refine ⟨fun report member => ?_, fun distinct => ?_⟩
      · obtain ⟨file, found, same⟩ := List.mem_map.mp (sorted.mem_iff.mp member)
        exact ⟨file, sublist.subset found, same.symm, named file found⟩
      · have chosen : (entries.1.map StoredFile.path).Nodup := distinct.sublist (sublist.map _)
        refine (sorted.map Report.path).nodup_iff.mpr ?_
        rw [List.map_map]
        exact chosen

theorem totalBytes_eq {reports : List Report} (small : sumSizes reports < 2 ^ 64) : totalBytes reports = sumSizes reports := by
  have cast : (reports.map fun report => (report.size : Int)).sum = (sumSizes reports : Int) := by
    clear small
    induction reports with
    | nil => rfl
    | cons report rest ih =>
      simp only [sumSizes, List.map_cons, List.sum_cons, Int.natCast_add] at ih ⊢
      rw [ih]
  unfold totalBytes u64
  rw [cast]
  omega

end Listing

section Remove
variable {calls : DirectoryCalls} {config : DiskManagerConfig} {report : Report} {files : List StoredFile}

theorem onDisk_remove {path : ByteString} (different : path ≠ report.path)
    (other : ∀ sidecar, report.metaPath = some sidecar → path ≠ sidecar) (present : OnDisk files path) :
    OnDisk (removeReport calls report files) path := by
  have kept : OnDisk (without report.path files) path := onDisk_without.mpr ⟨present, different⟩
  unfold removeReport
  split
  next sidecar found =>
    split
    next => exact onDisk_without.mpr ⟨kept, other sidecar found⟩
    next => exact kept
  next => exact kept

theorem nodup_remove (distinct : (files.map StoredFile.path).Nodup) :
    ((removeReport calls report files).map StoredFile.path).Nodup := by
  unfold removeReport
  split
  next =>
    split
    next => exact nodup_without (nodup_without distinct)
    next => exact nodup_without distinct
  next => exact nodup_without distinct

variable {waiting : List ByteString} {rest : List Report} {total : Nat}

private theorem sumSizes_cons : sumSizes (report :: rest) = report.size + sumSizes rest := by
  simp only [sumSizes, List.map_cons, List.sum_cons]

theorem Guarded.skip (guarded : Guarded config calls files waiting (report :: rest) total) (within : ¬ OverSize config total) :
    Guarded config calls files waiting rest total := by
  refine ⟨fun other member => guarded.present other (List.mem_cons_of_mem _ member),
    fun other member => guarded.sidecars other (List.mem_cons_of_mem _ member), (List.nodup_cons.mp guarded.distinct).2,
    fun limited => ?_, fun older other newer same => ?_⟩
  · obtain ⟨small, sum, _⟩ := guarded.exact limited
    rw [sumSizes_cons] at sum
    unfold OverSize at within
    exact ⟨small, by omega, .inl (by omega)⟩
  · exact guarded.spared (report :: older) other newer (by rw [same, List.cons_append])

theorem Guarded.not_awaited (guarded : Guarded config calls files waiting (report :: rest) total)
    (exceeds : ¬ (¬ OverSize config total ∧ ¬ OverAge config calls.time report.mtime)) : report.path ∉ waiting := by
  intro member
  obtain ⟨young, small⟩ := guarded.spared [] report rest rfl member
  refine exceeds ⟨fun ⟨limited, large⟩ => ?_, young⟩
  obtain ⟨_, _, bound⟩ := guarded.exact (by omega)
  rw [sumSizes_cons] at bound
  omega

theorem Guarded.remove (guarded : Guarded config calls files waiting (report :: rest) total) :
    Guarded config calls (removeReport calls report files) waiting rest (u64 (total - report.size)) := by
  obtain ⟨fresh, distinct⟩ := List.nodup_cons.mp guarded.distinct
  refine ⟨fun other member => ?_, fun other member => guarded.sidecars other (List.mem_cons_of_mem _ member), distinct,
    fun limited => ?_, fun older other newer same => ?_⟩
  · obtain ⟨present, last⟩ := guarded.present other (List.mem_cons_of_mem _ member)
    refine ⟨onDisk_remove (fun same => fresh ?_) (fun sidecar found same => ?_) present, last⟩
    · exact same ▸ List.mem_map_of_mem member
    · have ending := guarded.sidecars report List.mem_cons_self sidecar found
      rw [← same, last] at ending
      cases ending
  · obtain ⟨small, sum, bound⟩ := guarded.exact limited
    rw [sumSizes_cons] at sum bound
    unfold u64
    exact ⟨by omega, by omega, by omega⟩
  · exact guarded.spared (report :: older) other newer (by rw [same, List.cons_append])

end Remove

section Step
variable {setup : Setup} {before after : State}

theorem awaited_same (accounted : Accounted setup before) (next : Accounted setup after)
    (renamed : after.renamed = before.renamed) (processed : after.processed = before.processed) :
    awaited setup after = awaited setup before := by
  unfold Accounted at accounted next
  rw [renamed, processed, accounted] at next
  simp only [List.append_assoc, List.append_cancel_left_eq] at next
  simp only [awaited, List.append_assoc]
  exact next.symm

theorem mainStep_frame {action : MainAction} (stepped : mainStep setup before action = some after) :
    after.world = before.world ∧ after.worker = before.worker ∧ after.renamed = before.renamed ∧
      after.processed = before.processed := by
  cases action <;> cases phase : before.main <;> simp only [mainStep, phase, reduceCtorEq] at stepped
  case enqueue.enqueuing events => cases events <;> cases stepped <;> exact ⟨rfl, rfl, rfl, rfl⟩
  all_goals first | cases stepped | (split at stepped <;> cases stepped)
  all_goals exact ⟨rfl, rfl, rfl, rfl⟩

theorem Kept.of_same (kept : Kept setup before) (awaits : awaited setup after = awaited setup before)
    (world : after.world.pending = before.world.pending) (worker : after.worker = before.worker) : Kept setup after := by
  refine ⟨?_, ?_, ?_, ?_⟩
  · rw [world]
    exact kept.distinct
  · rw [world, awaits]
    exact kept.waiting
  · rw [world, worker]
    exact kept.started
  · rw [world, awaits, worker]
    exact kept.guarded

theorem Kept.of_idle (kept : Kept setup before) (awaits : awaited setup after = awaited setup before)
    (world : after.world.pending.map StoredFile.path = before.world.pending.map StoredFile.path)
    (patching : ∀ path, after.worker ≠ .patching path)
    (removing : ∀ reports total calls, after.worker ≠ .removing reports total calls) : Kept setup after := by
  refine ⟨?_, fun path member => ?_, fun path phase => absurd phase (patching path),
    fun reports total calls phase => absurd phase (removing reports total calls)⟩
  · rw [world]
    exact kept.distinct
  · rw [awaits] at member
    obtain ⟨present, last⟩ := kept.waiting path member
    exact ⟨onDisk_iff.mpr (world ▸ onDisk_iff.mp present), last⟩

theorem handlerStep_kept {action : HandlerAction} (kept : Kept setup before) (accounted : Accounted setup before)
    (sparing : Sparing setup before (.handler action)) (stepped : handlerStep setup before action = some after) :
    Kept setup after := by
  have next := accounted.step (handlerStep_moves stepped)
  cases action with
  | exit =>
    simp only [handlerStep] at stepped
    split at stepped <;> cases stepped
    exact kept.of_same (awaited_same accounted next rfl rfl) rfl rfl
  | rename name data mtime =>
    simp only [handlerStep] at stepped
    split at stepped <;> cases stepped
    have older (path : ByteString) (present : OnDisk before.world.pending path) :
        OnDisk (place ⟨pendingDir setup.config ++ slash :: name, data, mtime⟩ before.world.pending) path :=
      onDisk_place.mpr (.inl present)
    have awaits (path : ByteString)
        (member : path ∈ before.pending ++ paths setup (batch before.main) ++ paths setup (before.inotify ++ [⟨name⟩])) :
        path ∈ awaited setup before ∨ path = pendingDir setup.config ++ slash :: name ∧ lastByte path = some 112 := by
      have split : paths setup (before.inotify ++ [⟨name⟩]) = paths setup before.inotify ++ paths setup [⟨name⟩] :=
        List.filterMap_append
      rw [split, ← List.append_assoc] at member
      rcases List.mem_append.mp member with old | new
      · exact .inl old
      · have last := awaited_last new
        obtain ⟨event, found, pushed⟩ := List.mem_filterMap.mp new
        rw [List.mem_singleton.mp found, enqueued] at pushed
        split at pushed
        next => cases pushed
        next => cases pushed; exact .inr ⟨rfl, last⟩
    refine ⟨nodup_place kept.distinct, fun path member => ?_, fun path phase => older path (kept.started path phase),
      fun reports total calls phase => ?_⟩
    · rcases awaits path member with old | new
      · exact ⟨older path (kept.waiting path old).1, (kept.waiting path old).2⟩
      · exact ⟨onDisk_place.mpr (.inr new.1), new.2⟩
    · have guarded := kept.guarded reports total calls phase
      refine ⟨fun report member => ?_, guarded.sidecars, guarded.distinct, guarded.exact, fun first report newer same member => ?_⟩
      · exact ⟨older _ (guarded.present report member).1, (guarded.present report member).2⟩
      · -- A listed report is on the disk, so the new dump has another name.
        rcases awaits report.path member with old | new
        · exact guarded.spared first report newer same old
        · have listed : report ∈ reports := by rw [same]; exact List.mem_append_right first List.mem_cons_self
          exact absurd (new.1 ▸ (guarded.present report listed).1) sparing

theorem listStep_kept {calls : DirectoryCalls} (kept : Kept setup before)
    (sparing : Sparing setup before (.worker (.list calls))) : Kept setup (listStep setup before calls) := by
  unfold listStep
  split
  next => exact kept.of_idle rfl rfl (fun _ => by simp) (fun _ _ _ => by simp)
  next =>
    split
    next reports listed =>
      obtain ⟨origins, distinct⟩ := listCrashReports_ok listed
      obtain ⟨small, spared⟩ := sparing reports listed
      refine ⟨kept.distinct, kept.waiting, nofun, fun others total other phase => ?_⟩
      cases phase
      refine ⟨fun report member => ?_, fun report member sidecar found => ?_, distinct kept.distinct, fun limited => ?_, spared⟩
      · obtain ⟨file, present, same, named⟩ := origins report member
        rw [same]
        exact ⟨⟨file, present, rfl⟩, extension_last named⟩
      · obtain ⟨file, _, same, _⟩ := origins report member
        rw [same] at found
        cases found
        exact sidecar_last file.path
      · have total := totalBytes_eq (small limited)
        exact ⟨by rw [total]; exact small limited, Nat.le_of_eq total.symm, .inr total⟩
    next =>
      split
      next => exact kept.of_idle rfl rfl (fun _ => by simp) (fun _ _ _ => by simp)
      next => exact kept.of_idle rfl rfl (fun _ => by simp) (fun _ _ _ => by simp)

theorem removeStep_kept {reports : List Report} {total : Nat} {calls : DirectoryCalls} (kept : Kept setup before)
    (phase : before.worker = .removing reports total calls) : Kept setup (removeStep setup before calls reports total) := by
  have guarded := kept.guarded reports total calls phase
  cases reports with
  | nil => exact kept.of_idle rfl rfl (fun _ => by simp [removeStep]) (fun _ _ _ => by simp [removeStep])
  | cons report rest =>
    rw [removeStep]
    split
    next within =>
      refine ⟨kept.distinct, kept.waiting, (fun _ same => by cases same), fun others other calls phase => ?_⟩
      cases phase
      exact guarded.skip within.1
    next exceeds =>
      split
      next => exact kept.of_idle rfl rfl (fun _ => by simp) (fun _ _ _ => by simp)
      next =>
        have spared := guarded.not_awaited exceeds
        refine ⟨nodup_remove kept.distinct, fun path member => ?_, (fun _ same => by cases same),
          fun others other calls phase => ?_⟩
        · obtain ⟨present, last⟩ := kept.waiting path member
          refine ⟨onDisk_remove (fun same => spared (same ▸ member)) (fun sidecar found same => ?_) present, last⟩
          have ending := guarded.sidecars report List.mem_cons_self sidecar found
          rw [← same, last] at ending
          cases ending
        · cases phase
          exact guarded.remove

theorem workerStep_kept {action : WorkerAction} (kept : Kept setup before) (accounted : Accounted setup before)
    (sparing : Sparing setup before (.worker action)) (stepped : workerStep setup before action = some after) :
    Kept setup after := by
  have next := accounted.step (workerStep_moves stepped)
  cases action <;> cases phase : before.worker <;> simp only [workerStep, phase, reduceCtorEq] at stepped
  case dequeue.waiting =>
    cases queue : before.pending with
    | nil => simp [queue] at stepped
    | cons path rest =>
      simp only [queue] at stepped
      cases stepped
      have taken : awaited setup before = path :: (rest ++ paths setup (batch before.main) ++ paths setup before.inotify) := by
        simp only [awaited, queue, List.cons_append]
      refine ⟨kept.distinct, fun other member => kept.waiting other ?_, fun other same => ?_,
        fun _ _ _ same => by cases same⟩
      · rw [taken]
        exact List.mem_cons_of_mem path member
      · cases same
        exact (kept.waiting path (by rw [taken]; exact List.mem_cons_self)).1
  case return.waiting =>
    split at stepped <;> cases stepped
    exact kept.of_idle (awaited_same accounted next rfl rfl) rfl (fun _ => by simp) (fun _ _ _ => by simp)
  case list.listing calls =>
    cases stepped
    exact listStep_kept kept sparing
  case removeNext.removing reports total calls =>
    cases stepped
    exact removeStep_kept kept phase
  case patch.patching call path =>
    cases stepped
    exact kept.of_idle (awaited_same accounted next rfl rfl) (map_path_patch setup call path _) (fun _ => by simp)
      (fun _ _ _ => by simp)
  case report.reporting call path =>
    cases stepped
    exact kept.of_idle (awaited_same accounted next rfl rfl) (congrArg _ (pending_report setup call before.world))
      (fun _ => by simp) (fun _ _ _ => by simp)
  case pruneExports.pruningExports calls =>
    cases stepped
    refine kept.of_idle (awaited_same accounted next rfl rfl) ?_ (fun _ => by simp) (fun _ _ _ => by simp)
    simp only
    split <;> rfl

theorem step_kept {action : Action} (kept : Kept setup before) (accounted : Accounted setup before)
    (sparing : Sparing setup before action) (stepped : step setup before action = some after) : Kept setup after := by
  cases action with
  | signal =>
    have next := accounted.step (step_moves stepped)
    cases stepped
    exact kept.of_same (awaited_same accounted next rfl rfl) rfl rfl
  | main action =>
    have next := accounted.step (mainStep_moves stepped)
    obtain ⟨world, worker, renamed, processed⟩ := mainStep_frame stepped
    exact kept.of_same (awaited_same accounted next renamed processed) (by rw [world]) worker
  | handler action => exact handlerStep_kept kept accounted sparing stepped
  | worker action => exact workerStep_kept kept accounted sparing stepped

end Step

theorem run_kept {setup : Setup} {before after : State} {actions : List Action} (kept : Kept setup before)
    (accounted : Accounted setup before) (sparing : AllSparing setup before actions)
    (ran : run setup before actions = some after) : Kept setup after := by
  have each {first second : State} {action : Action} (held : Kept setup first ∧ Accounted setup first)
      (spared : Sparing setup first action) (stepped : step setup first action = some second) :
      Kept setup second ∧ Accounted setup second :=
    ⟨step_kept held.1 held.2 spared stepped, held.2.step (step_moves stepped)⟩
  exact (Transition.run_keeps each ⟨kept, accounted⟩ sparing ran).1

/-- In every sparing run the queued dumps are on the disk, and so is each dump
whose processing begins. -/
theorem waiting_dumps_kept {setup : Setup} {files : List StoredFile} {actions : List Action} {state : State}
    (distinct : (files.map StoredFile.path).Nodup) (sparing : AllSparing setup (initial files) actions)
    (ran : run setup (initial files) actions = some state) :
    (∀ path ∈ state.pending, OnDisk state.world.pending path) ∧
      ∀ path, state.worker = .patching path → OnDisk state.world.pending path := by
  have start : Kept setup (initial files) :=
    ⟨distinct, List.forall_mem_nil _, nofun,
      nofun⟩
  have kept := run_kept start rfl sparing ran
  refine ⟨fun path member => (kept.waiting path ?_).1, kept.started⟩
  exact List.mem_append_left _ (List.mem_append_left _ member)

/-- With room for all that is listed and no age limit every listing is sparing. -/
theorem sparing_of_room {setup : Setup} {state : State} {calls : DirectoryCalls} (ageless : setup.config.maxAgeSeconds = 0)
    (small : setup.config.maxBytes < 2 ^ 64)
    (room : ∀ reports, listCrashReports setup.sort calls (pendingDir setup.config) state.world.pending = .ok reports →
      sumSizes reports ≤ setup.config.maxBytes) : Sparing setup state (.worker (.list calls)) := by
  intro reports listed
  have fits := room reports listed
  refine ⟨fun _ => by omega, fun older report newer same _ => ⟨fun ⟨positive, _⟩ => by omega, .inr ?_⟩⟩
  simp only [same, sumSizes, List.map_append, List.map_cons, List.sum_append, List.sum_cons] at fits
  unfold sumSizes
  omega

/-- The build ID of every file, where the dump has a module without one. -/
def identified : MinidumpPatcher.ElfLookup := fun _ => List.replicate 16 7

/-- Room for one dump of 182 bytes. -/
def limitedSetup : Setup := ⟨⟨ascii "/db", [], 182, 0⟩, [], fun _ => [], true, stableSort⟩

def renameAs (name : ByteString) (mtime : Int) : Action := .handler (.rename name unpatchedDump mtime)

def burst : List Action :=
  [renameAs (ascii "a.dmp") 1, renameAs (ascii "b.dmp") 2, .main .check, .main .pollReadable, .main (.read 2),
    .main .enqueue, .main .enqueue, .worker .dequeue]

def roomySetup : Setup := ⟨⟨ascii "/db", [], 364, 0⟩, [], fun _ => [], false, stableSort⟩

def roomyRun : List Action := burst ++ [.worker (.patch calmCall), .worker (.report calmCall), .worker (.list calmCalls), .worker .removeNext]

def twoDumps : List StoredFile :=
  [⟨ascii "/db/pending/a.dmp", unpatchedDump, 1⟩, ⟨ascii "/db/pending/b.dmp", unpatchedDump, 2⟩]

theorem roomyRun_sparing : AllSparing roomySetup (initial []) roomyRun := by
  refine ⟨fun ⟨_, impossible, _⟩ => absurd impossible List.not_mem_nil, fun _ stepped => ?_⟩
  cases stepped
  refine ⟨fun present => ?_, fun _ stepped => ?_⟩
  · exact absurd (onDisk_iff.mp present) (by decide +kernel)
  cases stepped
  iterate 8
    refine ⟨trivial, fun _ stepped => ?_⟩
    cases stepped
  refine ⟨sparing_of_room rfl (by decide) fun reports listed => ?_, fun _ stepped => ?_⟩
  · have sizes : (listCrashReports roomySetup.sort calmCalls (pendingDir roomySetup.config) twoDumps).toOption.map sumSizes =
        some 364 := by decide +kernel
    have same : listCrashReports roomySetup.sort calmCalls (pendingDir roomySetup.config) twoDumps = .ok reports := listed
    rw [same] at sizes
    exact Nat.le_of_eq (Option.some.inj sizes)
  cases stepped
  exact ⟨trivial, fun _ _ => trivial⟩

theorem roomyRun_kept :
    ∃ state, run roomySetup (initial []) roomyRun = some state ∧
      (∀ path ∈ state.pending, OnDisk state.world.pending path) ∧
      ∀ path, state.worker = .patching path → OnDisk state.world.pending path := by
  have distinct : (([] : List StoredFile).map StoredFile.path).Nodup := List.nodup_nil
  have ran : (run roomySetup (initial []) roomyRun).isSome := by decide +kernel
  obtain ⟨state, reached⟩ := Option.isSome_iff_exists.mp ran
  exact ⟨state, reached, waiting_dumps_kept distinct roomyRun_sparing reached⟩

/-- The dump with a build ID in its module record. -/
def patchedDump : Buffer :=
  dumpOf [(156, 20, 162)] (le32 2 ++ [97, 0] ++ le32 MinidumpPatcher.kBpElSignature ++ List.replicate 16 7)

/-- The worker patches a.dmp, reports it and prunes. -/
def patchAndPrune : List Action :=
  burst ++ [.worker (.patch { calmCall with rewritten := some patchedDump, patchTime := 3 }), .worker (.report calmCall),
    .worker (.list calmCalls), .worker .removeNext]

/-- Patching a.dmp makes it the newer of the two, so that b.dmp is deleted to get
down to 182 bytes while it waits in the queue. -/
theorem waiting_dump_pruned :
    MinidumpPatcher.patchMissingBuildIds identified healthy (ascii "/db/pending/a.dmp") unpatchedDump = .ok (.ok (), patchedDump) ∧
      ∃ state, run limitedSetup (initial []) patchAndPrune = some state ∧ ¬ ∀ path ∈ state.pending, OnDisk state.world.pending path := by
  refine ⟨by decide +kernel, ?_⟩
  have ran : (run limitedSetup (initial []) patchAndPrune).map
      (fun state => (state.pending, state.world.pending.map StoredFile.path)) =
        some ([ascii "/db/pending/b.dmp"], [ascii "/db/pending/a.dmp"]) := by decide +kernel
  obtain ⟨state, reached, same⟩ := Option.map_eq_some_iff.mp ran
  obtain ⟨pending, disk⟩ := Prod.mk.inj same
  refine ⟨state, reached, fun all => ?_⟩
  have present := onDisk_iff.mp (all (ascii "/db/pending/b.dmp") (by rw [pending]; exact List.mem_cons_self))
  rw [disk] at present
  exact absurd (List.mem_singleton.mp present) (by decide +kernel)

end Crashomon.Proofs.PruneSafety
