import Crashomon.Base.DiskRemoval
import Crashomon.Proofs.SymbolPaths

/-! What goes with a symbol version. The route resolves the two names before it compares, so that
`.` stands for a whole module directory and a link for what it leads to. -/

namespace Crashomon.Proofs.SymbolDeletion
open Disk Location Web.SymbolStore Web.SymbolRoutes SymbolPaths

section Listing
variable {disk : Disk} {root cwd : Location} {storePath : Text} {entry : SymbolEntry}

theorem mem_listSymbols :
    entry ∈ listSymbols disk cwd storePath ↔
      entry.module ∈ disk.sortedNames cwd (PurePath.parse storePath) ∧
      entry.buildId ∈ disk.sortedNames cwd ((PurePath.parse storePath).child entry.module) ∧
      (∃ place, disk.find cwd (versionDir storePath entry.module entry.buildId) = .directory place) ∧
      disk.stat cwd (symFileOf storePath entry.module entry.buildId) = some (entry.sizeBytes, entry.mtime) := by
  unfold listSymbols
  simp only [List.mem_flatMap, List.mem_filterMap]
  constructor
  · rintro ⟨module, listed, buildId, version, given⟩
    cases found : disk.find cwd (((PurePath.parse storePath).child module).child buildId) with
    | directory place =>
      rw [found] at given
      obtain ⟨⟨size, mtime⟩, kept, rfl⟩ := Option.map_eq_some_iff.mp given
      exact ⟨listed, version, ⟨place, found⟩, kept⟩
    | file _ =>
      rw [found] at given
      cases given
    | dangling _ =>
      rw [found] at given
      cases given
  · rintro ⟨listed, version, ⟨place, found⟩, kept⟩
    refine ⟨entry.module, listed, entry.buildId, version, ?_⟩
    rw [versionDir] at found
    rw [found]
    exact Option.map_eq_some_iff.mpr ⟨_, kept, rfl⟩

/-- The entries that are still listed are those whose paths stay clear of what goes. -/
theorem mem_listSymbols_remove (present : root ≠ []) :
    entry ∈ listSymbols (disk.remove root) cwd storePath ↔
      entry ∈ listSymbols disk cwd storePath ∧ disk.PathClear root cwd (symFileOf storePath entry.module entry.buildId) := by
  rw [mem_listSymbols, mem_listSymbols]
  have same (clear : disk.PathClear root cwd (symFileOf storePath entry.module entry.buildId)) :=
    And.intro (find_remove_clear present clear.parent) (stat_remove_clear present clear)
  constructor
  · intro ⟨listed, version, found, kept⟩
    have clear : disk.PathClear root cwd (symFileOf storePath entry.module entry.buildId) := by
      by_contra lost
      obtain ⟨place, dangling⟩ := find_remove_lost present lost
      unfold stat at kept
      rw [dangling] at kept
      cases kept
    rw [(same clear).1] at found
    rw [(same clear).2] at kept
    exact ⟨⟨(mem_sortedNames_remove present clear.parent.parent).mp listed, (mem_sortedNames_remove present clear.parent).mp version,
      found, kept⟩, clear⟩
  · intro ⟨⟨listed, version, found, kept⟩, clear⟩
    rw [(same clear).1, (same clear).2]
    exact ⟨(mem_sortedNames_remove present clear.parent.parent).mpr listed, (mem_sortedNames_remove present clear.parent).mpr version,
      found, kept⟩

end Listing

section Route
variable {disk : Disk} {cwd store symDir : Location} {storePath module buildId : Text}

/-- The two names lead to a directory below the store. -/
structure LeadsBelow (disk : Disk) (cwd : Location) (storePath module buildId : Text) (store symDir : Location) : Prop where
  root : disk.resolve cwd (PurePath.parse storePath) = some store
  led : disk.resolve cwd (destDirOf storePath module buildId) = some symDir
  named : store ≠ []
  below : Below store symDir
  directory : disk.node symDir = some .directory

theorem symDirOf_eq_some :
    symDirOf disk cwd storePath module buildId = some symDir ↔ ∃ store, LeadsBelow disk cwd storePath module buildId store symDir := by
  constructor
  · intro given
    unfold symDirOf at given
    split at given
    next store place root led =>
      split at given
      next kept =>
        cases given
        obtain ⟨named, below⟩ :=
          (str_slash_prefix_iff (solid_resolve (solid_parse storePath) root) (solid_resolve solid_destDirOf led)).mp kept.1
        exact ⟨store, root, led, named, below, kept.2⟩
      next => cases given
    next => cases given
  · intro ⟨store, root, led, named, below, directory⟩
    have begins := (str_slash_prefix_iff (solid_resolve (solid_parse storePath) root) (solid_resolve solid_destDirOf led)).mpr
      ⟨named, below⟩
    unfold symDirOf
    rw [root, led]
    exact if_pos ⟨begins, directory⟩

/-- Two names of directories, each in the one before, lead there. -/
theorem resolve_destDirOf (root : disk.resolve cwd (PurePath.parse storePath) = some store)
    (version : disk.node (store ++ [module, buildId]) = some .directory) :
    disk.resolve cwd (destDirOf storePath module buildId) = some (store ++ [module, buildId]) := by
  have split : store ++ [module, buildId] = (store ++ [module]) ++ [buildId] := by rw [List.append_assoc, List.singleton_append]
  rw [split] at version ⊢
  obtain ⟨versionName, above⟩ := held_of_node version
  have moduleName := (held_of_node above).1
  have first := (resolve_child root moduleName.2.2.2.2).trans (resolveName_directory above)
  rw [destDirOf, join_name _ moduleName, join_name _ versionName]
  exact (resolve_child first versionName.2.2.2.2).trans (resolveName_directory version)

/-- The entries other than a version's keep clear of what goes. -/
def OthersClear (disk : Disk) (cwd : Location) (storePath module buildId : Text) (symDir : Location) : Prop :=
  ∀ entry ∈ listSymbols disk cwd storePath, (entry.module, entry.buildId) ≠ (module, buildId) →
    disk.PathClear symDir cwd (symFileOf storePath entry.module entry.buildId)

/-- At most the version goes: nothing outside the store, and no other entry. -/
structure RemovesVersion (disk after : Disk) (cwd : Location) (storePath module buildId : Text) : Prop where
  version : ∀ location, after.node location ≠ disk.node location →
    ∃ store, disk.resolve cwd (PurePath.parse storePath) = some store ∧ store ++ [module, buildId] <+: location
  inside : ∀ location, after.node location ≠ disk.node location →
    ∃ store, disk.resolve cwd (PurePath.parse storePath) = some store ∧ Below store location
  others : ∀ entry ∈ listSymbols disk cwd storePath, (entry.module, entry.buildId) ≠ (module, buildId) →
    entry ∈ listSymbols after cwd storePath ∧
      after.read cwd (symFileOf storePath entry.module entry.buildId) = disk.read cwd (symFileOf storePath entry.module entry.buildId)

theorem deleteSymbol_eq (leads : LeadsBelow disk cwd storePath module buildId store symDir) :
    deleteSymbol disk cwd storePath module buildId = disk.remove symDir := by
  rw [deleteSymbol, symDirOf_eq_some.mpr ⟨store, leads⟩]

theorem LeadsBelow.present (leads : LeadsBelow disk cwd storePath module buildId store symDir) : symDir ≠ [] := by
  rintro rfl
  exact leads.named (List.prefix_nil.mp leads.below.1)

theorem RemovesVersion.same_directory (removes : RemovesVersion disk (disk.remove symDir) cwd storePath module buildId)
    (leads : LeadsBelow disk cwd storePath module buildId store symDir) : symDir = store ++ [module, buildId] := by
  have changed : (disk.remove symDir).node symDir ≠ disk.node symDir := by
    rw [node_remove leads.present, if_pos (List.prefix_refl symDir), leads.directory]
    exact nofun
  obtain ⟨other, root, rest, within⟩ := removes.version symDir changed
  obtain rfl := Option.some.inj (leads.root.symm.trans root)
  have version : disk.node (store ++ [module, buildId]) = some .directory := by
    by_cases same : rest = []
    · rw [← leads.directory, ← within, same, List.append_nil]
    · exact directory_above same (within ▸ leads.directory)
  exact Option.some.inj (leads.led.symm.trans (resolve_destDirOf root version))

theorem removesVersion_of_clear (leads : LeadsBelow disk cwd storePath module buildId store symDir)
    (named : symDir = store ++ [module, buildId]) (clear : OthersClear disk cwd storePath module buildId symDir) :
    RemovesVersion disk (disk.remove symDir) cwd storePath module buildId := by
  have within (location : Location) (changed : (disk.remove symDir).node location ≠ disk.node location) : symDir <+: location := by
    by_contra outside
    rw [node_remove leads.present, if_neg outside] at changed
    exact changed rfl
  refine ⟨fun location changed => ⟨store, leads.root, named ▸ within location changed⟩, fun location changed => ?_, ?_⟩
  · have under := within location changed
    refine ⟨store, leads.root, leads.below.1.trans under, ?_⟩
    rintro rfl
    exact leads.below.2 (leads.below.1.eq_of_length_le under.length_le)
  · intro entry listed other
    have path := clear entry listed other
    exact ⟨(mem_listSymbols_remove leads.present).mpr ⟨listed, path⟩, read_remove_clear leads.present path⟩

end Route

/-- Deleting a symbol version removes at most that version exactly when its names, where they lead to
a directory below the store, are the names of that directory and no other entry is found by way of it. -/
theorem removes_version_iff (disk : Disk) (cwd : Location) (storePath module buildId : Text) :
    RemovesVersion disk (deleteSymbol disk cwd storePath module buildId) cwd storePath module buildId ↔
      ∀ store symDir, LeadsBelow disk cwd storePath module buildId store symDir →
        symDir = store ++ [module, buildId] ∧ OthersClear disk cwd storePath module buildId symDir := by
  constructor
  · intro removes store symDir leads
    rw [deleteSymbol_eq leads] at removes
    refine ⟨removes.same_directory leads, fun entry listed other => ?_⟩
    exact ((mem_listSymbols_remove leads.present).mp (removes.others entry listed other).1).2
  · intro safe
    cases given : symDirOf disk cwd storePath module buildId with
    | none =>
      have kept : deleteSymbol disk cwd storePath module buildId = disk := by rw [deleteSymbol, given]
      rw [kept]
      exact ⟨fun _ changed => absurd rfl changed, fun _ changed => absurd rfl changed, fun _ listed _ => ⟨listed, rfl⟩⟩
    | some symDir =>
      obtain ⟨store, leads⟩ := symDirOf_eq_some.mp given
      rw [deleteSymbol_eq leads]
      exact removesVersion_of_clear leads (safe store symDir leads).1 (safe store symDir leads).2

/-- Two versions of a module. -/
def twoVersions : Disk :=
  let blank : Disk := ⟨[], 8, fun _ => (0, 0), List.nodup_nil, List.forall_mem_nil _⟩
  let store : Location := ["store".toList]
  let module : Location := store ++ ["app".toList]
  let named := (blank.put [] "store".toList .directory).put store "app".toList .directory
  let first := (named.put module "A".toList .directory).put (module ++ ["A".toList]) "app.sym".toList (.file [1] 1)
  (first.put module "B".toList .directory).put (module ++ ["B".toList]) "app.sym".toList (.file [2] 2)

/-- The build ID `.` stands for the whole module. -/
theorem dot_removes_module :
    listSymbols twoVersions [] "/store".toList = [⟨"app".toList, "A".toList, 1, 1⟩, ⟨"app".toList, "B".toList, 1, 2⟩] ∧
      listSymbols (deleteSymbol twoVersions [] "/store".toList "app".toList ".".toList) [] "/store".toList = [] ∧
      ¬ ∀ disk cwd storePath module buildId, RemovesVersion disk (deleteSymbol disk cwd storePath module buildId) cwd storePath module
        buildId := by
  have before : listSymbols twoVersions [] "/store".toList = [⟨"app".toList, "A".toList, 1, 1⟩, ⟨"app".toList, "B".toList, 1, 2⟩] := by
    decide +kernel
  have after : listSymbols (deleteSymbol twoVersions [] "/store".toList "app".toList ".".toList) [] "/store".toList = [] := by
    decide +kernel
  refine ⟨before, after, fun all => ?_⟩
  have removes := all twoVersions [] "/store".toList "app".toList ".".toList
  have listed := (removes.others ⟨"app".toList, "A".toList, 1, 1⟩ (by rw [before]; exact List.mem_cons_self) (by decide)).1
  rw [after] at listed
  exact absurd listed List.not_mem_nil

end Crashomon.Proofs.SymbolDeletion
