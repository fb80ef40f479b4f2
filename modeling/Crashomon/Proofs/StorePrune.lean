import Crashomon.Proofs.SymbolDeletion
import Crashomon.Tools.SymsCli
import Mathlib.Data.List.DropRight

/-! What pruning leaves in the symbol store. Versions go one by one in the order of their times and
names; a symbolic link among them stops the call, and links that lead through what goes lose it. -/

namespace Crashomon.Proofs.StorePrune
open Disk Web.SymbolStore Tools.SymsCli SymbolPaths SymbolDeletion

/-- The directory of a module. -/
def moduleDir (storePath module : Text) : PurePath := (PurePath.parse storePath).child module

/-- The versions of a module in ascending order. -/
def versions (disk : Disk) (cwd : Location) (storePath module : Text) : List (Nat × Text) :=
  versionsOf disk cwd (moduleDir storePath module) module

def modules (disk : Disk) (cwd : Location) (storePath : Text) : List Text := disk.sortedNames cwd (PurePath.parse storePath)

def relative (module build : Text) : Text := module ++ '/' :: build

/-- A location in or below the directory of a version that is not among the newest. -/
def Pruned (disk : Disk) (cwd : Location) (storePath : Text) (keep : Int) (location : Location) : Prop :=
  ∃ module ∈ modules disk cwd storePath, ∃ version ∈ (versions disk cwd storePath module).rdrop keep.toNat,
    ∃ here, disk.find cwd (moduleDir storePath module) = .directory here ∧ here ++ [version.2] <+: location

/-- Both prune functions delete all but the newest versions of every module, and nothing else. -/
structure Prunes (disk : Disk) (cwd : Location) (storePath : Text) (keep : Int) (removed : List Text) (after : Disk) : Prop where
  returned : prune disk cwd storePath keep = (.ok removed, after)
  names : removed = (modules disk cwd storePath).flatMap fun module =>
    ((versions disk cwd storePath module).rdrop keep.toNat).map fun version => relative module version.2
  left : ∀ module ∈ modules disk cwd storePath,
    versions after cwd storePath module = (versions disk cwd storePath module).rtake keep.toNat
  gone : ∀ location, Pruned disk cwd storePath keep location → after.node location = none
  untouched : ∀ location, ¬ Pruned disk cwd storePath keep location → after.node location = disk.node location
  command : (cmdPrune disk cwd storePath keep).disk = after ∧
    (cmdPrune disk cwd storePath keep).output = removed.map ("  removing: ".toList ++ ·)
  again : prune after cwd storePath keep = (.ok [], after) ∧ (cmdPrune after cwd storePath keep).disk = after

/-- The versions go one after the other: each is a directory itself, not a link, and the .sym files of all
versions but those of the module that are still to go are found without coming by it. -/
def Spares (cwd : Location) (storePath module : Text) (then_ : Disk → Prop) : List Text → Disk → Prop
  | [], disk => then_ disk
  | build :: builds, disk => ∃ here, disk.find cwd (moduleDir storePath module) = .directory here ∧
      disk.node (here ++ [build]) = some .directory ∧
      (∀ entry ∈ listSymbols disk cwd storePath, ¬ (entry.module = module ∧ entry.buildId ∈ build :: builds) →
        disk.PathClear (here ++ [build]) cwd (symFileOf storePath entry.module entry.buildId)) ∧
      Spares cwd storePath module then_ builds (disk.remove (here ++ [build]))

/-- So do the old versions of all the modules. -/
def Undisturbed (cwd : Location) (storePath : Text) (keep : Int) : List Text → Disk → Prop
  | [], _ => True
  | module :: modules, disk => Spares cwd storePath module (Undisturbed cwd storePath keep modules)
      (((versions disk cwd storePath module).rdrop keep.toNat).map Prod.snd) disk

section Versions
variable {disk other : Disk} {cwd here : Location} {storePath module build : Text} {mtime : Nat}

theorem versionAt_eq_some {version : Nat × Text} :
    versionAt disk cwd (moduleDir storePath module) module build = some version ↔
      (∃ place, disk.find cwd (versionDir storePath module build) = .directory place) ∧
      (∃ size, disk.stat cwd (symFileOf storePath module build) = some (size, version.1)) ∧ build = version.2 := by
  have dir : (moduleDir storePath module).child build = versionDir storePath module build := rfl
  unfold versionAt
  dsimp only
  rw [dir]
  cases disk.find cwd (versionDir storePath module build) with
  | directory place =>
    obtain ⟨mtime, name⟩ := version
    constructor
    · intro given
      obtain ⟨⟨size, time⟩, kept, same⟩ := Option.map_eq_some_iff.mp given
      cases same
      exact ⟨⟨place, rfl⟩, ⟨size, kept⟩, rfl⟩
    · rintro ⟨_, ⟨size, kept⟩, rfl⟩
      exact Option.map_eq_some_iff.mpr ⟨(size, mtime), kept, rfl⟩
  | file _ => simp
  | dangling _ => simp

theorem mem_versions : (mtime, build) ∈ versions disk cwd storePath module ↔
    build ∈ disk.sortedNames cwd (moduleDir storePath module) ∧
      (∃ place, disk.find cwd (versionDir storePath module build) = .directory place) ∧
      ∃ size, disk.stat cwd (symFileOf storePath module build) = some (size, mtime) := by
  unfold versions versionsOf sortedNames
  cases disk.find cwd (moduleDir storePath module) with
  | directory place =>
    simp only [List.mem_insertionSort, List.mem_filterMap, versionAt_eq_some]
    constructor
    · rintro ⟨name, member, version, kept, rfl⟩
      exact ⟨member, version, kept⟩
    · intro ⟨member, version, kept⟩
      exact ⟨build, member, version, kept, rfl⟩
  | file _ => simp
  | dangling _ => simp

/-- What is found below the store's directory is a name in it. -/
theorem module_listed (proper : IsName module) (found : disk.find cwd (moduleDir storePath module) = .directory here) :
    module ∈ modules disk cwd storePath := by
  by_cases root : ∃ store, disk.find cwd (PurePath.parse storePath) = .directory store
  · obtain ⟨store, root⟩ := root
    rw [moduleDir, find_child root proper] at found
    cases there : disk.node (store ++ [module]) with
    | none =>
      rw [show disk.tree.entry store module = none from entryAt_none there] at found
      cases found
    | some node => exact mem_sortedNames.mpr ⟨store, node, root, there⟩
  · rw [moduleDir, find_child_lost (fun store root' => root ⟨store, root'⟩)] at found
    cases found

theorem mem_versions_iff (proper : IsName module) : (mtime, build) ∈ versions disk cwd storePath module ↔
    ∃ size, ⟨module, build, size, mtime⟩ ∈ listSymbols disk cwd storePath := by
  simp only [mem_versions, mem_listSymbols]
  constructor
  · intro ⟨listed, version, size, kept⟩
    obtain ⟨place, _, found, _⟩ := mem_sortedNames.mp listed
    exact ⟨size, module_listed proper found, listed, version, kept⟩
  · intro ⟨size, _, listed, version, kept⟩
    exact ⟨listed, version, size, kept⟩

theorem isName_of_mem_modules (member : module ∈ modules disk cwd storePath) : IsName module := by
  obtain ⟨place, node, _, there⟩ := mem_sortedNames.mp member
  exact (held_of_node there).1

/-- The order of `versions.sort()`. -/
abbrev Before (older newer : Nat × Text) : Prop := toLex older < toLex newer

theorem versions_pairwise (disk : Disk) (cwd : Location) (storePath module : Text) :
    (versions disk cwd storePath module).Pairwise Before := by
  unfold versions versionsOf
  extract_lets found
  have ordered := List.pairwise_insertionSort (fun older newer : Nat × Text => toLex older ≤ toLex newer) found
  have distinct : found.Nodup := by
    unfold found
    split
    next place _ =>
      refine List.Nodup.filterMap ?_ (nodup_names disk place)
      intro first second version left right
      rw [(versionAt_eq_some.mp left).2.2, (versionAt_eq_some.mp right).2.2]
    next => exact List.nodup_nil
  have both := ordered.and ((List.perm_insertionSort _ found).nodup_iff.mpr distinct)
  exact both.imp fun two => lt_of_le_of_ne two.1 two.2

theorem nodup_versions (disk : Disk) (cwd : Location) (storePath module : Text) :
    (versions disk cwd storePath module).Nodup :=
  (versions_pairwise disk cwd storePath module).imp fun before => by
    rintro rfl
    exact lt_irrefl _ before

/-- Part of the versions, in the order of all of them. -/
theorem versions_of_sublist {part : List (Nat × Text)} (sublist : part.Sublist (versions disk cwd storePath module))
    (same : ∀ version, version ∈ versions other cwd storePath module ↔ version ∈ part) :
    versions other cwd storePath module = part := by
  have equal := (List.perm_ext_iff_of_nodup (nodup_versions other cwd storePath module)
    ((nodup_versions disk cwd storePath module).sublist sublist)).mpr same
  refine equal.eq_of_pairwise ?_ (versions_pairwise other cwd storePath module)
    ((versions_pairwise disk cwd storePath module).sublist sublist)
  intro first second _ _ before after
  exact absurd before (lt_asymm after)

/-- Two disks that list the same versions of a module list them in the same order. -/
theorem versions_congr (same : ∀ version, version ∈ versions disk cwd storePath module ↔
    version ∈ versions other cwd storePath module) :
    versions disk cwd storePath module = versions other cwd storePath module :=
  versions_of_sublist (List.Sublist.refl _) same

end Versions

section Slices

theorem beyond_eq {keep : Int} (positive : 1 ≤ keep) (versions : List (Nat × Text)) :
    beyond keep versions = versions.rdrop keep.toNat := by
  rw [beyond, List.rdrop]
  congr 1
  omega

@[simp] theorem beyond_nil (keep : Int) : beyond keep [] = [] := List.take_nil

end Slices

section Deleting
variable {disk after middle : Disk} {cwd here root : Location} {storePath module build : Text} {path : PurePath}

theorem rmtree_eq_some : disk.rmtree cwd path build = some after ↔ ∃ here, disk.find cwd path = .directory here ∧
    disk.node (here ++ [build]) = some .directory ∧ after = disk.remove (here ++ [build]) := by
  unfold rmtree
  cases disk.find cwd path with
  | directory here => simp [eq_comm]
  | file _ => simp
  | dangling _ => simp

/-- What is found with less on the disk was found before. -/
theorem find_of_remove (present : root ≠ []) (found : (disk.remove root).find cwd path = .directory here) :
    disk.find cwd path = .directory here := by
  exact find_mono (fun location node left => node_of_remove present left) (nesting_remove root).symm found

/-- The entry of a version that is gone is no longer listed. -/
theorem unlisted_of_remove {entry : SymbolEntry} (found : disk.find cwd (moduleDir storePath entry.module) = .directory here)
    (listed : entry ∈ listSymbols (disk.remove (here ++ [entry.buildId])) cwd storePath) : False := by
  have present : here ++ [entry.buildId] ≠ [] := by simp
  obtain ⟨place, node, again, there⟩ := mem_sortedNames.mp (mem_listSymbols.mp listed).2.1
  have same := find_of_remove present again
  rw [← moduleDir, found] at same
  cases same
  rw [node_remove present, if_pos (List.prefix_refl _)] at there
  cases there

/-- The calls of rmtree for the versions of a module all work. -/
def Deletes (cwd : Location) (storePath module : Text) : List Text → Disk → Disk → Prop
  | [], disk, after => after = disk
  | build :: builds, disk, after => ∃ middle, disk.rmtree cwd (moduleDir storePath module) build = some middle ∧
      Deletes cwd storePath module builds middle after

theorem pruneVersions_eq {versions : List (Nat × Text)} {removed names : List Text} :
    pruneVersions cwd (moduleDir storePath module) module versions disk removed = (.ok names, after) ↔
      Deletes cwd storePath module (versions.map Prod.snd) disk after ∧
        names = removed ++ versions.map fun version => relative module version.2 := by
  induction versions generalizing disk removed with
  | nil => simp [pruneVersions, Deletes, eq_comm, and_comm]
  | cons version versions ih =>
    rw [pruneVersions, List.map_cons, Deletes]
    cases disk.rmtree cwd (moduleDir storePath module) version.2 with
    | none => simp
    | some middle => simp [ih, relative]

/-- The location is in or below one of the versions. -/
def Under (disk : Disk) (cwd : Location) (storePath : Text) (deleted : List (Text × Text)) (location : Location) : Prop :=
  ∃ version ∈ deleted, ∃ here, disk.find cwd (moduleDir storePath version.1) = .directory here ∧
    here ++ [version.2] <+: location

/-- What some deletions have done to a store. -/
structure Cut (cwd : Location) (storePath : Text) (disk after : Disk) (deleted : List (Text × Text)) : Prop where
  shrinks : ∀ path place, after.find cwd path = .directory place → disk.find cwd path = .directory place
  led : ∀ version ∈ deleted, ∃ here, disk.find cwd (moduleDir storePath version.1) = .directory here
  listed : ∀ entry, entry ∈ listSymbols after cwd storePath ↔
    entry ∈ listSymbols disk cwd storePath ∧ (entry.module, entry.buildId) ∉ deleted
  lost : ∀ location, Under disk cwd storePath deleted location → after.node location = none
  kept : ∀ location, ¬ Under disk cwd storePath deleted location → after.node location = disk.node location

theorem Cut.refl (disk : Disk) : Cut cwd storePath disk disk [] where
  shrinks _ _ found := found
  led _ member := absurd member List.not_mem_nil
  listed entry := by simp
  lost location := by simp [Under]
  kept location _ := rfl

/-- The second of two sequences of deletions finds its modules where the first did. -/
theorem under_append {first second : List (Text × Text)}
    (shrinks : ∀ path place, middle.find cwd path = .directory place → disk.find cwd path = .directory place)
    (led : ∀ version ∈ second, ∃ here, middle.find cwd (moduleDir storePath version.1) = .directory here) (location : Location) :
    Under disk cwd storePath (first ++ second) location ↔
      Under disk cwd storePath first location ∨ Under middle cwd storePath second location := by
  constructor
  · rintro ⟨version, member, here, found, within⟩
    rcases List.mem_append.mp member with earlier | later
    · exact Or.inl ⟨version, earlier, here, found, within⟩
    · obtain ⟨place, again⟩ := led version later
      have same := shrinks _ _ again
      rw [found] at same
      cases same
      exact Or.inr ⟨version, later, here, again, within⟩
  · rintro (⟨version, member, here, found, within⟩ | ⟨version, member, here, found, within⟩)
    · exact ⟨version, List.mem_append_left _ member, here, found, within⟩
    · exact ⟨version, List.mem_append_right _ member, here, shrinks _ _ found, within⟩

theorem Cut.trans {first second : List (Text × Text)} (one : Cut cwd storePath disk middle first)
    (two : Cut cwd storePath middle after second) : Cut cwd storePath disk after (first ++ second) where
  shrinks path place found := one.shrinks path place (two.shrinks path place found)
  led version member := by
    rcases List.mem_append.mp member with earlier | later
    · exact one.led version earlier
    · obtain ⟨here, found⟩ := two.led version later
      exact ⟨here, one.shrinks _ _ found⟩
  listed entry := by
    rw [two.listed, one.listed, List.mem_append, not_or, and_assoc]
  lost location within := by
    rcases (under_append one.shrinks two.led location).mp within with earlier | later
    · by_cases again : Under middle cwd storePath second location
      · exact two.lost location again
      · rw [two.kept location again]
        exact one.lost location earlier
    · exact two.lost location later
  kept location outside := by
    rw [under_append one.shrinks two.led, not_or] at outside
    rw [two.kept location outside.2, one.kept location outside.1]

/-- The first deletion of a sequence: the entries still to go do not matter yet. -/
theorem cut_cons {builds : List Text} (found : disk.find cwd (moduleDir storePath module) = .directory here)
    (clear : ∀ entry ∈ listSymbols disk cwd storePath, ¬ (entry.module = module ∧ entry.buildId ∈ build :: builds) →
      disk.PathClear (here ++ [build]) cwd (symFileOf storePath entry.module entry.buildId))
    (rest : Cut cwd storePath (disk.remove (here ++ [build])) after (builds.map (module, ·))) :
    Cut cwd storePath disk after ((build :: builds).map (module, ·)) := by
  have present : here ++ [build] ≠ [] := by simp
  have shrinks : ∀ path place, (disk.remove (here ++ [build])).find cwd path = .directory place →
      disk.find cwd path = .directory place := fun _ _ again => find_of_remove present again
  have single : ∀ location, Under disk cwd storePath [(module, build)] location ↔ here ++ [build] <+: location := by
    intro location
    simp [Under, found]
  have split : (build :: builds).map (module, ·) = [(module, build)] ++ builds.map (module, ·) := rfl
  refine ⟨fun path place again => shrinks path place (rest.shrinks path place again), ?led, ?listed, ?lost, ?kept⟩
  case led =>
    intro version member
    obtain ⟨name, _, rfl⟩ := List.mem_map.mp member
    exact ⟨here, found⟩
  case listed =>
    intro entry
    rw [rest.listed, mem_listSymbols_remove present]
    have mine : (entry.module, entry.buildId) ∈ (build :: builds).map (module, ·) ↔
        entry.module = module ∧ entry.buildId ∈ build :: builds := by
      simp only [List.mem_map, Prod.mk.injEq]
      exact ⟨fun ⟨name, member, same, named⟩ => ⟨same.symm, named ▸ member⟩, fun ⟨same, member⟩ => ⟨_, member, same.symm, rfl⟩⟩
    constructor
    · rintro ⟨⟨listed, path⟩, later⟩
      refine ⟨listed, fun member => ?_⟩
      rw [split, List.mem_append, List.mem_singleton] at member
      rcases member with own | later'
      · obtain ⟨rfl, rfl⟩ := Prod.mk.inj own
        exact unlisted_of_remove found ((mem_listSymbols_remove present).mpr ⟨listed, path⟩)
      · exact later later'
    · rintro ⟨listed, other⟩
      refine ⟨⟨listed, clear entry listed (fun own => other (mine.mpr own))⟩, fun later => other ?_⟩
      rw [split]
      exact List.mem_append_right _ later
  case lost =>
    intro location within
    rw [split, under_append shrinks rest.led, single] at within
    by_cases again : Under (disk.remove (here ++ [build])) cwd storePath (builds.map (module, ·)) location
    · exact rest.lost location again
    · rw [rest.kept location again, node_remove present, if_pos (within.resolve_right again)]
  case kept =>
    intro location outside
    rw [split, under_append shrinks rest.led, single, not_or] at outside
    rw [rest.kept location outside.2, node_remove present, if_neg outside.1]

theorem spares_cut {then_ : Disk → Prop} {builds : List Text} (spares : Spares cwd storePath module then_ builds disk) :
    ∃ after, Deletes cwd storePath module builds disk after ∧ then_ after ∧
      Cut cwd storePath disk after (builds.map (module, ·)) := by
  induction builds generalizing disk with
  | nil => exact ⟨disk, rfl, spares, Cut.refl disk⟩
  | cons build builds ih =>
    obtain ⟨here, found, directory, clear, rest⟩ := spares
    obtain ⟨after, deletes, holds, cut⟩ := ih rest
    exact ⟨after, ⟨_, rmtree_eq_some.mpr ⟨here, found, directory, rfl⟩, deletes⟩, holds, cut_cons found clear cut⟩

end Deleting

section Modules
variable {disk after middle : Disk} {cwd : Location} {storePath module : Text} {keep : Int} {rest removed : List Text}

theorem versions_empty (lost : ∀ here, disk.find cwd (moduleDir storePath module) ≠ .directory here) :
    versions disk cwd storePath module = [] := by
  rw [List.eq_nil_iff_forall_not_mem]
  rintro ⟨mtime, build⟩ member
  obtain ⟨here, _, found, _⟩ := mem_sortedNames.mp (mem_versions.mp member).1
  exact lost here found

/-- A module without a directory has no versions to delete. -/
theorem pruneModules_cons (disk : Disk) (cwd : Location) (storePath module : Text) (keep : Int) (rest removed : List Text) :
    pruneModules cwd (.parse storePath) keep (module :: rest) disk removed =
      match pruneVersions cwd (moduleDir storePath module) module (beyond keep (versions disk cwd storePath module)) disk removed with
      | (.ok names, middle) => pruneModules cwd (.parse storePath) keep rest middle names
      | failed => failed := by
  rw [pruneModules]
  by_cases led : ∃ here, disk.find cwd (moduleDir storePath module) = .directory here
  · obtain ⟨here, found⟩ := led
    rw [moduleDir] at found
    rw [versions, moduleDir]
    rcases pruneVersions cwd ((PurePath.parse storePath).child module) module
      (beyond keep (versionsOf disk cwd ((PurePath.parse storePath).child module) module)) disk removed with ⟨_ | _, middle⟩ <;>
      simp only [found]
  · have nothing : versions disk cwd storePath module = [] := versions_empty fun here found => led ⟨here, found⟩
    rw [nothing, beyond_nil, pruneVersions]
    split
    next here found => exact absurd ⟨here, found⟩ led
    next => rfl

theorem pruneModules_ok {names : List Text}
    (ran : pruneVersions cwd (moduleDir storePath module) module (beyond keep (versions disk cwd storePath module)) disk removed =
      (.ok names, middle)) :
    pruneModules cwd (.parse storePath) keep (module :: rest) disk removed =
      pruneModules cwd (.parse storePath) keep rest middle names := by
  rw [pruneModules_cons, ran]

theorem pruneModules_error {error : PruneError}
    (ran : pruneVersions cwd (moduleDir storePath module) module (beyond keep (versions disk cwd storePath module)) disk removed =
      (.error error, after)) :
    pruneModules cwd (.parse storePath) keep (module :: rest) disk removed = (.error error, after) := by
  rw [pruneModules_cons, ran]

/-- The versions that prune deletes, in its order. -/
def oldVersions (disk : Disk) (cwd : Location) (storePath : Text) (keep : Int) (names : List Text) : List (Text × Text) :=
  names.flatMap fun module => ((versions disk cwd storePath module).rdrop keep.toNat).map fun version => (module, version.2)

theorem mem_oldVersions {build : Text} : (module, build) ∈ oldVersions disk cwd storePath keep rest ↔
    module ∈ rest ∧ build ∈ ((versions disk cwd storePath module).rdrop keep.toNat).map Prod.snd := by
  simp only [oldVersions, List.mem_flatMap, List.mem_map, Prod.mk.injEq]
  constructor
  · rintro ⟨name, member, version, old, rfl, rfl⟩
    exact ⟨member, version, old, rfl⟩
  · rintro ⟨member, version, old, rfl⟩
    exact ⟨module, member, version, old, rfl, rfl⟩

theorem mem_versions_cut {deleted : List (Text × Text)} (cut : Cut cwd storePath disk after deleted) (proper : IsName module)
    {version : Nat × Text} : version ∈ versions after cwd storePath module ↔
      version ∈ versions disk cwd storePath module ∧ (module, version.2) ∉ deleted := by
  obtain ⟨mtime, build⟩ := version
  simp only [mem_versions_iff proper, cut.listed, exists_and_right]

theorem versions_kept {deleted : List (Text × Text)} (cut : Cut cwd storePath disk after deleted) (proper : IsName module)
    (other : ∀ build, (module, build) ∉ deleted) : versions after cwd storePath module = versions disk cwd storePath module := by
  apply versions_congr
  intro version
  rw [mem_versions_cut cut proper]
  exact and_iff_left (other version.2)

/-- A version has one time. -/
theorem version_unique {first second : Nat × Text} (one : first ∈ versions disk cwd storePath module)
    (other : second ∈ versions disk cwd storePath module) (same : first.2 = second.2) : first = second := by
  obtain ⟨mtime, build⟩ := first
  obtain ⟨time, name⟩ := second
  simp only at same
  subst same
  obtain ⟨_, stat⟩ := (mem_versions.mp one).2.2
  obtain ⟨_, again⟩ := (mem_versions.mp other).2.2
  rw [stat] at again
  cases again
  rfl

theorem versions_left (proper : IsName module)
    {deleted : List (Text × Text)} (cut : Cut cwd storePath disk after deleted)
    (old : ∀ build, (module, build) ∈ deleted ↔ build ∈ ((versions disk cwd storePath module).rdrop keep.toNat).map Prod.snd) :
    versions after cwd storePath module = (versions disk cwd storePath module).rtake keep.toNat := by
  have split : (versions disk cwd storePath module).rdrop keep.toNat ++ (versions disk cwd storePath module).rtake keep.toNat =
      versions disk cwd storePath module := List.take_append_drop _ _
  have apart := List.disjoint_of_nodup_append (split ▸ nodup_versions disk cwd storePath module)
  refine versions_of_sublist (List.drop_sublist _ _) ?_
  intro version
  rw [mem_versions_cut cut proper, old]
  constructor
  · rintro ⟨member, young⟩
    have either := member
    rw [← split, List.mem_append] at either
    exact either.resolve_left fun aged => young (List.mem_map_of_mem aged)
  · intro young
    have member : version ∈ versions disk cwd storePath module := List.mem_of_mem_drop young
    refine ⟨member, fun aged => ?_⟩
    obtain ⟨other, dropped, same⟩ := List.mem_map.mp aged
    rw [version_unique (List.mem_of_mem_take dropped) member same] at dropped
    exact apart dropped young

/-- Undisturbed deletions go through and take just the old versions of the modules. -/
theorem undisturbed_cut (positive : 1 ≤ keep) (proper : ∀ name ∈ rest, IsName name) (distinct : rest.Nodup)
    (calm : Undisturbed cwd storePath keep rest disk) :
    ∃ after, pruneModules cwd (.parse storePath) keep rest disk removed =
        (.ok (removed ++ (oldVersions disk cwd storePath keep rest).map fun version => relative version.1 version.2), after) ∧
      Cut cwd storePath disk after (oldVersions disk cwd storePath keep rest) := by
  induction rest generalizing disk removed with
  | nil => exact ⟨disk, by simp [pruneModules, oldVersions], Cut.refl disk⟩
  | cons module rest ih =>
    obtain ⟨middle, deletes, later, cut⟩ := spares_cut calm
    obtain ⟨fresh, distinct⟩ := List.nodup_cons.mp distinct
    obtain ⟨own, proper⟩ := List.forall_mem_cons.mp proper
    have ran : pruneVersions cwd (moduleDir storePath module) module (beyond keep (versions disk cwd storePath module)) disk removed =
        (.ok (removed ++ ((versions disk cwd storePath module).rdrop keep.toNat).map fun version => relative module version.2),
          middle) := by
      rw [beyond_eq positive]
      exact pruneVersions_eq.mpr ⟨deletes, rfl⟩
    obtain ⟨after, pruned, cutLater⟩ := ih proper distinct later
    have same : oldVersions middle cwd storePath keep rest = oldVersions disk cwd storePath keep rest := by
      refine List.flatMap_congr fun name member => ?_
      rw [versions_kept cut (proper name member)]
      intro build gone
      obtain ⟨_, _, same⟩ := List.mem_map.mp gone
      exact fresh ((Prod.mk.inj same).1 ▸ member)
    have whole : oldVersions disk cwd storePath keep (module :: rest) =
        (((versions disk cwd storePath module).rdrop keep.toNat).map Prod.snd).map (module, ·) ++
          oldVersions disk cwd storePath keep rest := by
      rw [oldVersions, List.flatMap_cons, List.map_map]
      rfl
    refine ⟨after, ?_, ?_⟩
    · rw [pruneModules_ok ran, pruned, same, whole, List.map_append, List.map_map, List.map_map, List.append_assoc]
      rfl
    · rw [whole]
      exact cut.trans (same ▸ cutLater)

end Modules

section Commands
variable {disk : Disk} {cwd : Location} {storePath module : Text} {keep : Int} {removed output : List Text}

/-- The command has done what the function does, with a line for each name. -/
structure Agrees (removed output : List Text) (pruned : Except PruneError (List Text) × Disk) (command : Command) : Prop where
  disk : command.disk = pruned.2
  ended : ∀ names, pruned.1 = .ok names → command.exitCode = some 0 ∧
    ∃ new, names = removed ++ new ∧ command.output = output ++ new.map ("  removing: ".toList ++ ·)
  raised : ∀ error, pruned.1 = .error error → command.exitCode = none

theorem agrees_ended (disk : Disk) : Agrees removed output (.ok removed, disk) ⟨some 0, output, disk⟩ where
  disk := rfl
  ended names returned := by
    rw [Except.ok.injEq] at returned
    exact ⟨rfl, [], by simp [returned], by simp⟩
  raised error returned := by simp at returned

theorem agrees_raised (disk : Disk) (error : PruneError) (lines : List Text) :
    Agrees removed output (.error error, disk) ⟨none, lines, disk⟩ where
  disk := rfl
  ended names returned := by simp at returned
  raised _ _ := rfl

/-- What has been deleted and printed before comes first. -/
theorem Agrees.after {new : List Text} {pruned : Except PruneError (List Text) × Disk} {command : Command}
    (agrees : Agrees (removed ++ new) (output ++ new.map ("  removing: ".toList ++ ·)) pruned command) :
    Agrees removed output pruned command where
  disk := agrees.disk
  ended names returned := by
    obtain ⟨exit, more, grown, printed⟩ := agrees.ended names returned
    exact ⟨exit, new ++ more, by rw [grown, List.append_assoc], by rw [printed, List.map_append, List.append_assoc]⟩
  raised := agrees.raised

theorem removeVersions_agrees (versions : List (Nat × Text)) :
    Agrees removed output (pruneVersions cwd (moduleDir storePath module) module versions disk removed)
      (removeVersions cwd (moduleDir storePath module) module versions disk output) := by
  induction versions generalizing disk removed output with
  | nil => exact agrees_ended disk
  | cons version versions ih =>
    rw [pruneVersions, removeVersions]
    cases disk.rmtree cwd (moduleDir storePath module) version.2 with
    | none => exact agrees_raised disk _ _
    | some middle => exact Agrees.after ih

theorem pruneModuleDirs_agrees (names : List Text) :
    Agrees removed output (pruneModules cwd (.parse storePath) keep names disk removed)
      (pruneModuleDirs cwd (.parse storePath) keep names disk output) := by
  induction names generalizing disk removed output with
  | nil => exact agrees_ended disk
  | cons module names ih =>
    rw [pruneModules, pruneModuleDirs]
    cases disk.find cwd ((PurePath.parse storePath).child module) with
    | directory here =>
      dsimp only
      have agrees := @removeVersions_agrees disk cwd storePath module removed output
        (beyond keep (versions disk cwd storePath module))
      rw [versions, beyond, moduleDir] at agrees
      rw [beyond]
      generalize pruneVersions cwd _ _ _ disk removed = outcome at agrees ⊢
      generalize removeVersions cwd _ _ _ disk output = done at agrees ⊢
      obtain ⟨returned, middle⟩ := outcome
      obtain ⟨exitCode, lines, place⟩ := done
      have same : place = middle := agrees.disk
      subst same
      cases returned with
      | error error =>
        have exit : exitCode = none := agrees.raised error rfl
        subst exit
        rw [if_neg (by simp)]
        exact agrees_raised place error lines
      | ok grown =>
        obtain ⟨exit, new, rfl, printed⟩ := agrees.ended grown rfl
        rw [if_pos exit]
        simp only at printed
        subst printed
        exact Agrees.after ih
    | file _ => exact ih
    | dangling _ => exact ih

theorem prune_eq (positive : 1 ≤ keep) :
    prune disk cwd storePath keep = pruneModules cwd (.parse storePath) keep (modules disk cwd storePath) disk [] := by
  unfold prune modules sortedNames
  rw [if_neg (by omega)]
  dsimp only
  cases disk.find cwd (.parse storePath) <;> rfl

theorem cmdPrune_eq (positive : 1 ≤ keep) :
    (cmdPrune disk cwd storePath keep).disk =
        (pruneModuleDirs cwd (.parse storePath) keep (modules disk cwd storePath) disk []).disk ∧
      (cmdPrune disk cwd storePath keep).output =
        (pruneModuleDirs cwd (.parse storePath) keep (modules disk cwd storePath) disk []).output := by
  unfold cmdPrune modules sortedNames
  dsimp only
  cases disk.find cwd (.parse storePath) with
  | directory place =>
    dsimp only
    rw [if_neg (by omega)]
    exact ⟨rfl, rfl⟩
  | file _ => exact ⟨rfl, rfl⟩
  | dangling _ => exact ⟨rfl, rfl⟩

/-- The two copies leave the same disk, whether they end or raise. -/
theorem copies_agree (positive : 1 ≤ keep) :
    (cmdPrune disk cwd storePath keep).disk = (prune disk cwd storePath keep).2 := by
  rw [(cmdPrune_eq positive).1, prune_eq positive]
  exact (pruneModuleDirs_agrees _).disk

theorem copies_print (positive : 1 ≤ keep) {names : List Text} {after : Disk}
    (returned : prune disk cwd storePath keep = (.ok names, after)) :
    (cmdPrune disk cwd storePath keep).output = names.map ("  removing: ".toList ++ ·) := by
  rw [prune_eq positive] at returned
  obtain ⟨_, new, same, printed⟩ := (pruneModuleDirs_agrees (modules disk cwd storePath)).ended names (by rw [returned])
  rw [(cmdPrune_eq positive).2, printed, same]
  rfl

end Commands

section Necessity
variable {disk after middle : Disk} {cwd : Location} {storePath module : Text} {keep : Int} {rest removed names : List Text}

theorem relative_inj {first second build name : Text} (proper : IsName first) (other : IsName second)
    (same : relative first build = relative second name) : first = second ∧ build = name :=
  split_at_first proper.2.2.2.1 other.2.2.2.1 same

theorem entry_unique {first second : SymbolEntry} (one : first ∈ listSymbols disk cwd storePath)
    (other : second ∈ listSymbols disk cwd storePath) (modules : first.module = second.module)
    (builds : first.buildId = second.buildId) : first = second := by
  have left := (mem_listSymbols.mp one).2.2.2
  have right := (mem_listSymbols.mp other).2.2.2
  rw [modules, builds, right] at left
  obtain ⟨module, build, size, mtime⟩ := first
  obtain ⟨_, _, _, _⟩ := second
  simp_all

theorem isName_of_listed {entry : SymbolEntry} (listed : entry ∈ listSymbols disk cwd storePath) : IsName entry.module :=
  isName_of_mem_modules (mem_listSymbols.mp listed).1

theorem listed_of_deletes {builds : List Text} (deletes : Deletes cwd storePath module builds disk after) {entry : SymbolEntry}
    (listed : entry ∈ listSymbols after cwd storePath) : entry ∈ listSymbols disk cwd storePath := by
  induction builds generalizing disk with
  | nil => exact deletes ▸ listed
  | cons build builds ih =>
    obtain ⟨middle, removed, later⟩ := deletes
    obtain ⟨here, _, _, rfl⟩ := rmtree_eq_some.mp removed
    exact ((mem_listSymbols_remove (by simp)).mp (ih later)).1

theorem unlisted_of_deletes {builds : List Text} (deletes : Deletes cwd storePath module builds disk after) {entry : SymbolEntry}
    (own : entry.module = module) (member : entry.buildId ∈ builds) : entry ∉ listSymbols after cwd storePath := by
  induction builds generalizing disk with
  | nil => exact absurd member List.not_mem_nil
  | cons build builds ih =>
    obtain ⟨middle, removed, later⟩ := deletes
    obtain ⟨here, found, _, rfl⟩ := rmtree_eq_some.mp removed
    rcases List.mem_cons.mp member with same | inside
    · intro listed
      subst own
      subst same
      exact unlisted_of_remove found (listed_of_deletes later listed)
    · exact ih later inside

/-- Deletions after which just the deleted entries are missing spare the others. -/
theorem spares_of_deletes {then_ : Disk → Prop} {builds : List Text} (deletes : Deletes cwd storePath module builds disk after)
    (holds : then_ after) (accounted : ∀ entry ∈ listSymbols disk cwd storePath, entry ∉ listSymbols after cwd storePath →
      entry.module = module ∧ entry.buildId ∈ builds) : Spares cwd storePath module then_ builds disk := by
  induction builds generalizing disk with
  | nil => exact deletes ▸ holds
  | cons build builds ih =>
    obtain ⟨middle, removed, later⟩ := deletes
    obtain ⟨here, found, directory, rfl⟩ := rmtree_eq_some.mp removed
    have present : here ++ [build] ≠ [] := by simp
    refine ⟨here, found, directory, ?_, ih later ?_⟩
    · intro entry listed other
      by_contra lost
      refine other (accounted entry listed fun still => lost ?_)
      exact ((mem_listSymbols_remove present).mp (listed_of_deletes later still)).2
    · intro entry listed missing
      obtain ⟨own, member⟩ := accounted entry ((mem_listSymbols_remove present).mp listed).1 missing
      refine ⟨own, (List.mem_cons.mp member).resolve_left fun same => ?_⟩
      subst own
      subst same
      exact unlisted_of_remove found listed

theorem pruneModules_cases (positive : 1 ≤ keep)
    (ran : pruneModules cwd (.parse storePath) keep (module :: rest) disk removed = (.ok names, after)) :
    ∃ middle, Deletes cwd storePath module (((versions disk cwd storePath module).rdrop keep.toNat).map Prod.snd) disk middle ∧
      pruneModules cwd (.parse storePath) keep rest middle
        (removed ++ ((versions disk cwd storePath module).rdrop keep.toNat).map fun version => relative module version.2) =
          (.ok names, after) := by
  cases inner : pruneVersions cwd (moduleDir storePath module) module (beyond keep (versions disk cwd storePath module)) disk removed with
  | mk returned middle =>
    cases returned with
    | error error =>
      rw [pruneModules_error inner] at ran
      cases ran
    | ok grown =>
      rw [pruneModules_ok inner] at ran
      rw [beyond_eq positive] at inner
      obtain ⟨deletes, rfl⟩ := pruneVersions_eq.mp inner
      exact ⟨middle, deletes, ran⟩

/-- A version that is deleted was listed. -/
theorem listed_of_old (proper : IsName module) {build : Text}
    (old : build ∈ ((versions disk cwd storePath module).rdrop keep.toNat).map Prod.snd) :
    ∃ entry ∈ listSymbols disk cwd storePath, entry.module = module ∧ entry.buildId = build := by
  obtain ⟨⟨mtime, name⟩, member, rfl⟩ := List.mem_map.mp old
  obtain ⟨size, listed⟩ := (mem_versions_iff proper).mp (List.mem_of_mem_take member)
  exact ⟨_, listed, rfl, rfl⟩

theorem listed_of_pruned (positive : 1 ≤ keep) (proper : ∀ name ∈ rest, IsName name)
    (ran : pruneModules cwd (.parse storePath) keep rest disk removed = (.ok names, after)) :
    (∀ entry ∈ listSymbols after cwd storePath, entry ∈ listSymbols disk cwd storePath) ∧
      ∃ new, names = removed ++ new ∧
        ∀ name ∈ new, ∃ entry ∈ listSymbols disk cwd storePath, name = relative entry.module entry.buildId := by
  induction rest generalizing disk removed with
  | nil =>
    rw [pruneModules] at ran
    cases ran
    exact ⟨fun _ listed => listed, [], by simp, by simp⟩
  | cons module rest ih =>
    obtain ⟨own, proper⟩ := List.forall_mem_cons.mp proper
    obtain ⟨middle, deletes, later⟩ := pruneModules_cases positive ran
    obtain ⟨kept, new, grown, each⟩ := ih proper later
    refine ⟨fun entry listed => listed_of_deletes deletes (kept entry listed), _, by rw [grown, List.append_assoc], ?_⟩
    intro name member
    rcases List.mem_append.mp member with first | second
    · obtain ⟨version, old, rfl⟩ := List.mem_map.mp first
      obtain ⟨entry, listed, module, build⟩ := listed_of_old own (List.mem_map_of_mem old)
      exact ⟨entry, listed, by rw [module, build]⟩
    · obtain ⟨entry, listed, same⟩ := each name second
      exact ⟨entry, listed_of_deletes deletes listed, same⟩

/-- Where the names that are returned account for every entry that is missing, nothing was disturbed. -/
theorem undisturbed_of_pruned (positive : 1 ≤ keep) (proper : ∀ name ∈ rest, IsName name) {new : List Text}
    (ran : pruneModules cwd (.parse storePath) keep rest disk removed = (.ok (removed ++ new), after))
    (accounted : ∀ entry ∈ listSymbols disk cwd storePath, entry ∉ listSymbols after cwd storePath →
      relative entry.module entry.buildId ∈ new) : Undisturbed cwd storePath keep rest disk := by
  induction rest generalizing disk removed new with
  | nil => trivial
  | cons module rest ih =>
    obtain ⟨own, proper⟩ := List.forall_mem_cons.mp proper
    obtain ⟨middle, deletes, later⟩ := pruneModules_cases positive ran
    obtain ⟨kept, others, grown, each⟩ := listed_of_pruned positive proper later
    rw [List.append_assoc, List.append_cancel_left_eq] at grown
    subst grown
    rw [← List.append_assoc] at later
    have mine {entry : SymbolEntry} (listed : entry ∈ listSymbols disk cwd storePath)
        (first : relative entry.module entry.buildId ∈ ((versions disk cwd storePath module).rdrop keep.toNat).map fun version =>
          relative module version.2) :
        entry.module = module ∧ entry.buildId ∈ ((versions disk cwd storePath module).rdrop keep.toNat).map Prod.snd := by
      obtain ⟨version, old, same⟩ := List.mem_map.mp first
      obtain ⟨modules, builds⟩ := relative_inj own (isName_of_listed listed) same
      exact ⟨modules.symm, builds ▸ List.mem_map_of_mem old⟩
    refine spares_of_deletes deletes (ih proper later ?_) ?_
    · intro entry listed missing
      have before := listed_of_deletes deletes listed
      refine (List.mem_append.mp (accounted entry before missing)).resolve_left fun first => ?_
      obtain ⟨module, build⟩ := mine before first
      exact unlisted_of_deletes deletes module build listed
    · intro entry listed missing
      rcases List.mem_append.mp (accounted entry listed fun still => missing (kept entry still)) with first | second
      · exact mine listed first
      · obtain ⟨other, there, same⟩ := each _ second
        have before := listed_of_deletes deletes there
        obtain ⟨modules, builds⟩ := relative_inj (isName_of_listed listed) (isName_of_listed before) same
        rw [entry_unique listed before modules builds] at missing
        exact absurd there missing

end Necessity

section Result
variable {disk after : Disk} {cwd : Location} {storePath : Text} {keep : Int} {names : List Text}

/-- Modules with nothing to delete are left alone. -/
theorem pruneModules_still {rest removed : List Text}
    (few : ∀ module ∈ rest, beyond keep (versions disk cwd storePath module) = []) :
    pruneModules cwd (.parse storePath) keep rest disk removed = (.ok removed, disk) := by
  induction rest with
  | nil => rfl
  | cons module rest ih =>
    obtain ⟨own, few⟩ := List.forall_mem_cons.mp few
    have still : pruneVersions cwd (moduleDir storePath module) module (beyond keep (versions disk cwd storePath module)) disk removed =
        (.ok removed, disk) := by rw [own, pruneVersions]
    rw [pruneModules_ok still]
    exact ih few

theorem modules_shrink {deleted : List (Text × Text)} (cut : Cut cwd storePath disk after deleted) {module : Text}
    (member : module ∈ modules after cwd storePath) : module ∈ modules disk cwd storePath := by
  obtain ⟨place, node, found, there⟩ := mem_sortedNames.mp member
  refine mem_sortedNames.mpr ⟨place, node, cut.shrinks _ _ found, ?_⟩
  by_cases within : Under disk cwd storePath deleted (place ++ [module])
  · rw [cut.lost _ within] at there
    cases there
  · rw [← cut.kept _ within, there]

theorem pruned_iff_under (location : Location) : Pruned disk cwd storePath keep location ↔
    Under disk cwd storePath (oldVersions disk cwd storePath keep (modules disk cwd storePath)) location := by
  constructor
  · intro ⟨module, member, version, old, here, found, within⟩
    exact ⟨(module, version.2), mem_oldVersions.mpr ⟨member, List.mem_map_of_mem old⟩, here, found, within⟩
  · intro ⟨(module, build), member, here, found, within⟩
    obtain ⟨listed, old⟩ := mem_oldVersions.mp member
    obtain ⟨version, aged, rfl⟩ := List.mem_map.mp old
    exact ⟨module, listed, version, aged, here, found, within⟩

/-- Pruning leaves the newest versions, deletes the others and nothing else, and has nothing left to do
afterwards, exactly where its deletions are undisturbed. -/
theorem prunes_iff_undisturbed (positive : 1 ≤ keep) : (∃ removed after, Prunes disk cwd storePath keep removed after) ↔
    Undisturbed cwd storePath keep (modules disk cwd storePath) disk := by
  have proper : ∀ name ∈ modules disk cwd storePath, IsName name := fun _ member => isName_of_mem_modules member
  constructor
  · intro ⟨removed, after, prunes⟩
    have ran := prunes.returned
    rw [prune_eq positive, ← List.nil_append removed] at ran
    refine undisturbed_of_pruned positive proper ran ?_
    intro entry listed missing
    have module := (mem_listSymbols.mp listed).1
    have version := (mem_versions_iff (proper _ module)).mpr ⟨entry.sizeBytes, listed⟩
    rw [← List.take_append_drop ((versions disk cwd storePath entry.module).length - keep.toNat)
      (versions disk cwd storePath entry.module), List.mem_append] at version
    rcases version with old | young
    · rw [prunes.names]
      exact List.mem_flatMap.mpr ⟨entry.module, module, List.mem_map.mpr ⟨_, old, rfl⟩⟩
    · have left := prunes.left entry.module module
      rw [List.rtake] at left
      rw [← left] at young
      obtain ⟨size, still⟩ := (mem_versions_iff (proper _ module)).mp young
      have before := (listed_of_pruned positive proper ran).1 _ still
      rw [entry_unique listed before rfl rfl] at missing
      exact absurd still missing
  · intro calm
    have distinct : (modules disk cwd storePath).Nodup := (sortedNames_pairwise disk cwd _).imp fun before => ne_of_lt before
    obtain ⟨after, ran, cut⟩ := undisturbed_cut positive proper distinct calm
    rw [← prune_eq positive, List.nil_append] at ran
    have left : ∀ module ∈ modules disk cwd storePath,
        versions after cwd storePath module = (versions disk cwd storePath module).rtake keep.toNat := by
      intro module member
      refine versions_left (proper module member) cut fun build => ?_
      rw [mem_oldVersions]
      exact and_iff_right member
    have still : prune after cwd storePath keep = (.ok [], after) := by
      rw [prune_eq positive]
      refine pruneModules_still fun module member => ?_
      rw [beyond_eq positive, left module (modules_shrink cut member), List.rtake, List.rdrop, List.length_drop]
      exact List.take_eq_nil_iff.mpr (Or.inl (by omega))
    refine ⟨_, after, ran, ?_, left, ?_, ?_, ⟨?_, copies_print positive ran⟩, still, ?_⟩
    · rw [oldVersions, List.map_flatMap]
      simp only [List.map_map]
      rfl
    · intro location within
      exact cut.lost location ((pruned_iff_under location).mp within)
    · intro location outside
      exact cut.kept location fun within => outside ((pruned_iff_under location).mpr within)
    · rw [copies_agree positive, ran]
    · rw [copies_agree positive, still]

end Result

section Plain
variable {disk : Disk} {cwd store : Location} {storePath : Text} {keep : Int} {rest : List Text}

/-- A store without symbolic links, on a way that does not lead through it. -/
structure Plain (disk : Disk) (cwd : Location) (storePath : Text) (store : Location) : Prop where
  found : disk.find cwd (PurePath.parse storePath) = .directory store
  way : ∀ root, Location.Below store root → disk.PathClear root cwd (PurePath.parse storePath)
  unlinked : ∀ below text, disk.node (store ++ below) ≠ some (.link text)

/-- Inside the store a path leads where its names say. -/
theorem Plain.walk_child (plain : Plain disk cwd storePath store) (path : PurePath) {below here : Location} {name : Text}
    (walked : disk.tree.walk (path.startFrom cwd) path.tail = .ok (store ++ below)) (proper : IsName name)
    (more : disk.tree.walk (path.startFrom cwd) (path.child name).tail = .ok here) : here = store ++ below ++ [name] := by
  have entered : disk.entryAt disk.nesting (store ++ below) name = some (.directory here) := by
    rw [PurePath.child, FileTree.walk_snoc walked] at more
    exact (FileTree.walk_single proper.2.2.1).mp more
  rcases of_entryAt entered with ⟨_, same⟩ | ⟨_, impossible⟩ | ⟨text, linked, _⟩
  · exact Entry.directory.inj same
  · cases impossible
  · rw [List.append_assoc] at linked
    exact absurd linked (plain.unlinked _ text)

theorem Plain.clear_name (plain : Plain disk cwd storePath store) {root below : Location} {name : Text}
    (outside : ¬ root <+: below ++ [name]) : disk.Clear (store ++ root) disk.nesting (store ++ below) name := by
  refine clear_of_no_link ?_ ?_
  · rw [List.append_assoc, List.prefix_append_right_inj]
    exact outside
  · intro text
    rw [List.append_assoc]
    exact plain.unlinked _ text

/-- The .sym file of one version is not found by way of another. -/
theorem Plain.clear (plain : Plain disk cwd storePath store) {module build other name : Text} (proper : IsName other)
    (named : IsName name) (apart : ¬ (other = module ∧ name = build)) :
    disk.PathClear (store ++ [module, build]) cwd (symFileOf storePath other name) := by
  have root := (walk_of_find plain.found).2
  have inside : Location.Below store (store ++ [module, build]) := ⟨List.prefix_append _ _, by simp⟩
  refine PathClear.child (PathClear.child (PathClear.child (plain.way _ inside) ?module) ?version) ?file
  case module =>
    intro here walked
    rw [root] at walked
    cases walked
    have outside : ¬ [module, build] <+: [] ++ [other] := fun within => absurd within.length_le (by simp)
    have clear := plain.clear_name outside
    rwa [List.append_nil] at clear
  case version =>
    intro here walked
    have start : disk.tree.walk ((PurePath.parse storePath).startFrom cwd) (PurePath.parse storePath).tail = .ok (store ++ []) := by
      rw [List.append_nil, root]
    rw [plain.walk_child _ start proper walked, List.append_nil]
    apply plain.clear_name
    rintro ⟨more, same⟩
    simp only [List.cons_append, List.nil_append, List.cons.injEq] at same
    exact apart ⟨same.1.symm, same.2.1.symm⟩
  case file =>
    intro here walked
    have start : disk.tree.walk ((PurePath.parse storePath).startFrom cwd) (PurePath.parse storePath).tail = .ok (store ++ []) := by
      rw [List.append_nil, root]
    obtain ⟨middle, first, second⟩ := FileTree.walk_of_snoc walked
    have module := plain.walk_child _ start proper first
    rw [List.append_nil] at module
    subst module
    rw [plain.walk_child ((PurePath.parse storePath).child other) first named walked, List.append_assoc]
    apply plain.clear_name
    rintro ⟨more, same⟩
    simp only [List.cons_append, List.nil_append, List.cons.injEq] at same
    exact apart ⟨same.1.symm, same.2.1.symm⟩

theorem Plain.remove (plain : Plain disk cwd storePath store) (module build : Text) :
    Plain (disk.remove (store ++ [module, build])) cwd storePath store := by
  have present : store ++ [module, build] ≠ [] := by simp
  have inside : Location.Below store (store ++ [module, build]) := ⟨List.prefix_append _ _, by simp⟩
  refine ⟨(find_remove_clear present (plain.way _ inside)).trans plain.found, ?_, ?_⟩
  · intro root below
    exact (plain.way root below).of_remove present
  · intro below text linked
    exact plain.unlinked below text (node_of_remove present linked)

theorem Plain.find_module (plain : Plain disk cwd storePath store) {module build : Text} {node : Node}
    (there : disk.node (store ++ [module, build]) = some node) :
    disk.find cwd (moduleDir storePath module) = .directory (store ++ [module]) := by
  have split : store ++ [module, build] = (store ++ [module]) ++ [build] := by rw [List.append_assoc, List.singleton_append]
  rw [split] at there
  have above := (held_of_node there).2
  have entered : disk.tree.entry store module = some (.directory (store ++ [module])) := entryAt_directory above
  rw [moduleDir, find_child plain.found (held_of_node above).1, entered]
  rfl

theorem plain_spares {then_ : Disk → Prop} {module : Text} {builds : List Text} (plain : Plain disk cwd storePath store)
    (holds : ∀ disk, Plain disk cwd storePath store → then_ disk) (distinct : builds.Nodup)
    (directories : ∀ build ∈ builds, disk.node (store ++ [module, build]) = some .directory) :
    Spares cwd storePath module then_ builds disk := by
  induction builds generalizing disk with
  | nil => exact holds disk plain
  | cons build builds ih =>
    obtain ⟨own, directories⟩ := List.forall_mem_cons.mp directories
    obtain ⟨fresh, distinct⟩ := List.nodup_cons.mp distinct
    have split : (store ++ [module]) ++ [build] = store ++ [module, build] := by rw [List.append_assoc, List.singleton_append]
    refine ⟨store ++ [module], plain.find_module own, split ▸ own, ?_, ?_⟩
    · intro entry listed other
      obtain ⟨_, version, _, _⟩ := mem_listSymbols.mp listed
      obtain ⟨place, node, _, there⟩ := mem_sortedNames.mp version
      rw [split]
      refine plain.clear (isName_of_listed listed) (held_of_node there).1 ?_
      intro ⟨modules, same⟩
      exact other ⟨modules, same ▸ List.mem_cons_self⟩
    · rw [split]
      refine ih (plain.remove module build) distinct ?_
      intro name member
      have other : ¬ store ++ [module, build] <+: store ++ [module, name] := by
        rw [List.prefix_append_right_inj]
        rintro ⟨more, same⟩
        simp only [List.cons_append, List.nil_append, List.cons.injEq, true_and] at same
        exact fresh (same.1 ▸ member)
      rw [node_remove (by simp), if_neg other]
      exact directories name member

/-- A version in the store is a directory there. -/
theorem Plain.version_directory (plain : Plain disk cwd storePath store) {module build : Text} {mtime : Nat} (proper : IsName module)
    (member : (mtime, build) ∈ versions disk cwd storePath module) : disk.node (store ++ [module, build]) = some .directory := by
  obtain ⟨listed, ⟨place, found⟩, _⟩ := mem_versions.mp member
  obtain ⟨here, node, led, there⟩ := mem_sortedNames.mp listed
  have start : disk.tree.walk ((PurePath.parse storePath).startFrom cwd) (PurePath.parse storePath).tail = .ok (store ++ []) := by
    rw [List.append_nil, (walk_of_find plain.found).2]
  have module := plain.walk_child _ start proper (walk_of_find led).2
  rw [List.append_nil] at module
  subst module
  rw [versionDir, ← moduleDir, find_child led (held_of_node there).1] at found
  cases entered : disk.tree.entry (store ++ [module]) build with
  | none =>
    rw [entered] at found
    cases found
  | some entry =>
    rw [entered, Option.getD_some] at found
    subst found
    rcases of_entryAt entered with ⟨directory, _⟩ | ⟨_, impossible⟩ | ⟨text, linked, _⟩
    · rwa [List.append_assoc, List.singleton_append] at directory
    · cases impossible
    · rw [List.append_assoc] at linked
      exact absurd linked (plain.unlinked _ text)

/-- A store without links is pruned undisturbed. -/
theorem plain_undisturbed (plain : Plain disk cwd storePath store) (proper : ∀ name ∈ rest, IsName name) :
    Undisturbed cwd storePath keep rest disk := by
  induction rest generalizing disk with
  | nil => trivial
  | cons module rest ih =>
    obtain ⟨own, proper⟩ := List.forall_mem_cons.mp proper
    have distinct : (((versions disk cwd storePath module).rdrop keep.toNat).map Prod.snd).Nodup := by
      refine List.Nodup.map_on ?_ ((nodup_versions disk cwd storePath module).sublist (List.take_sublist _ _))
      intro first one second other same
      exact version_unique (List.mem_of_mem_take one) (List.mem_of_mem_take other) same
    refine plain_spares plain (fun _ later => ih later proper) distinct ?_
    intro build old
    obtain ⟨⟨mtime, name⟩, member, rfl⟩ := List.mem_map.mp old
    exact plain.version_directory own (List.mem_of_mem_take member)

def isLink : Node → Bool
  | .link _ => true
  | _ => false

theorem no_link (all : (disk.nodes.all fun entry => !isLink entry.2) = true) (location : Location) (text : Text) :
    disk.node location ≠ some (.link text) := by
  intro linked
  by_cases top : location = []
  · rw [top, node_root] at linked
    cases linked
  · have member := List.all_eq_true.mp all _ (Nodes.mem_of_nodeIn top linked)
    simp [isLink] at member

theorem twoVersions_plain : Plain twoVersions [] "/store".toList ["store".toList] := by
  have unlinked := @no_link twoVersions (by decide +kernel)
  refine ⟨by decide +kernel, ?_, fun below => unlinked _⟩
  intro root below
  have single : PurePath.parse "/store".toList = PurePath.child ⟨['/'], []⟩ "store".toList := by decide
  have longer : ¬ root <+: ["store".toList] := fun within => below.2 (below.1.eq_of_length_le within.length_le)
  rw [single]
  refine PathClear.child ⟨fun within => longer (within.trans List.nil_prefix), ?_⟩ ?_
  · rintro here name ⟨before, after, same, _⟩
    simp at same
  · intro here walked
    cases walked
    exact clear_of_no_link longer (unlinked _)

end Plain

theorem twoVersions_pruned : ∃ removed after, Prunes twoVersions [] "/store".toList 1 removed after := by
  have calm : Undisturbed [] "/store".toList 1 (modules twoVersions [] "/store".toList) twoVersions := by
    apply plain_undisturbed twoVersions_plain
    exact fun _ member => isName_of_mem_modules member
  have positive : (1 : Int) ≤ 1 := by decide
  exact (@prunes_iff_undisturbed twoVersions [] "/store".toList 1 positive).mpr calm

/-- A version that is a link to another one. -/
def linkedVersion : Disk := twoVersions.put ["store".toList, "app".toList] "0".toList (.link "B".toList)

/-- The link counts as a version, but it cannot be removed. -/
theorem linked_version_raises :
    (prune linkedVersion [] "/store".toList 1).1 = .error .rmtree ∧
      ¬ ∀ (disk : Disk) (cwd : Location) (storePath : Text) (keep : Int), 1 ≤ keep →
        ∃ removed after, Prunes disk cwd storePath keep removed after := by
  have raised : (prune linkedVersion [] "/store".toList 1).1 = .error .rmtree := by decide +kernel
  refine ⟨raised, fun all => ?_⟩
  obtain ⟨removed, after, prunes⟩ := all linkedVersion [] "/store".toList 1 (by decide)
  rw [prunes.returned] at raised
  cases raised

end Crashomon.Proofs.StorePrune
