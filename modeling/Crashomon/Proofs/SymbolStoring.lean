import Crashomon.Base.MakeDirectories
import Crashomon.Proofs.SymbolPaths

/-! What storing a symbol file does to a disk, where nothing but directories is in its way. -/

namespace Crashomon.Proofs.SymbolStoring
open FileTree Disk Nodes Python Web.SymbolStore SymbolPaths

section Tree
variable {tree : FileTree} {start root : Location} {path : List Text} {module buildId : Text}

/-- The directories of a version that are not there yet. -/
def newDirs (tree : FileTree) (root : Location) (module buildId : Text) : List Location :=
  (if tree.entry root module = none then [root ++ [module]] else []) ++
    if tree.entry (root ++ [module]) buildId = none then [root ++ [module] ++ [buildId]] else []

/-- On the way of a symbol file there are directories and nothing else. -/
structure Open (tree : FileTree) (root : Location) (module buildId : Text) : Prop where
  moduleDir : tree.entry root module = some (.directory (root ++ [module])) ∨
    tree.entry root module = none ∧ tree.entry (root ++ [module]) buildId = none
  buildDir : tree.entry (root ++ [module]) buildId = some (.directory (root ++ [module] ++ [buildId])) ∨
    tree.entry (root ++ [module]) buildId = none ∧ tree.entry (root ++ [module] ++ [buildId]) (symName module) = none
  symFile : tree.entry (root ++ [module] ++ [buildId]) (symName module) =
      some (.file (root ++ [module] ++ [buildId] ++ [symName module])) ∨
    tree.entry (root ++ [module] ++ [buildId]) (symName module) = none
  allowed : ∀ location, tree.refuses location = false

theorem mem_newDirs {location : Location} :
    location ∈ newDirs tree root module buildId ↔ location = root ++ [module] ∧ tree.entry root module = none ∨
      location = root ++ [module] ++ [buildId] ∧ tree.entry (root ++ [module]) buildId = none := by
  unfold newDirs
  split <;> split <;> simp_all

theorem absent_of_newDirs {here : Location} {name : Text} (member : here ++ [name] ∈ newDirs tree root module buildId) :
    tree.entry here name = none := by
  rcases mem_newDirs.mp member with ⟨same, none⟩ | ⟨same, none⟩
  · obtain ⟨rfl, last⟩ := List.append_inj' same rfl
    rw [List.singleton_inj.mp last]
    exact none
  · obtain ⟨rfl, last⟩ := List.append_inj' same rfl
    rw [List.singleton_inj.mp last]
    exact none

/-- A walk that goes through still does when directories are made where nothing was. -/
theorem walk_made {made : List Location} (absent : ∀ here name, here ++ [name] ∈ made → tree.entry here name = Option.none)
    (walked : tree.walk start path = .ok root) : (tree.adding made).walk start path = .ok root := by
  obtain ⟨nothing, placed⟩ := nothing_missing_of_walk walked
  refine walk_adding absent (fun location member => ?_) placed
  rw [nothing] at member
  exact absurd member List.not_mem_nil

/-- Once the directories are made the path leads to the version. -/
theorem walk_newDirs (way : Open tree root module buildId) (properModule : IsName module) (properId : IsName buildId)
    (walked : tree.walk start path = .ok root) :
    (tree.adding (newDirs tree root module buildId)).walk start (path ++ [module] ++ [buildId]) = .ok (root ++ [module] ++ [buildId]) := by
  have first : (tree.adding (newDirs tree root module buildId)).walk start path = .ok root :=
    walk_made (fun here name => absent_of_newDirs) walked
  have entered {here : Location} {name : Text}
      (there : tree.entry here name = some (.directory (here ++ [name])) ∨ here ++ [name] ∈ newDirs tree root module buildId) :
      (tree.adding (newDirs tree root module buildId)).entry here name = some (.directory (here ++ [name])) := by
    by_cases made : here ++ [name] ∈ newDirs tree root module buildId
    · exact if_pos made
    · exact (if_neg made).trans (there.resolve_right made)
  have second : (tree.adding (newDirs tree root module buildId)).walk start (path ++ [module]) = .ok (root ++ [module]) := by
    rw [walk_snoc first, walk_single properModule.2.2.1]
    apply entered
    rcases way.moduleDir with there | ⟨none, _⟩
    · exact Or.inl there
    · exact Or.inr (mem_newDirs.mpr (Or.inl ⟨rfl, none⟩))
  rw [walk_snoc second, walk_single properId.2.2.1]
  apply entered
  rcases way.buildDir with there | ⟨none, _⟩
  · exact Or.inl there
  · exact Or.inr (mem_newDirs.mpr (Or.inr ⟨rfl, none⟩))

theorem mkdirParents_version (way : Open tree root module buildId) (properModule : IsName module) (properId : IsName buildId)
    (clean : ¬ HasNull path) (walked : tree.walk start path = .ok root) :
    tree.mkdirParents start (path ++ [module] ++ [buildId]).reverse = (.ok (), newDirs tree root module buildId) := by
  have cleanModule := clean_snoc clean properModule
  have cleanVersion := clean_snoc cleanModule properId
  rw [List.reverse_append, List.reverse_singleton, List.singleton_append]
  rcases way.moduleDir with there | ⟨none, noVersion⟩
  · have above : tree.walk start (path ++ [module]) = .ok (root ++ [module]) := by
      rw [walk_snoc walked, walk_single properModule.2.2.1]
      exact there
    have kept : newDirs tree root module buildId =
        if tree.entry (root ++ [module]) buildId = Option.none then [root ++ [module] ++ [buildId]] else [] := by
      rw [newDirs, there]
      simp
    rw [mkdirParents_of_walk cleanVersion above, kept]
    rcases way.buildDir with present | ⟨absent, _⟩
    · rw [mkdir_present cleanVersion above properId.2.2.1 present, present]
      simp
    · rw [mkdir_absent cleanVersion above properId.2.2.1 absent (way.allowed _), if_pos absent]
  · have blocked : tree.walk start (path ++ [module]) = .error .fileNotFound := by
      rw [walk_snoc walked, walk, if_neg properModule.2.2.1, none]
    have failed : tree.makeDirectory start (path ++ [module] ++ [buildId]) = .error .fileNotFound := by
      rw [makeDirectory_snoc cleanVersion, blocked]
      rfl
    have made : tree.mkdirParents start (path ++ [module]).reverse = (.ok (), [root ++ [module]]) := by
      rw [List.reverse_append, List.reverse_singleton, List.singleton_append, mkdirParents_of_walk cleanModule walked,
        mkdir_absent cleanModule walked properModule.2.2.1 none (way.allowed _)]
    have first : (tree.adding [root ++ [module]]).walk start path = .ok root := by
      refine walk_made (fun here name member => ?_) walked
      obtain ⟨rfl, last⟩ := List.append_inj' (List.mem_singleton.mp member) rfl
      rw [List.singleton_inj.mp last]
      exact none
    have again : (tree.adding [root ++ [module]]).walk start (path ++ [module]) = .ok (root ++ [module]) := by
      rw [walk_snoc first, walk_single properModule.2.2.1]
      exact if_pos (List.mem_singleton_self _)
    have missing : (tree.adding [root ++ [module]]).entry (root ++ [module]) buildId = Option.none := by
      refine (if_neg fun member => ?_).trans noVersion
      have longer := congrArg List.length (List.mem_singleton.mp member)
      simp at longer
    have both : newDirs tree root module buildId = [root ++ [module]] ++ [root ++ [module] ++ [buildId]] := by
      rw [newDirs, if_pos none, if_pos noVersion]
    rw [mkdirParents, List.reverse_cons, List.reverse_reverse, failed]
    dsimp only
    rw [made]
    dsimp only
    rw [mkdir_absent cleanVersion again properId.2.2.1 missing (way.allowed _), both]

end Tree

/-- Storing where the way is open. -/
theorem addSymText_open {tree : FileTree} {cwd root : Location} {storePath symText module buildId : Text}
    (parsed : parseModuleLine symText = .ok (module, buildId)) (properModule : IsName module) (properId : IsName buildId)
    (way : Open tree root module buildId) (clean : ¬ HasNull (PurePath.parse storePath).tail)
    (walked : tree.walk ((PurePath.parse storePath).startFrom cwd) (PurePath.parse storePath).tail = .ok root) :
    addSymText tree cwd storePath symText =
      ⟨.ok (symFileOf storePath module buildId), newDirs tree root module buildId,
        some (root ++ [module] ++ [buildId] ++ [symName module], symText)⟩ := by
  have made := mkdirParents_version way properModule properId clean walked
  have there := walk_newDirs way properModule properId walked
  have cleanFile := clean_snoc (clean_snoc (clean_snoc clean properModule) properId) (isName_symName properModule)
  have opened : (tree.adding (newDirs tree root module buildId)).openForWriting ((PurePath.parse storePath).startFrom cwd)
      ((PurePath.parse storePath).tail ++ [module] ++ [buildId] ++ [symName module]) =
      .ok (root ++ [module] ++ [buildId] ++ [symName module]) := by
    have entered : (tree.adding (newDirs tree root module buildId)).entry (root ++ [module] ++ [buildId]) (symName module) =
        tree.entry (root ++ [module] ++ [buildId]) (symName module) := by
      refine if_neg fun member => ?_
      rcases mem_newDirs.mp member with ⟨same, _⟩ | ⟨same, _⟩
      · exact absurd (congrArg List.length same) (by simp)
      · exact absurd (congrArg List.length same) (by simp)
    rw [openForWriting, if_neg cleanFile, List.getLast?_concat]
    dsimp only
    rw [List.dropLast_concat, there]
    simp only [bind, Except.bind]
    rw [if_neg (isName_symName properModule).2.2.1, entered]
    rcases way.symFile with present | absent
    · rw [present]
      simp [way.allowed]
    · rw [absent]
      simp [way.allowed]
  rw [addSymText, parsed]
  dsimp only
  rw [destDirOf_eq properModule properId, destOf_eq properModule properId]
  have call : tree.mkdirParents (startOf cwd (versionDir storePath module buildId)) (versionDir storePath module buildId).tail.reverse =
      (.ok (), newDirs tree root module buildId) := made
  have written : (tree.adding (newDirs tree root module buildId)).openForWriting (startOf cwd (symFileOf storePath module buildId))
      (symFileOf storePath module buildId).tail = .ok (root ++ [module] ++ [buildId] ++ [symName module]) := opened
  rw [call]
  dsimp only
  rw [written]

section Disks
variable {disk : Disk} {root here : Location} {module buildId name : Text}

/-- Under the root of a store there is room for a symbol file: what is on its way is a directory, what is in its place a file. -/
structure Room (disk : Disk) (root : Location) (module buildId : Text) : Prop where
  properModule : IsName module
  properId : IsName buildId
  storeDir : disk.node root = some .directory
  moduleDir : disk.node (root ++ [module]) = none ∨ disk.node (root ++ [module]) = some .directory
  buildDir : disk.node (root ++ [module] ++ [buildId]) = none ∨ disk.node (root ++ [module] ++ [buildId]) = some .directory
  symFile : disk.node (root ++ [module] ++ [buildId] ++ [symName module]) = none ∨
    ∃ content mtime, disk.node (root ++ [module] ++ [buildId] ++ [symName module]) = some (.file content mtime)

theorem none_below (none : disk.node here = none) (name : Text) : disk.node (here ++ [name]) = Option.none := by
  cases found : disk.node (here ++ [name]) with
  | none => rfl
  | some node => exact nomatch none.symm.trans (held_of_node found).2

theorem tree_entry (disk : Disk) (here : Location) (name : Text) : disk.tree.entry here name = disk.entryAt disk.nesting here name := rfl

theorem entry_of_room (room : disk.node (here ++ [name]) = none ∨ disk.node (here ++ [name]) = some .directory) :
    disk.tree.entry here name = none ∧ disk.node (here ++ [name]) = none ∨
      disk.tree.entry here name = some (.directory (here ++ [name])) ∧ disk.node (here ++ [name]) = some .directory := by
  rcases room with absent | present
  · exact Or.inl ⟨entryAt_none absent, absent⟩
  · exact Or.inr ⟨entryAt_directory present, present⟩

theorem Room.open (room : Room disk root module buildId) : Open disk.tree root module buildId := by
  refine ⟨?_, ?_, ?_, fun _ => rfl⟩
  · rcases entry_of_room room.moduleDir with ⟨absent, none⟩ | ⟨present, _⟩
    · exact Or.inr ⟨absent, entryAt_none (none_below none buildId)⟩
    · exact Or.inl present
  · rcases entry_of_room room.buildDir with ⟨absent, none⟩ | ⟨present, _⟩
    · exact Or.inr ⟨absent, entryAt_none (none_below none (symName module))⟩
    · exact Or.inl present
  · rcases room.symFile with absent | ⟨content, mtime, present⟩
    · exact Or.inr (entryAt_none absent)
    · exact Or.inl (entryAt_file present)

/-- A directory made where it was missing: afterwards it is there, and the rest is as it was. -/
theorem node_makeMissing {tree : FileTree} (same : tree.entry here name = none ↔ disk.node (here ++ [name]) = none) (proper : IsName name)
    (parent : disk.node here = some .directory)
    (room : disk.node (here ++ [name]) = none ∨ disk.node (here ++ [name]) = some .directory) (location : Location) :
    ((if tree.entry here name = none then [here ++ [name]] else []).foldl (fun disk directory => disk.putAt directory .directory)
      disk).node location = if location = here ++ [name] then some .directory else disk.node location := by
  by_cases absent : disk.node (here ++ [name]) = none
  · rw [if_pos (same.mpr absent), List.foldl_cons, List.foldl_nil, putAt_snoc]
    exact node_put ⟨proper, parent, fun _ => rfl⟩ location
  · rw [if_neg fun none => absent (same.mp none), List.foldl_nil]
    split
    next here => rw [here, room.resolve_left absent]
    next => rfl

theorem entry_none_iff (room : disk.node (here ++ [name]) = none ∨ disk.node (here ++ [name]) = some .directory) :
    disk.tree.entry here name = none ↔ disk.node (here ++ [name]) = none := by
  rcases entry_of_room room with ⟨absent, none⟩ | ⟨present, directory⟩
  · exact iff_of_true absent none
  · rw [present, directory]
    simp

theorem nesting_makeAll (directories : List Location) (disk : Disk) :
    (directories.foldl (fun disk directory => disk.putAt directory .directory) disk).nesting = disk.nesting := by
  induction directories generalizing disk with
  | nil => rfl
  | cons directory directories ih =>
    rw [List.foldl_cons, ih]
    unfold putAt
    split
    next => exact nesting_put
    next => rfl

theorem nesting_onto (outcome : Outcome) (disk : Disk) (now : Nat) : (outcome.onto disk now).nesting = disk.nesting := by
  unfold Outcome.onto
  dsimp only
  split
  next location content _ =>
    rw [← nesting_makeAll outcome.made disk]
    unfold putAt
    split
    next => exact nesting_put
    next => rfl
  next => exact nesting_makeAll outcome.made disk

/-- Storing where there is room: the two directories and the file, and nothing else. -/
theorem node_onto (room : Room disk root module buildId) (result : Except StoreError PurePath) (symText : Text) (now : Nat)
    (location : Location) :
    ((Outcome.mk result (newDirs disk.tree root module buildId)
      (some (root ++ [module] ++ [buildId] ++ [symName module], symText))).onto disk now).node location =
      if location = root ++ [module] ++ [buildId] ++ [symName module] then some (.file (encodeUtf8 symText) now)
      else if location = root ++ [module] ∨ location = root ++ [module] ++ [buildId] then some .directory
      else disk.node location := by
  have first := node_makeMissing (entry_none_iff room.moduleDir) room.properModule room.storeDir room.moduleDir
  unfold Outcome.onto newDirs
  dsimp only
  rw [List.foldl_append]
  generalize (if disk.tree.entry root module = none then [root ++ [module]] else []).foldl
    (fun disk directory => disk.putAt directory .directory) disk = withModule at first ⊢
  have apart {longer shorter : Location} (more : longer.length ≠ shorter.length) : longer ≠ shorter := fun same => more (by rw [same])
  have version : withModule.node (root ++ [module] ++ [buildId]) = disk.node (root ++ [module] ++ [buildId]) := by
    rw [first, if_neg (apart (by simp))]
  have second := @node_makeMissing withModule (root ++ [module]) buildId disk.tree
    (by rw [version]; exact entry_none_iff room.buildDir) room.properId (by rw [first, if_pos rfl]) (by rw [version]; exact room.buildDir)
  generalize (if disk.tree.entry (root ++ [module]) buildId = none then [root ++ [module] ++ [buildId]] else []).foldl
    (fun disk directory => disk.putAt directory .directory) withModule = withVersion at second ⊢
  have there : withVersion.node (root ++ [module] ++ [buildId]) = some .directory := by rw [second, if_pos rfl]
  have place : withVersion.node (root ++ [module] ++ [buildId] ++ [symName module]) =
      disk.node (root ++ [module] ++ [buildId] ++ [symName module]) := by
    rw [second, if_neg (apart (by simp)), first, if_neg (apart (by simp))]
  have fits : Fits withVersion.nodes (root ++ [module] ++ [buildId]) (symName module) (.file (encodeUtf8 symText) now) := by
    refine ⟨isName_symName room.properModule, there, fun directory => ?_⟩
    have occupied := place.symm.trans directory
    rcases room.symFile with absent | ⟨content, mtime, present⟩
    · exact nomatch absent.symm.trans occupied
    · exact nomatch present.symm.trans occupied
  rw [putAt_snoc, node_put fits]
  split
  next => rfl
  next =>
    rw [second, first]
    by_cases isVersion : location = root ++ [module] ++ [buildId]
    · rw [if_pos isVersion, if_pos (Or.inr isVersion)]
    · rw [if_neg isVersion]
      by_cases isModule : location = root ++ [module]
      · rw [if_pos isModule, if_pos (Or.inl isModule)]
      · rw [if_neg isModule, if_neg (not_or.mpr ⟨isModule, isVersion⟩)]

end Disks

end Crashomon.Proofs.SymbolStoring
