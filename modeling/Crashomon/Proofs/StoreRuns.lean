import Crashomon.Proofs.StorePrune
import Crashomon.Proofs.SymbolMap

/-! The symbol store over a whole life. The web application stores and deletes in it, crashomon-syms adds,
lists and prunes, and what they show and leave is what a map from versions to texts and times gives. -/

namespace Crashomon.Proofs.StoreRuns
open Disk Location Python Web.SymbolStore Web.SymbolRoutes Tools.SymsCli SymbolPaths SymbolStoring SymbolDeletion SymbolMap StorePrune

section Ranks
variable {α : Type*} [LinearOrder α] {items : List α} {item : α}

/-- In an ascending list what stands before the last few has at least as many greater ones. -/
theorem mem_rdrop_iff (ascending : items.Pairwise (· < ·)) (member : item ∈ items) {greater : Finset α}
    (rank : ∀ other, other ∈ greater ↔ other ∈ items ∧ item < other) (count : Nat) : item ∈ items.rdrop count ↔ count ≤ greater.card := by
  obtain ⟨before, after, rfl⟩ := List.append_of_mem member
  obtain ⟨_, tail, apart⟩ := List.pairwise_append.mp ascending
  obtain ⟨above, later⟩ := List.pairwise_cons.mp tail
  have distinct : after.Nodup := later.imp fun less => ne_of_lt less
  have same : greater = after.toFinset := by
    ext other
    simp only [rank, List.mem_toFinset, List.mem_append, List.mem_cons]
    constructor
    · rintro ⟨older | same | newer, less⟩
      · exact absurd less (lt_asymm (apart other older item List.mem_cons_self))
      · exact absurd less (same ▸ lt_irrefl _)
      · exact newer
    · intro newer
      exact ⟨Or.inr (Or.inr newer), above other newer⟩
  rw [same, List.toFinset_card_of_nodup distinct, List.rdrop, List.length_append, List.length_cons]
  constructor
  · intro early
    by_contra few
    have short : before.length + (after.length + 1) - count ≤ before.length := by omega
    rw [List.take_append_of_le_length short] at early
    exact lt_irrefl item (apart item (List.mem_of_mem_take early) item List.mem_cons_self)
  · intro many
    have long : before.length + (after.length + 1) - count = before.length + ((after.length - count) + 1) := by omega
    rw [long, List.take_length_add_append, List.take_succ_cons]
    exact List.mem_append_right _ List.mem_cons_self

end Ranks

/-- The abstract store: the texts of the versions and when they were stored. -/
structure Shelf where
  texts : TextMap
  times : Text × Text → Nat

namespace Shelf

def put (shelf : Shelf) (key : Text × Text) (text : Text) (now : Nat) : Shelf :=
  ⟨shelf.texts.insert key text, Function.update shelf.times key now⟩

def drop (shelf : Shelf) (key : Text × Text) : Shelf := ⟨shelf.texts.erase key, shelf.times⟩

/-- The time of a version with its build ID. -/
def age (shelf : Shelf) (key : Text × Text) : Nat × Text := (shelf.times key, key.2)

/-- Enough versions of the same module are newer, or as new with a greater build ID. -/
def Old (shelf : Shelf) (keep : Nat) (key : Text × Text) : Prop :=
  keep ≤ {other ∈ shelf.texts.keys | other.1 = key.1 ∧ Before (shelf.age key) (shelf.age other)}.card

open Classical in
noncomputable def prune (shelf : Shelf) (keep : Nat) : Shelf where
  texts := Finmap.keysLookupEquiv.symm ⟨({key ∈ shelf.texts.keys | ¬ shelf.Old keep key},
    fun key => if shelf.Old keep key then none else shelf.texts.lookup key), fun key => by
      by_cases old : shelf.Old keep key <;> simp [old, Finmap.lookup_isSome, Finmap.mem_keys]⟩
  times := shelf.times

theorem lookup_prune {shelf : Shelf} {keep : Nat} {key : Text × Text} {text : Text} :
    (shelf.prune keep).texts.lookup key = some text ↔ shelf.texts.lookup key = some text ∧ ¬ shelf.Old keep key := by
  rw [prune, Finmap.keysLookupEquiv_symm_apply_lookup]
  dsimp only
  split
  next old => simp [old]
  next young => simp [young]

/-- What a request of the application makes of the store. -/
def serve (shelf : Shelf) : SymbolMap.Request → Shelf
  | .add symText now =>
    match parseModuleLine symText with
    | .ok key => shelf.put key symText now
    | .error _ => shelf
  | .delete module buildId => shelf.drop (module, buildId)

/-- The path below the store, as it is shown. -/
def shown (module buildId : Text) : Text := module ++ '/' :: buildId ++ '/' :: symName module

/-- The loop of `crashomon-syms add` over binaries that are there or not. -/
def add (dumpSyms : PurePath → Dump × Nat) :
    List (PurePath × Bool) → (errors : Nat) → (output : List Text) → Shelf → Option Nat × List Text × Shelf
  | [], errors, output, shelf => (some (if errors = 0 then 0 else 1), output, shelf)
  | (_, false) :: binaries, errors, output, shelf => add dumpSyms binaries (errors + 1) output shelf
  | (binary, true) :: binaries, errors, output, shelf =>
    match (dumpSyms binary).1.parsed with
    | .error _ => (none, output, shelf)
    | .ok none => add dumpSyms binaries (errors + 1) output shelf
    | .ok (some (module, buildId, text)) =>
      add dumpSyms binaries errors (output ++ [storedLine (shown module buildId)]) (shelf.put (module, buildId) text (dumpSyms binary).2)

end Shelf

/-- What is done with the store: a request to the application, or one of the commands of crashomon-syms. -/
inductive Call where
  | web (request : SymbolMap.Request)
  | add (args : AddArgs) (dumpSyms : PurePath → Dump × Nat)
  | list
  | prune (keep : Int)

def make (cwd : Location) (storePath : Text) (disk : Disk) : Call → Command
  | .web request => ⟨some 0, [], SymbolMap.perform cwd storePath disk request⟩
  | .add args dumpSyms => cmdAdd disk cwd storePath args dumpSyms
  | .list => cmdList disk cwd storePath
  | .prune keep => cmdPrune disk cwd storePath keep

/-- The names that a call brings are single components of a path. -/
def Proper : Call → Prop
  | .web (.add symText _) => ∀ module buildId, parseModuleLine symText = .ok (module, buildId) → IsName module ∧ IsName buildId
  | .web (.delete module buildId) => IsName module ∧ IsName buildId
  | .add _ dumpSyms => ∀ binary module buildId text, (dumpSyms binary).1.parsed = .ok (some (module, buildId, text)) →
      IsName module ∧ IsName buildId
  | _ => True

/-- The order in which versions are listed. -/
def Listed (first second : Text × Text) : Prop := first.1 < second.1 ∨ first.1 = second.1 ∧ first.2 < second.2

/-- The order in which versions are removed. -/
def Removed (shelf : Shelf) (first second : Text × Text) : Prop :=
  first.1 < second.1 ∨ first.1 = second.1 ∧ Before (shelf.age first) (shelf.age second)

/-- The line of a version in the list. -/
def lineOf (shelf : Shelf) (key : Text × Text) : Text :=
  listLine key.1 key.2 ((shelf.texts.lookup key).elim 0 fun text => (encodeUtf8 text).length)

/-- There is something at the path. -/
def Present (disk : Disk) (cwd : Location) (path : PurePath) : Prop := ∀ target, disk.find cwd path ≠ .dangling target

/-- Whether a call finds a binary that it comes to between the two disks. What is not there at first may be something
that the call stores. -/
def Finds (cwd : Location) (disk after : Disk) (binary : PurePath) (found : Bool) : Prop :=
  (Present disk cwd binary → found = true) ∧ (found = true → Present after cwd binary)

/-- What a call prints and returns, and what it makes of the store. -/
def Serves (cwd : Location) (disk : Disk) (shelf : Shelf) : Call → Command → Shelf → Prop
  | .web request, _, later => later = shelf.serve request
  | .add args dumpSyms, answer, later =>
    match binariesOf disk cwd args with
    | .error exitCode => answer.exitCode = exitCode ∧ answer.output = [] ∧ later = shelf
    | .ok binaries => ∃ there : List Bool, List.Forall₂ (Finds cwd disk answer.disk) binaries there ∧
        (answer.exitCode, answer.output, later) = Shelf.add dumpSyms (binaries.zip there) 0 [] shelf
  | .list, answer, later => later = shelf ∧ answer.exitCode = some 0 ∧
    ∃ keys : List (Text × Text), keys.Pairwise Listed ∧ (∀ key, key ∈ keys ↔ key ∈ shelf.texts) ∧
      answer.output = if keys = [] then ["  (no symbols stored)".toList] else keys.map (lineOf shelf)
  | .prune keep, answer, later =>
    if keep < 1 then answer.exitCode = some 1 ∧ answer.output = [] ∧ later = shelf
    else later = shelf.prune keep.toNat ∧ answer.exitCode = some 0 ∧
      ∃ keys : List (Text × Text), keys.Pairwise (Removed shelf) ∧
        (∀ key, key ∈ keys ↔ key ∈ shelf.texts ∧ shelf.Old keep.toNat key) ∧
        answer.output = keys.map fun key => removing key.1 key.2

/-- The calls one after the other, each on the disk that the ones before have left. -/
def Serving (cwd : Location) (storePath : Text) : Disk → Shelf → List Call → Shelf → Prop
  | _, shelf, [], last => last = shelf
  | disk, shelf, call :: calls, last => ∃ later, Serves cwd disk shelf call (make cwd storePath disk call) later ∧
      Serving cwd storePath (make cwd storePath disk call).disk later calls last

/-- A disk has the store, with the times at which its texts were stored. -/
structure Keeps (base disk : Disk) (root : Location) (shelf : Shelf) : Prop where
  refined : Refines base disk root shelf.texts
  dated : ∀ module buildId text, shelf.texts.lookup (module, buildId) = some text →
    disk.node (root ++ [module] ++ [buildId] ++ [symName module]) = some (.file (encodeUtf8 text) (shelf.times (module, buildId)))

section Storing
variable {base disk : Disk} {cwd root : Location} {storePath module buildId text : Text} {shelf : Shelf}

/-- The directories of a version, made where there is room. -/
theorem node_newDirs (room : Room disk root module buildId) (location : Location) :
    ((newDirs disk.tree root module buildId).foldl (fun disk directory => disk.putAt directory .directory) disk).node location =
      if location = root ++ [module] ∨ location = root ++ [module] ++ [buildId] then some .directory else disk.node location := by
  have first := node_makeMissing (entry_none_iff room.moduleDir) room.properModule room.storeDir room.moduleDir
  unfold newDirs
  rw [List.foldl_append]
  generalize (if disk.tree.entry root module = none then [root ++ [module]] else []).foldl
    (fun disk directory => disk.putAt directory .directory) disk = withModule at first ⊢
  have version : withModule.node (root ++ [module] ++ [buildId]) = disk.node (root ++ [module] ++ [buildId]) := by
    rw [first, if_neg (apart_of_length (by simp))]
  rw [@node_makeMissing withModule (root ++ [module]) buildId disk.tree (by rw [version]; exact entry_none_iff room.buildDir)
    room.properId (by rw [first, if_pos rfl]) (by rw [version]; exact room.buildDir), first]
  by_cases isVersion : location = root ++ [module] ++ [buildId]
  · rw [if_pos isVersion, if_pos (Or.inr isVersion)]
  · rw [if_neg isVersion]
    simp only [isVersion, or_false]

theorem open_in_directory {path : PurePath} {here : Location} {name : Text} (found : disk.find cwd path = .directory here)
    (proper : IsName name)
    (room : disk.node (here ++ [name]) = none ∨ ∃ content mtime, disk.node (here ++ [name]) = some (.file content mtime)) :
    disk.tree.openForWriting ((path.child name).startFrom cwd) (path.child name).tail = .ok (here ++ [name]) := by
  obtain ⟨clean, walked⟩ := walk_of_find found
  show disk.tree.openForWriting (path.startFrom cwd) (path.tail ++ [name]) = _
  rw [FileTree.openForWriting, if_neg (clean_snoc clean proper), List.getLast?_concat]
  dsimp only
  rw [List.dropLast_concat, walked]
  simp only [bind, Except.bind]
  rw [if_neg proper.2.2.1, tree_entry]
  rcases room with absent | ⟨content, mtime, present⟩
  · rw [entryAt_none absent]
    rfl
  · rw [entryAt_file present]
    rfl

/-- What crashomon-syms writes is what the application would have written. -/
theorem storeSym_room (room : Room disk root module buildId) (store : disk.find cwd (.parse storePath) = .directory root)
    (text : Text) (now : Nat) :
    Tools.Syms.storeSym disk cwd now (.parse storePath) module buildId text =
      (.ok (symFileOf storePath module buildId),
        (Outcome.mk (.ok (symFileOf storePath module buildId)) (newDirs disk.tree root module buildId)
          (some (root ++ [module] ++ [buildId] ++ [symName module], text))).onto disk now) := by
  have way := walk_of_find store
  have made : disk.tree.mkdirParents ((versionDir storePath module buildId).startFrom cwd)
      (versionDir storePath module buildId).tail.reverse = (.ok (), newDirs disk.tree root module buildId) :=
    mkdirParents_version room.open room.properModule room.properId way.1 way.2
  have destDir : ((PurePath.parse storePath).join (.parse module)).join (.parse buildId) = versionDir storePath module buildId :=
    destDirOf_eq room.properModule room.properId
  have dest : Tools.Syms.storeSymDest (.parse storePath) module buildId = symFileOf storePath module buildId :=
    destOf_eq room.properModule room.properId
  unfold Tools.Syms.storeSym
  dsimp only
  rw [destDir, made, dest]
  dsimp only
  have node := node_newDirs room
  have nesting := nesting_makeAll (newDirs disk.tree root module buildId) disk
  unfold Outcome.onto
  dsimp only
  generalize (newDirs disk.tree root module buildId).foldl (fun disk directory => disk.putAt directory .directory) disk =
    withDirectories at node nesting ⊢
  have grown : ∀ location node, disk.node location = some node → withDirectories.node location = some node := by
    intro location old there
    rw [node]
    split
    next new =>
      rcases new with rfl | rfl
      · rw [← there, room.moduleDir.resolve_left (by rw [there]; exact Option.some_ne_none old)]
      · rw [← there, room.buildDir.resolve_left (by rw [there]; exact Option.some_ne_none old)]
    next => exact there
  have version : withDirectories.find cwd (versionDir storePath module buildId) = .directory (root ++ [module] ++ [buildId]) :=
    find_directory (find_directory (find_mono grown nesting store) (by rw [node, if_pos (Or.inl rfl)]))
      (by rw [node, if_pos (Or.inr rfl)])
  have place : withDirectories.node (root ++ [module] ++ [buildId] ++ [symName module]) =
      disk.node (root ++ [module] ++ [buildId] ++ [symName module]) := by
    rw [node, if_neg]
    exact not_or.mpr ⟨apart_of_length (by simp), apart_of_length (by simp)⟩
  have opened := open_in_directory version (isName_symName room.properModule) (room.symFile.imp place.trans fun ⟨content, mtime, there⟩ =>
    ⟨content, mtime, place.trans there⟩)
  rw [symFileOf, opened]

/-- The names in what dump_syms prints are those of its first line. -/
theorem parse_of_dump {dump : Dump} (parsed : dump.parsed = .ok (some (module, buildId, text))) :
    parseModuleLine text = .ok (module, buildId) := by
  cases dump with
  | notFound => cases parsed
  | timedOut => cases parsed
  | ended returncode stdout =>
    rw [Dump.parsed, Tools.Syms.runDumpSyms] at parsed
    split at parsed
    next => cases parsed
    next =>
      dsimp only at parsed
      split at parsed
      next keyword system machine id name more line =>
        split at parsed
        next module =>
          cases warned : Tools.Syms.warnSymQuality (splitlines stdout) with
          | error raised =>
            rw [warned] at parsed
            cases parsed
          | ok passed =>
            rw [warned] at parsed
            cases parsed
            rw [parseModuleLine, line]
            exact if_pos module
        next => cases parsed
      next => cases parsed

end Storing

section Steps
variable {base disk after : Disk} {cwd root : Location} {storePath module buildId text : Text} {shelf later : Shelf} {keep : Nat}

theorem Keeps.initial (empty : EmptyStore base cwd storePath root) (times : Text × Text → Nat) : Keeps base base root ⟨∅, times⟩ := by
  refine ⟨empty.refines, fun module buildId text kept => ?_⟩
  rw [Finmap.lookup_empty] at kept
  cases kept

/-- What the application writes into a store that holds a map. -/
theorem Keeps.perform_add (keeps : Keeps base disk root shelf) (empty : EmptyStore base cwd storePath root) (now : Nat)
    (parsed : parseModuleLine text = .ok (module, buildId)) (properModule : IsName module) (properId : IsName buildId) :
    SymbolMap.perform cwd storePath disk (.add text now) =
      (Outcome.mk (.ok (symFileOf storePath module buildId)) (newDirs disk.tree root module buildId)
        (some (root ++ [module] ++ [buildId] ++ [symName module], text))).onto disk now := by
  have room := keeps.refined.room empty properModule properId
  have way := walk_of_find (keeps.refined.find_store empty)
  exact congrArg (Outcome.onto · disk now) (addSymText_open parsed properModule properId room.open way.1 way.2)

theorem Keeps.put (keeps : Keeps base disk root shelf) (empty : EmptyStore base cwd storePath root) (now : Nat)
    (parsed : parseModuleLine text = .ok (module, buildId)) (properModule : IsName module) (properId : IsName buildId) :
    Keeps base (SymbolMap.perform cwd storePath disk (.add text now)) root (shelf.put (module, buildId) text now) := by
  have room := keeps.refined.room empty properModule properId
  have same := keeps.perform_add empty now parsed properModule properId
  refine ⟨add_refines keeps.refined empty now parsed properModule properId, fun other id content kept => ?_⟩
  rw [same, node_onto room]
  by_cases key : (other, id) = (module, buildId)
  · obtain ⟨rfl, rfl⟩ := Prod.mk.inj key
    rw [Shelf.put, Finmap.lookup_insert] at kept
    cases kept
    have time : (shelf.put (other, id) text now).times (other, id) = now := Function.update_self ..
    rw [if_pos rfl, time]
  · rw [Shelf.put, Finmap.lookup_insert_of_ne _ key] at kept
    have time : (shelf.put (module, buildId) text now).times (other, id) = shelf.times (other, id) := Function.update_of_ne key ..
    rw [if_neg fun place => key (file_inj place), if_neg, time]
    · exact keeps.dated other id content kept
    · exact not_or.mpr ⟨apart_of_length (by simp), apart_of_length (by simp)⟩

/-- A disk that has lost something and still has the texts has them with their times. -/
theorem Keeps.shrink (keeps : Keeps base disk root shelf) (refined : Refines base after root later.texts)
    (less : ∀ location node, after.node location = some node → disk.node location = some node)
    (kept : ∀ key text, later.texts.lookup key = some text → shelf.texts.lookup key = some text ∧ later.times key = shelf.times key) :
    Keeps base after root later := by
  refine ⟨refined, fun module buildId text found => ?_⟩
  obtain ⟨mtime, there⟩ := refined.stored module buildId text found
  obtain ⟨before, time⟩ := kept _ text found
  have dated := keeps.dated module buildId text before
  rw [less _ _ there] at dated
  rw [there, time, dated]

theorem Keeps.drop (keeps : Keeps base disk root shelf) (empty : EmptyStore base cwd storePath root) (properModule : IsName module)
    (properId : IsName buildId) :
    Keeps base (SymbolMap.perform cwd storePath disk (.delete module buildId)) root (shelf.drop (module, buildId)) := by
  refine keeps.shrink (delete_refines keeps.refined empty properModule properId) ?_ ?_
  · intro location node left
    rw [SymbolMap.perform, deleteSymbol] at left
    cases symDir : symDirOf disk cwd storePath module buildId with
    | none =>
      rw [symDir] at left
      exact left
    | some place =>
      rw [symDir] at left
      obtain ⟨store, leads⟩ := symDirOf_eq_some.mp symDir
      have present : place ≠ [] := by
        rintro rfl
        exact leads.below.2 (List.prefix_nil.mp leads.below.1)
      exact node_of_remove present left
  · intro key text found
    by_cases same : key = (module, buildId)
    · rw [same, Shelf.drop, Finmap.lookup_erase] at found
      cases found
    · rw [Shelf.drop, Finmap.lookup_erase_ne same] at found
      exact ⟨found, rfl⟩

/-- A store that holds a map has no links in it, and nothing on the way to it lies below it. -/
theorem Keeps.plain (keeps : Keeps base disk root shelf) (empty : EmptyStore base cwd storePath root) : Plain disk cwd storePath root := by
  have found := keeps.refined.find_store empty
  refine ⟨found, fun place below => ?_, fun below text linked => ?_⟩
  · have present : place ≠ [] := by
      rintro rfl
      exact below.2 (List.prefix_nil.mp below.1)
    by_contra lost
    obtain ⟨dangling, gone⟩ := find_remove_lost present lost
    have grown : ∀ location node, base.node location = some node → (disk.remove place).node location = some node := by
      intro location node there
      rw [node_remove present, if_neg]
      · exact keeps.refined.grown location node there
      · intro within
        have inside : Below root location := by
          refine ⟨below.1.trans within, ?_⟩
          rintro rfl
          exact below.2 (below.1.eq_of_length_le within.length_le)
        exact nomatch (empty.empty location inside).symm.trans there
    exact nomatch gone.symm.trans (find_mono grown keeps.refined.nesting empty.directory)
  · by_cases top : below = []
    · rw [top, List.append_nil, directory_of_find found] at linked
      cases linked
    · rcases keeps.refined.holds _ _ (below_append top) linked with ⟨_, _, impossible⟩ | ⟨_, _, _, _, impossible, _⟩ |
        ⟨_, _, _, _, _, impossible, _⟩
      · cases impossible
      · cases impossible
      · cases impossible

end Steps

section Listing
variable {base disk : Disk} {cwd root : Location} {storePath module buildId : Text} {shelf : Shelf} {keep : Nat}

theorem mem_listSymbols_iff (keeps : Keeps base disk root shelf) (empty : EmptyStore base cwd storePath root) {size mtime : Nat} :
    ⟨module, buildId, size, mtime⟩ ∈ listSymbols disk cwd storePath ↔
      ∃ text, shelf.texts.lookup (module, buildId) = some text ∧ size = (encodeUtf8 text).length ∧
        mtime = shelf.times (module, buildId) := by
  have listed := (represents_of_refines keeps.refined empty).listed module buildId
  have time {size mtime : Nat} (member : ⟨module, buildId, size, mtime⟩ ∈ listSymbols disk cwd storePath) {text : Text}
      (kept : shelf.texts.lookup (module, buildId) = some text) : mtime = shelf.times (module, buildId) := by
    obtain ⟨_, _, _, stat⟩ := mem_listSymbols.mp member
    obtain ⟨_, _, file, content⟩ := find_stored keeps.refined empty kept
    have dated := keeps.dated module buildId text kept
    rw [stat_file file content] at stat
    cases stat
    rw [fileAt, dated] at content
    cases content
    rfl
  constructor
  · intro member
    obtain ⟨text, kept, same⟩ := (listed size).mp ⟨mtime, member⟩
    exact ⟨text, kept, same, time member kept⟩
  · rintro ⟨text, kept, rfl, rfl⟩
    obtain ⟨mtime, member⟩ := (listed _).mpr ⟨text, kept, rfl⟩
    rw [← time member kept]
    exact member

/-- The list command walks through the store as the application does. -/
theorem cmdList_eq (found : disk.find cwd (.parse storePath) = .directory root) :
    cmdList disk cwd storePath =
      ⟨some 0, if listSymbols disk cwd storePath = [] then ["  (no symbols stored)".toList]
        else (listSymbols disk cwd storePath).map fun entry => listLine entry.module entry.buildId entry.sizeBytes, disk⟩ := by
  have lines : (disk.sortedNames cwd (.parse storePath)).flatMap (fun module =>
      (disk.sortedNames cwd ((PurePath.parse storePath).child module)).filterMap
        (lineAt disk cwd ((PurePath.parse storePath).child module) module)) =
      (listSymbols disk cwd storePath).map fun entry => listLine entry.module entry.buildId entry.sizeBytes := by
    rw [listSymbols_eq, List.map_flatMap]
    congr 1
    funext module
    rw [List.map_filterMap]
    congr 1
    funext build
    unfold entryOf lineAt
    dsimp only
    cases disk.find cwd (((PurePath.parse storePath).child module).child build) with
    | directory place =>
      dsimp only
      rw [Option.map_map]
      rfl
    | file place => rfl
    | dangling place => rfl
  unfold cmdList
  dsimp only
  rw [found]
  dsimp only
  rw [lines]
  simp only [List.map_eq_nil_iff]

theorem mem_versions_shelf (keeps : Keeps base disk root shelf) (empty : EmptyStore base cwd storePath root) (proper : IsName module)
    {version : Nat × Text} : version ∈ versions disk cwd storePath module ↔
      (module, version.2) ∈ shelf.texts ∧ version.1 = shelf.times (module, version.2) := by
  rw [mem_versions_iff proper]
  simp only [mem_listSymbols_iff keeps empty, ← Finmap.lookup_isSome, Option.isSome_iff_exists]
  constructor
  · rintro ⟨_, text, kept, rfl, same⟩
    exact ⟨⟨text, kept⟩, same⟩
  · rintro ⟨⟨text, kept⟩, same⟩
    exact ⟨_, text, kept, rfl, same⟩

/-- What the code counts from the end of the sorted versions is the number of newer ones. -/
theorem old_iff (keeps : Keeps base disk root shelf) (empty : EmptyStore base cwd storePath root) (proper : IsName module)
    (kept : (module, buildId) ∈ shelf.texts) :
    buildId ∈ ((versions disk cwd storePath module).rdrop keep).map Prod.snd ↔ shelf.Old keep (module, buildId) := by
  have ascending : ((versions disk cwd storePath module).map toLex).Pairwise (· < ·) :=
    List.pairwise_map.mpr (versions_pairwise disk cwd storePath module)
  have member : toLex (shelf.age (module, buildId)) ∈ (versions disk cwd storePath module).map toLex :=
    List.mem_map_of_mem ((mem_versions_shelf keeps empty proper).mpr ⟨kept, rfl⟩)
  have newer : ∀ age, age ∈ Finset.image (fun other => toLex (shelf.age other))
      {other ∈ shelf.texts.keys | other.1 = module ∧ Before (shelf.age (module, buildId)) (shelf.age other)} ↔
      age ∈ (versions disk cwd storePath module).map toLex ∧ toLex (shelf.age (module, buildId)) < age := by
    intro age
    simp only [Finset.mem_filter, List.mem_map, Finset.mem_image, Finmap.mem_keys]
    constructor
    · rintro ⟨⟨_, build⟩, ⟨there, rfl, less⟩, rfl⟩
      exact ⟨⟨_, (mem_versions_shelf keeps empty proper).mpr ⟨there, rfl⟩, rfl⟩, less⟩
    · rintro ⟨⟨version, listed, rfl⟩, less⟩
      obtain ⟨there, time⟩ := (mem_versions_shelf keeps empty proper).mp listed
      have same : shelf.age (module, version.2) = version := Prod.ext time.symm rfl
      exact ⟨(module, version.2), ⟨there, rfl, by rw [Before, same]; exact less⟩, by rw [same]⟩
  have distinct : Set.InjOn (fun other => toLex (shelf.age other))
      ({other ∈ shelf.texts.keys | other.1 = module ∧ Before (shelf.age (module, buildId)) (shelf.age other)} : Finset (Text × Text)) := by
    rintro ⟨first, id⟩ one ⟨second, other⟩ two same
    have firstModule := (Finset.mem_filter.mp one).2.1
    have secondModule := (Finset.mem_filter.mp two).2.1
    have ids : id = other := congrArg (fun age => (ofLex age).2) same
    exact Prod.ext (firstModule.trans secondModule.symm) ids
  have rank := mem_rdrop_iff ascending member newer keep
  rw [Finset.card_image_of_injOn distinct] at rank
  have dropped : ((versions disk cwd storePath module).map toLex).rdrop keep = ((versions disk cwd storePath module).rdrop keep).map toLex := by
    rw [List.rdrop, List.length_map, List.rdrop, List.map_take]
  rw [dropped] at rank
  rw [Shelf.Old, ← rank]
  constructor
  · intro old
    obtain ⟨version, early, rfl⟩ := List.mem_map.mp old
    obtain ⟨_, time⟩ := (mem_versions_shelf keeps empty proper).mp (List.mem_of_mem_take early)
    have same : shelf.age (module, version.2) = version := Prod.ext time.symm rfl
    rw [same]
    exact List.mem_map_of_mem early
  · intro old
    obtain ⟨version, early, same⟩ := List.mem_map.mp old
    exact List.mem_map.mpr ⟨version, early, congrArg (fun age => (ofLex age).2) same⟩

end Listing

section Pruning
variable {base disk after : Disk} {cwd root : Location} {storePath module buildId : Text} {shelf : Shelf} {keep : Int}

theorem nesting_pruneVersions (moduleDir : PurePath) (versions : List (Nat × Text)) (removed : List Text) :
    (pruneVersions cwd moduleDir module versions disk removed).2.nesting = disk.nesting := by
  induction versions generalizing disk removed with
  | nil => rfl
  | cons version versions ih =>
    rw [pruneVersions]
    cases gone : disk.rmtree cwd moduleDir version.2 with
    | none => rfl
    | some after =>
      obtain ⟨here, _, _, rfl⟩ := rmtree_eq_some.mp gone
      exact ih _

theorem nesting_pruneModules (store : PurePath) (names removed : List Text) :
    (pruneModules cwd store keep names disk removed).2.nesting = disk.nesting := by
  induction names generalizing disk removed with
  | nil => rfl
  | cons module names ih =>
    rw [pruneModules]
    split
    next place found =>
      have own := @nesting_pruneVersions disk cwd module (store.child module)
        (beyond keep (versionsOf disk cwd (store.child module) module)) removed
      split
      next more after pruned =>
        rw [pruned] at own
        exact (ih more).trans own
      next failed => exact own
    next => exact ih removed

theorem Keeps.module_there (keeps : Keeps base disk root shelf) (kept : (module, buildId) ∈ shelf.texts) :
    disk.node (root ++ [module]) = some .directory := by
  obtain ⟨text, found⟩ := Option.isSome_iff_exists.mp (Finmap.lookup_isSome.mpr kept)
  exact (keeps.refined.stored_directory found).1

theorem mem_oldVersions_iff (keeps : Keeps base disk root shelf) (empty : EmptyStore base cwd storePath root) :
    (module, buildId) ∈ oldVersions disk cwd storePath keep (modules disk cwd storePath) ↔
      (module, buildId) ∈ shelf.texts ∧ shelf.Old keep.toNat (module, buildId) := by
  rw [mem_oldVersions]
  constructor
  · intro ⟨listed, old⟩
    have proper := isName_of_mem_modules listed
    obtain ⟨version, early, rfl⟩ := List.mem_map.mp old
    have kept := ((mem_versions_shelf keeps empty proper).mp (List.mem_of_mem_take early)).1
    exact ⟨kept, (old_iff keeps empty proper kept).mp old⟩
  · intro ⟨kept, old⟩
    have there := keeps.module_there kept
    have proper := (held_of_node there).1
    have led : disk.find cwd (moduleDir storePath module) = .directory (root ++ [module]) :=
      find_directory (keeps.refined.find_store empty) there
    exact ⟨module_listed proper led, (old_iff keeps empty proper kept).mpr old⟩

/-- The old versions in the order in which they go. -/
theorem oldVersions_pairwise (keeps : Keeps base disk root shelf) (empty : EmptyStore base cwd storePath root) :
    (oldVersions disk cwd storePath keep (modules disk cwd storePath)).Pairwise (Removed shelf) := by
  rw [oldVersions, List.pairwise_flatMap]
  constructor
  · intro module listed
    have proper := isName_of_mem_modules listed
    have aged {version : Nat × Text} (early : version ∈ (versions disk cwd storePath module).rdrop keep.toNat) :
        shelf.age (module, version.2) = version :=
      Prod.ext ((mem_versions_shelf keeps empty proper).mp (List.mem_of_mem_take early)).2.symm rfl
    rw [List.pairwise_map]
    refine ((versions_pairwise disk cwd storePath module).sublist (List.take_sublist _ _)).imp_of_mem ?_
    intro older newer first second before
    exact Or.inr ⟨rfl, by rw [aged first, aged second]; exact before⟩
  · refine (sortedNames_pairwise disk cwd _).imp fun before first one second other => ?_
    obtain ⟨_, _, rfl⟩ := List.mem_map.mp one
    obtain ⟨_, _, rfl⟩ := List.mem_map.mp other
    exact Or.inl before

theorem under_oldVersions_iff (keeps : Keeps base disk root shelf) (empty : EmptyStore base cwd storePath root) {location : Location} :
    Under disk cwd storePath (oldVersions disk cwd storePath keep (modules disk cwd storePath)) location ↔
      ∃ module build, (module, build) ∈ shelf.texts ∧ shelf.Old keep.toNat (module, build) ∧ root ++ [module] ++ [build] <+: location := by
  have led {module build : Text} (kept : (module, build) ∈ shelf.texts) :
      disk.find cwd (moduleDir storePath module) = .directory (root ++ [module]) :=
    find_directory (keeps.refined.find_store empty) (keeps.module_there kept)
  constructor
  · rintro ⟨⟨module, build⟩, member, here, found, within⟩
    obtain ⟨kept, old⟩ := (mem_oldVersions_iff keeps empty).mp member
    obtain rfl := Entry.directory.inj (found.symm.trans (led kept))
    exact ⟨module, build, kept, old, within⟩
  · rintro ⟨module, build, kept, old, within⟩
    exact ⟨(module, build), (mem_oldVersions_iff keeps empty).mpr ⟨kept, old⟩, _, led kept, within⟩

/-- A disk that has lost just the old versions keeps the pruned store. -/
theorem Keeps.cut (keeps : Keeps base disk root shelf) (empty : EmptyStore base cwd storePath root)
    (cut : Cut cwd storePath disk after (oldVersions disk cwd storePath keep (modules disk cwd storePath)))
    (nesting : after.nesting = disk.nesting) : Keeps base after root (shelf.prune keep.toNat) := by
  have less : ∀ location node, after.node location = some node → ¬ Under disk cwd storePath
      (oldVersions disk cwd storePath keep (modules disk cwd storePath)) location ∧ disk.node location = some node := by
    intro location node left
    by_cases gone : Under disk cwd storePath (oldVersions disk cwd storePath keep (modules disk cwd storePath)) location
    · exact nomatch (cut.lost location gone).symm.trans left
    · exact ⟨gone, (cut.kept location gone).symm.trans left⟩
  have outside {module build text : Text} (kept : shelf.texts.lookup (module, build) = some text) {location : Location}
      (within : root ++ [module] ++ [build] <+: location) {node : Node} (left : after.node location = some node) :
      (shelf.prune keep.toNat).texts.lookup (module, build) = some text := by
    refine Shelf.lookup_prune.mpr ⟨kept, fun old => (less location node left).1 ((under_oldVersions_iff keeps empty).mpr ?_)⟩
    exact ⟨module, build, Finmap.lookup_isSome.mp (Option.isSome_of_eq_some kept), old, within⟩
  refine keeps.shrink ⟨nesting.trans keeps.refined.nesting, ?_, ?_, ?_⟩ (fun location node left => (less location node left).2)
    fun key text kept => ⟨(Shelf.lookup_prune.mp kept).1, rfl⟩
  · intro location node there
    rw [cut.kept]
    · exact keeps.refined.grown location node there
    · intro gone
      obtain ⟨module, build, _, _, within⟩ := (under_oldVersions_iff keeps empty).mp gone
      have below : Below root location := by
        refine ⟨below_version.1.trans within, ?_⟩
        rintro rfl
        exact absurd within.length_le (by simp)
      exact nomatch (empty.empty location below).symm.trans there
  · intro module buildId text kept
    obtain ⟨before, young⟩ := Shelf.lookup_prune.mp kept
    obtain ⟨mtime, there⟩ := keeps.refined.stored module buildId text before
    refine ⟨mtime, ?_⟩
    rw [cut.kept, there]
    intro gone
    obtain ⟨other, build, _, old, within⟩ := (under_oldVersions_iff keeps empty).mp gone
    have same := List.prefix_of_prefix_length_le within (List.prefix_append (root ++ [module] ++ [buildId]) [symName module]) (by simp)
    rw [← version_inj (same.eq_of_length (by simp))] at young
    exact young old
  · intro location node below left
    rcases keeps.refined.holds location node below (less location node left).2 with emptied | ⟨module, build, text, rfl, directory, kept⟩ |
      ⟨module, build, text, mtime, rfl, file, kept⟩
    · exact Or.inl emptied
    · exact Or.inr (Or.inl ⟨module, build, text, rfl, directory, outside kept (List.prefix_refl _) left⟩)
    · exact Or.inr (Or.inr ⟨module, build, text, mtime, rfl, file, outside kept (List.prefix_append _ _) left⟩)

/-- Pruning makes of a store what it makes of its map. -/
theorem prune_keeps (keeps : Keeps base disk root shelf) (empty : EmptyStore base cwd storePath root) (positive : 1 ≤ keep) :
    (cmdPrune disk cwd storePath keep).exitCode = some 0 ∧
      (cmdPrune disk cwd storePath keep).output =
        (oldVersions disk cwd storePath keep (modules disk cwd storePath)).map (fun key => removing key.1 key.2) ∧
      Keeps base (cmdPrune disk cwd storePath keep).disk root (shelf.prune keep.toNat) := by
  have found := keeps.refined.find_store empty
  have proper : ∀ name ∈ modules disk cwd storePath, IsName name := fun _ => isName_of_mem_modules
  have distinct : (modules disk cwd storePath).Nodup := (sortedNames_pairwise disk cwd _).imp fun before => ne_of_lt before
  obtain ⟨after, ran, cut⟩ := @undisturbed_cut disk cwd storePath keep (modules disk cwd storePath) [] positive proper distinct
    (plain_undisturbed (keeps.plain empty) proper)
  have command : cmdPrune disk cwd storePath keep =
      pruneModuleDirs cwd (.parse storePath) keep (modules disk cwd storePath) disk [] := by
    rw [cmdPrune, found]
    exact if_neg (by omega)
  have agrees := @pruneModuleDirs_agrees disk cwd storePath keep [] [] (modules disk cwd storePath)
  rw [ran, ← command] at agrees
  have nesting := @nesting_pruneModules disk cwd keep (.parse storePath) (modules disk cwd storePath) []
  rw [ran] at nesting
  obtain ⟨exit, new, printed, lines⟩ := agrees.ended _ rfl
  refine ⟨exit, ?_, ?_⟩
  · rw [lines, ← List.nil_append new, ← printed, List.nil_append, List.nil_append, List.map_map]
    rfl
  · rw [agrees.disk]
    exact keeps.cut empty cut nesting

end Pruning

section Adding
variable {base disk after : Disk} {cwd root : Location} {storePath module buildId text : Text} {shelf : Shelf} {path : PurePath}
  {dumpSyms : PurePath → Dump × Nat}

theorem mkdirParents_present (found : disk.find cwd (.parse storePath) = .directory root) :
    disk.tree.mkdirParents ((PurePath.parse storePath).startFrom cwd) (PurePath.parse storePath).tail.reverse = (.ok (), []) := by
  obtain ⟨clean, walked⟩ := walk_of_find found
  obtain ⟨nothing, placed⟩ := FileTree.nothing_missing_of_walk walked
  have reversed : ¬ FileTree.HasNull (PurePath.parse storePath).tail.reverse :=
    fun ⟨name, member, null⟩ => clean ⟨name, List.mem_reverse.mp member, null⟩
  have settled := @FileTree.mkdirParents_settled disk.tree ((PurePath.parse storePath).startFrom cwd) _ reversed
  rw [List.reverse_reverse] at settled
  generalize disk.tree.mkdirParents _ _ = outcome at settled ⊢
  cases settled with
  | @made here made _ _ same =>
    rw [nothing] at same
    rw [List.eq_nil_iff_forall_not_mem.mpr fun location member => List.not_mem_nil ((same location).mp member)]
  | stopped stuck =>
    rw [placed, nothing] at stuck
    rcases stuck with impossible | ⟨_, member, _⟩
    · cases impossible
    · exact absurd member List.not_mem_nil

theorem relativeTo_stored (storePath module buildId : Text) :
    relativeTo (symFileOf storePath module buildId) (.parse storePath) = some (Shelf.shown module buildId) := by
  have below := symFileOf_tail storePath module buildId
  rw [relativeTo, if_pos ⟨rfl, below ▸ List.prefix_append _ _⟩, below, List.drop_left]
  simp [PurePath.str, Shelf.shown]

theorem stays_onto (room : Room disk root module buildId) {result : Except StoreError PurePath} {now : Nat} :
    Stays disk ((Outcome.mk result (newDirs disk.tree root module buildId)
      (some (root ++ [module] ++ [buildId] ++ [symName module], text))).onto disk now) := by
  intro location node there
  rw [node_onto room]
  split
  next symFile =>
    rw [symFile] at there
    refine Or.inr ⟨?_, _, _, rfl⟩
    rcases room.symFile with absent | ⟨content, mtime, file⟩
    · exact nomatch absent.symm.trans there
    · exact ⟨content, mtime, Option.some.inj (there.symm.trans file)⟩
  next =>
    split
    next made =>
      rcases made with rfl | rfl
      · rw [← there, room.moduleDir.resolve_left (by rw [there]; exact Option.some_ne_none node)]
        exact Or.inl rfl
      · rw [← there, room.buildDir.resolve_left (by rw [there]; exact Option.some_ne_none node)]
        exact Or.inl rfl
    next => exact Or.inl there

theorem Present.stays (present : Present disk cwd path) (stays : Stays disk after) (nesting : after.nesting = disk.nesting) :
    Present after cwd path := by
  intro target
  rw [stays.find nesting present]
  exact present target

/-- Storing a dumped text, as the application would. -/
theorem Keeps.store (keeps : Keeps base disk root shelf) (empty : EmptyStore base cwd storePath root) (now : Nat)
    (parsed : parseModuleLine text = .ok (module, buildId)) (properModule : IsName module) (properId : IsName buildId) :
    (Tools.Syms.storeSym disk cwd now (.parse storePath) module buildId text).1 = .ok (symFileOf storePath module buildId) ∧
      Keeps base (Tools.Syms.storeSym disk cwd now (.parse storePath) module buildId text).2 root
        (shelf.put (module, buildId) text now) ∧
      Stays disk (Tools.Syms.storeSym disk cwd now (.parse storePath) module buildId text).2 := by
  have room := keeps.refined.room empty properModule properId
  have put := keeps.put empty now parsed properModule properId
  rw [keeps.perform_add empty now parsed properModule properId] at put
  rw [storeSym_room room (keeps.refined.find_store empty)]
  exact ⟨rfl, put, stays_onto room⟩

theorem addBinaries_keeps (proper : Proper (.add args dumpSyms)) (empty : EmptyStore base cwd storePath root)
    (keeps : Keeps base disk root shelf) (binaries : List PurePath) (errors : Nat) (output : List Text) :
    let answer := addBinaries cwd (.parse storePath) dumpSyms binaries disk errors output
    (∀ path, Present disk cwd path → Present answer.disk cwd path) ∧
      ∃ there : List Bool, List.Forall₂ (Finds cwd disk answer.disk) binaries there ∧
        ∃ later, (answer.exitCode, answer.output, later) = Shelf.add dumpSyms (binaries.zip there) errors output shelf ∧
          Keeps base answer.disk root later := by
  induction binaries generalizing disk shelf errors output with
  | nil => exact ⟨fun _ present => present, [], .nil, shelf, rfl, keeps⟩
  | cons binary binaries ih =>
    dsimp only
    rw [addBinaries]
    split
    next target missing =>
      obtain ⟨stay, there, finds, later, same, kept⟩ := ih keeps (errors + 1) output
      exact ⟨stay, false :: there, .cons ⟨fun present => absurd missing (present target), nofun⟩ finds, later, same, kept⟩
    next leads =>
      have present : Present disk cwd binary := leads
      cases parsed : (dumpSyms binary).1.parsed with
      | error raised =>
        -- The binaries behind it are not looked at.
        classical
        refine ⟨fun _ present => present, true :: binaries.map fun other => decide (Present disk cwd other),
          .cons ⟨fun _ => rfl, fun _ => present⟩ ?_, shelf, ?_, keeps⟩
        · rw [List.forall₂_map_right_iff, List.forall₂_same]
          exact fun other _ => ⟨decide_eq_true, of_decide_eq_true⟩
        · rw [List.zip_cons_cons, Shelf.add, parsed]
      | ok dumped =>
        cases dumped with
        | none =>
          obtain ⟨stay, there, finds, later, same, kept⟩ := ih keeps (errors + 1) output
          refine ⟨stay, true :: there, .cons ⟨fun _ => rfl, fun _ => stay _ present⟩ finds, later, ?_, kept⟩
          rw [List.zip_cons_cons, Shelf.add, parsed]
          exact same
        | some version =>
          obtain ⟨module, buildId, text⟩ := version
          obtain ⟨properModule, properId⟩ := proper binary module buildId text parsed
          have stored := keeps.store empty (dumpSyms binary).2 (parse_of_dump parsed) properModule properId
          dsimp only
          generalize Tools.Syms.storeSym disk cwd (dumpSyms binary).2 (.parse storePath) module buildId text = outcome at stored ⊢
          obtain ⟨dest, after⟩ := outcome
          obtain ⟨rfl, put, stays⟩ := stored
          have nesting := put.refined.nesting.trans keeps.refined.nesting.symm
          dsimp only
          rw [relativeTo_stored]
          obtain ⟨stay, there, finds, later, same, kept⟩ := ih put errors (output ++ [storedLine (Shelf.shown module buildId)])
          have remains (path : PurePath) (before : Present disk cwd path) := stay path (before.stays stays nesting)
          refine ⟨remains, true :: there, .cons ⟨fun _ => rfl, fun _ => remains _ present⟩ (finds.imp fun other found own =>
            ⟨fun before => own.1 (before.stays stays nesting), own.2⟩), later, ?_, kept⟩
          rw [List.zip_cons_cons, Shelf.add, parsed]
          exact same

end Adding

section Calls
variable {base disk : Disk} {cwd root : Location} {storePath : Text} {shelf : Shelf}

theorem web_keeps (keeps : Keeps base disk root shelf) (empty : EmptyStore base cwd storePath root) {request : SymbolMap.Request}
    (proper : Proper (.web request)) : Keeps base (SymbolMap.perform cwd storePath disk request) root (shelf.serve request) := by
  cases request with
  | delete module buildId => exact keeps.drop empty proper.1 proper.2
  | add symText now =>
    rw [Shelf.serve]
    cases parsed : parseModuleLine symText with
    | ok key =>
      obtain ⟨properModule, properId⟩ := proper key.1 key.2 parsed
      exact keeps.put empty now parsed properModule properId
    | error error =>
      have same : SymbolMap.perform cwd storePath disk (.add symText now) = disk := by
        rw [SymbolMap.perform, addSymText, parsed]
        rfl
      rw [same]
      exact keeps

/-- Each call makes of the disk what it makes of the abstract store. -/
theorem call_serves (keeps : Keeps base disk root shelf) (empty : EmptyStore base cwd storePath root) {call : Call} (proper : Proper call) :
    ∃ later, Serves cwd disk shelf call (make cwd storePath disk call) later ∧ Keeps base (make cwd storePath disk call).disk root later := by
  have found := keeps.refined.find_store empty
  cases call with
  | web request => exact ⟨_, rfl, web_keeps keeps empty proper⟩
  | add args dumpSyms =>
    simp only [make, Serves, cmdAdd, mkdirParents_present found, List.foldl_nil]
    cases binariesOf disk cwd args with
    | error exitCode => exact ⟨shelf, ⟨rfl, rfl, rfl⟩, keeps⟩
    | ok binaries =>
      obtain ⟨_, there, finds, later, same, kept⟩ := addBinaries_keeps proper empty keeps binaries 0 []
      exact ⟨later, ⟨there, finds, same⟩, kept⟩
  | list =>
    have represents := represents_of_refines keeps.refined empty
    rw [make, cmdList_eq found]
    refine ⟨shelf, ⟨rfl, rfl, (listSymbols disk cwd storePath).map fun entry => (entry.module, entry.buildId), ?_, ?_, ?_⟩, keeps⟩
    · exact List.pairwise_map.mpr represents.sorted
    · intro key
      rw [List.mem_map, ← Finmap.lookup_isSome, Option.isSome_iff_exists]
      constructor
      · rintro ⟨entry, member, rfl⟩
        obtain ⟨text, kept, _⟩ := (mem_listSymbols_iff keeps empty).mp member
        exact ⟨text, kept⟩
      · rintro ⟨text, kept⟩
        exact ⟨_, (mem_listSymbols_iff keeps empty).mpr ⟨text, kept, rfl, rfl⟩, rfl⟩
    · simp only [List.map_eq_nil_iff]
      congr 1
      rw [List.map_map]
      refine List.map_congr_left fun entry member => ?_
      obtain ⟨text, kept, size, _⟩ := (mem_listSymbols_iff keeps empty).mp member
      rw [Function.comp_apply, lineOf, kept, Option.elim_some, size]
  | prune keep =>
    by_cases positive : keep < 1
    · have refused : cmdPrune disk cwd storePath keep = ⟨some 1, [], disk⟩ := by
        rw [cmdPrune, found]
        exact if_pos positive
      rw [make, refused]
      refine ⟨shelf, ?_, keeps⟩
      rw [Serves, if_pos positive]
      exact ⟨rfl, rfl, rfl⟩
    · obtain ⟨exit, lines, pruned⟩ := prune_keeps keeps empty (not_lt.mp positive)
      refine ⟨shelf.prune keep.toNat, ?_, pruned⟩
      rw [Serves, if_neg positive]
      exact ⟨rfl, exit, _, oldVersions_pairwise keeps empty, fun _ => mem_oldVersions_iff keeps empty, lines⟩

theorem calls_serve (empty : EmptyStore base cwd storePath root) (keeps : Keeps base disk root shelf) (calls : List Call)
    (proper : ∀ call ∈ calls, Proper call) :
    ∃ last, Serving cwd storePath disk shelf calls last ∧
      Keeps base (calls.foldl (fun disk call => (make cwd storePath disk call).disk) disk) root last := by
  induction calls generalizing disk shelf with
  | nil => exact ⟨shelf, rfl, keeps⟩
  | cons call calls ih =>
    obtain ⟨own, proper⟩ := List.forall_mem_cons.mp proper
    obtain ⟨later, serves, kept⟩ := call_serves keeps empty own
    obtain ⟨last, serving, ends⟩ := ih kept proper
    exact ⟨last, ⟨later, serves, serving⟩, ends⟩

end Calls

/-- Whatever the application and crashomon-syms do with a store that was empty, they print, return and leave what the
abstract store gives, and in the end the store shows it. No name is too long for the disk, which is never full. -/
theorem store_serves {base : Disk} {cwd root : Location} {storePath : Text} (empty : EmptyStore base cwd storePath root)
    (times : Text × Text → Nat) (calls : List Call) (proper : ∀ call ∈ calls, Proper call) :
    ∃ last, Serving cwd storePath base ⟨∅, times⟩ calls last ∧
      Represents (calls.foldl (fun disk call => (make cwd storePath disk call).disk) base) cwd storePath last.texts := by
  obtain ⟨last, serving, keeps⟩ := calls_serve empty (Keeps.initial empty times) calls proper
  exact ⟨last, serving, represents_of_refines keeps.refined empty⟩

/-- An empty store beside the database and a binary. -/
def beforeBuild : Disk := freshStore.put [] "app".toList (.file elfMagic 0)

theorem empty_beforeBuild : EmptyStore beforeBuild [] "/store".toList ["store".toList] := by
  refine ⟨by decide +kernel, fun location below => ?_, ["crashes.db".toList], [], 0, by decide +kernel⟩
  have keys : beforeBuild.nodes.map Prod.fst = [["app".toList], ["crashes.db".toList], ["store".toList]] := by decide +kernel
  cases there : beforeBuild.node location with
  | none => rfl
  | some node =>
    have present : location ≠ [] := by
      rintro rfl
      exact absurd (List.prefix_nil.mp below.1) (by decide)
    have member := mem_keys present there
    simp only [keys, List.mem_cons, List.not_mem_nil, or_false] at member
    rcases member with rfl | rfl | rfl
    · exact absurd below.1 (by decide)
    · exact absurd below.1 (by decide)
    · exact absurd rfl below.2

def rebuiltSym : Text := "MODULE Linux x86_64 B app\n".toList

/-- A version comes by the application, the next one from its binary, the old one goes. -/
def buildCalls : List Call :=
  [.web (.add appSym 1), .add ⟨[], [], ["/app".toList]⟩ fun _ => (.ended 0 rebuiltSym, 2), .prune 1, .list]

theorem build_serves : ∃ last, Serving [] "/store".toList beforeBuild ⟨∅, fun _ => 0⟩ buildCalls last ∧
    Represents (buildCalls.foldl (fun disk call => (make [] "/store".toList disk call).disk) beforeBuild) [] "/store".toList last.texts := by
  refine store_serves empty_beforeBuild _ buildCalls ?_
  intro call member
  simp only [buildCalls, List.mem_cons, List.not_mem_nil, or_false] at member
  rcases member with rfl | rfl | rfl | rfl
  · intro module buildId parsed
    have names : parseModuleLine appSym = .ok ("app".toList, "A".toList) := by decide +kernel
    cases names.symm.trans parsed
    decide
  · intro binary module buildId text parsed
    have names : (Dump.ended 0 rebuiltSym).parsed = .ok (some ("app".toList, "B".toList, rebuiltSym)) := by rfl
    cases names.symm.trans parsed
    decide
  · trivial
  · trivial

end Crashomon.Proofs.StoreRuns
