import Crashomon.Proofs.SymbolDeletion
import Crashomon.Proofs.SymbolStoring
import Mathlib.Data.Finmap

/-! The symbol store as a map. Whatever is added and deleted, its directories and files hold the
texts of a finite map from module and build ID, and listing and finding read it back. -/

namespace Crashomon.Proofs.SymbolMap
open Disk Location Python Web.SymbolStore Web.SymbolRoutes SymbolPaths SymbolStoring SymbolDeletion

inductive Request where
  | add (symText : Text) (now : Nat)
  | delete (module buildId : Text)

def perform (cwd : Location) (storePath : Text) (disk : Disk) : Request → Disk
  | .add symText now => (addSymText disk.tree cwd storePath symText).onto disk now
  | .delete module buildId => deleteSymbol disk cwd storePath module buildId

abbrev TextMap := Finmap fun _ : Text × Text => Text

def apply (map : TextMap) : Request → TextMap
  | .add symText _ =>
    match parseModuleLine symText with
    | .ok key => map.insert key symText
    | .error _ => map
  | .delete module buildId => map.erase (module, buildId)

def keyOf : Request → Option (Text × Text)
  | .add symText _ => (parseModuleLine symText).toOption
  | .delete module buildId => some (module, buildId)

/-- The module name and the build ID of a request are single components of a path. -/
def Named (request : Request) : Prop := ∃ module buildId, keyOf request = some (module, buildId) ∧ IsName module ∧ IsName buildId

/-- A store with nothing in it. The application has opened its database before it takes requests. -/
structure EmptyStore (disk : Disk) (cwd : Location) (storePath : Text) (root : Location) : Prop where
  directory : disk.find cwd (PurePath.parse storePath) = .directory root
  empty : ∀ location, Below root location → disk.node location = none
  database : ∃ location content mtime, disk.node location = some (.file content mtime)

/-- The directories and files of a store are those of a map's keys and texts, and emptied modules. The rest of the disk
has what it had. -/
structure Refines (base disk : Disk) (root : Location) (map : TextMap) : Prop where
  nesting : disk.nesting = base.nesting
  grown : ∀ location node, base.node location = some node → disk.node location = some node
  stored : ∀ module buildId text, map.lookup (module, buildId) = some text →
    ∃ mtime, disk.node (root ++ [module] ++ [buildId] ++ [symName module]) = some (.file (encodeUtf8 text) mtime)
  holds : ∀ location node, Below root location → disk.node location = some node →
    (∃ module, location = root ++ [module] ∧ node = .directory) ∨
    (∃ module buildId text, location = root ++ [module] ++ [buildId] ∧ node = .directory ∧ map.lookup (module, buildId) = some text) ∨
    ∃ module buildId text mtime, location = root ++ [module] ++ [buildId] ++ [symName module] ∧
      node = .file (encodeUtf8 text) mtime ∧ map.lookup (module, buildId) = some text

section Locations
variable {root : Location} {module buildId : Text}

theorem below_append {rest : Location} (more : rest ≠ []) : Below root (root ++ rest) := by
  refine ⟨List.prefix_append root rest, fun same => ?_⟩
  exact more (List.append_right_eq_self.mp same.symm)

theorem below_module : Below root (root ++ [module]) := below_append (by simp)

theorem below_version : Below root (root ++ [module] ++ [buildId]) := by
  rw [List.append_assoc]
  exact below_append (by simp)

theorem below_file : Below root (root ++ [module] ++ [buildId] ++ [symName module]) := by
  rw [List.append_assoc, List.append_assoc]
  exact below_append (by simp)

theorem version_inj {other id : Text} (same : root ++ [module] ++ [buildId] = root ++ [other] ++ [id]) : (module, buildId) = (other, id) := by
  simpa using same

theorem file_inj {other id : Text}
    (same : root ++ [module] ++ [buildId] ++ [symName module] = root ++ [other] ++ [id] ++ [symName other]) :
    (module, buildId) = (other, id) :=
  version_inj (List.append_inj' same rfl).1

theorem apart_of_length {first second : Location} (different : first.length ≠ second.length) : first ≠ second :=
  fun same => different (by rw [same])

end Locations

section Invariant
variable {base disk : Disk} {cwd root : Location} {storePath module buildId text : Text} {map : TextMap}

theorem EmptyStore.named (empty : EmptyStore base cwd storePath root) : root ≠ [] := by
  rintro rfl
  obtain ⟨location, content, mtime, present⟩ := empty.database
  cases location with
  | nil => exact nomatch present
  | cons name location =>
    exact nomatch (empty.empty (name :: location) ⟨List.nil_prefix, by simp⟩).symm.trans present

theorem EmptyStore.refines (empty : EmptyStore base cwd storePath root) : Refines base base root ∅ := by
  refine ⟨rfl, fun _ _ there => there, fun module buildId text found => ?_, fun location node below there => ?_⟩
  · rw [Finmap.lookup_empty] at found
    cases found
  · exact nomatch (empty.empty location below).symm.trans there

theorem Refines.find_store (refined : Refines base disk root map) (empty : EmptyStore base cwd storePath root) :
    disk.find cwd (PurePath.parse storePath) = .directory root :=
  find_mono refined.grown refined.nesting empty.directory

theorem Refines.module_directory (refined : Refines base disk root map) {node : Node} (there : disk.node (root ++ [module]) = some node) :
    node = .directory := by
  rcases refined.holds _ node below_module there with ⟨_, _, directory⟩ | ⟨_, _, _, impossible, _⟩ | ⟨_, _, _, _, impossible, _⟩
  · exact directory
  · exact absurd impossible (apart_of_length (by simp))
  · exact absurd impossible (apart_of_length (by simp))

theorem Refines.version_directory (refined : Refines base disk root map) {node : Node}
    (there : disk.node (root ++ [module] ++ [buildId]) = some node) :
    node = .directory ∧ ∃ text, map.lookup (module, buildId) = some text := by
  rcases refined.holds _ node below_version there with ⟨_, impossible, _⟩ | ⟨other, id, text, same, directory, found⟩ |
      ⟨_, _, _, _, impossible, _⟩
  · exact absurd impossible (apart_of_length (by simp))
  · rw [← version_inj same] at found
    exact ⟨directory, text, found⟩
  · exact absurd impossible (apart_of_length (by simp))

theorem Refines.file_there (refined : Refines base disk root map) {node : Node}
    (there : disk.node (root ++ [module] ++ [buildId] ++ [symName module]) = some node) : ∃ content mtime, node = .file content mtime := by
  rcases refined.holds _ node below_file there with ⟨_, impossible, _⟩ | ⟨_, _, _, impossible, _⟩ | ⟨_, _, text, mtime, _, same, _⟩
  · exact absurd impossible (apart_of_length (by simp))
  · exact absurd impossible (apart_of_length (by simp))
  · exact ⟨_, mtime, same⟩

theorem Refines.stored_directory (refined : Refines base disk root map) (found : map.lookup (module, buildId) = some text) :
    disk.node (root ++ [module]) = some .directory ∧ disk.node (root ++ [module] ++ [buildId]) = some .directory := by
  obtain ⟨mtime, there⟩ := refined.stored module buildId text found
  have version := (held_of_node there).2
  exact ⟨(held_of_node version).2, version⟩

theorem Refines.room (refined : Refines base disk root map) (empty : EmptyStore base cwd storePath root) (properModule : IsName module)
    (properId : IsName buildId) : Room disk root module buildId := by
  refine ⟨properModule, properId, directory_of_find (refined.find_store empty), ?_, ?_, ?_⟩
  · cases there : disk.node (root ++ [module]) with
    | none => exact Or.inl rfl
    | some node => exact Or.inr (congrArg some (refined.module_directory there))
  · cases there : disk.node (root ++ [module] ++ [buildId]) with
    | none => exact Or.inl rfl
    | some node => exact Or.inr (congrArg some (refined.version_directory there).1)
  · cases there : disk.node (root ++ [module] ++ [buildId] ++ [symName module]) with
    | none => exact Or.inl rfl
    | some node =>
      obtain ⟨content, mtime, rfl⟩ := refined.file_there there
      exact Or.inr ⟨content, mtime, rfl⟩

end Invariant

section Steps
variable {base disk : Disk} {cwd root : Location} {storePath module buildId : Text} {map : TextMap}

theorem add_refines (refined : Refines base disk root map) (empty : EmptyStore base cwd storePath root) {symText : Text} (now : Nat)
    (parsed : parseModuleLine symText = .ok (module, buildId)) (properModule : IsName module) (properId : IsName buildId) :
    Refines base (perform cwd storePath disk (.add symText now)) root (map.insert (module, buildId) symText) := by
  have room := refined.room empty properModule properId
  have way := walk_of_find (refined.find_store empty)
  have stored := addSymText_open parsed properModule properId room.open way.1 way.2
  have node := node_onto room (.ok (symFileOf storePath module buildId)) symText now
  have same : perform cwd storePath disk (.add symText now) = _ := congrArg (Outcome.onto · disk now) stored
  rw [same]
  refine ⟨(nesting_onto _ disk now).trans refined.nesting, fun location old there => ?_, fun other id text kept => ?_,
    fun location new below there => ?_⟩
  · have outside : ¬ Below root location := fun below => nomatch (empty.empty location below).symm.trans there
    rw [node, if_neg, if_neg]
    · exact refined.grown location old there
    · rintro (rfl | rfl)
      · exact outside below_module
      · exact outside below_version
    · rintro rfl
      exact outside below_file
  · rw [node]
    by_cases key : (other, id) = (module, buildId)
    · obtain ⟨rfl, rfl⟩ := Prod.mk.inj key
      rw [Finmap.lookup_insert] at kept
      cases kept
      exact ⟨now, if_pos rfl⟩
    · rw [Finmap.lookup_insert_of_ne _ key] at kept
      obtain ⟨mtime, there⟩ := refined.stored other id text kept
      refine ⟨mtime, ?_⟩
      rw [if_neg fun same => key (file_inj same), if_neg]
      · exact there
      · rintro (impossible | impossible)
        · exact apart_of_length (by simp) impossible
        · exact apart_of_length (by simp) impossible
  · rw [node] at there
    by_cases isFile : location = root ++ [module] ++ [buildId] ++ [symName module]
    · rw [if_pos isFile] at there
      exact Or.inr (Or.inr ⟨module, buildId, symText, now, isFile, (Option.some.inj there).symm, Finmap.lookup_insert _⟩)
    · rw [if_neg isFile] at there
      by_cases isModule : location = root ++ [module]
      · rw [if_pos (Or.inl isModule)] at there
        exact Or.inl ⟨module, isModule, (Option.some.inj there).symm⟩
      · by_cases isVersion : location = root ++ [module] ++ [buildId]
        · rw [if_pos (Or.inr isVersion)] at there
          exact Or.inr (Or.inl ⟨module, buildId, symText, isVersion, (Option.some.inj there).symm, Finmap.lookup_insert _⟩)
        · rw [if_neg (not_or.mpr ⟨isModule, isVersion⟩)] at there
          rcases refined.holds location new below there with emptied | ⟨other, id, text, same, directory, kept⟩ |
              ⟨other, id, text, mtime, same, file, kept⟩
          · exact Or.inl emptied
          · have key : (other, id) ≠ (module, buildId) := by
              rintro ⟨⟩
              exact isVersion same
            rw [← Finmap.lookup_insert_of_ne _ key] at kept
            exact Or.inr (Or.inl ⟨other, id, text, same, directory, kept⟩)
          · have key : (other, id) ≠ (module, buildId) := by
              rintro ⟨⟩
              exact isFile same
            rw [← Finmap.lookup_insert_of_ne _ key] at kept
            exact Or.inr (Or.inr ⟨other, id, text, mtime, same, file, kept⟩)

theorem resolve_version (refined : Refines base disk root map) (empty : EmptyStore base cwd storePath root) (properModule : IsName module)
    (properId : IsName buildId) : disk.resolve cwd (destDirOf storePath module buildId) = some (root ++ [module] ++ [buildId]) := by
  have room := refined.room empty properModule properId
  have moduleDir : ∀ text, disk.node (root ++ [module]) ≠ some (.link text) := by
    intro text link
    exact nomatch refined.module_directory link
  have buildDir : ∀ text, disk.node (root ++ [module] ++ [buildId]) ≠ some (.link text) := by
    intro text link
    exact nomatch (refined.version_directory link).1
  have first := resolve_child (resolve_of_find (refined.find_store empty)) properModule.2.2.2.2
  rw [resolveName_plain moduleDir properModule.2.2.1] at first
  have second := resolve_child first properId.2.2.2.2
  rw [resolveName_plain buildDir properId.2.2.1] at second
  rw [destDirOf_eq properModule properId]
  exact second

theorem delete_refines (refined : Refines base disk root map) (empty : EmptyStore base cwd storePath root) (properModule : IsName module)
    (properId : IsName buildId) :
    Refines base (perform cwd storePath disk (.delete module buildId)) root (map.erase (module, buildId)) := by
  have root_resolved := resolve_of_find (refined.find_store empty)
  have led := resolve_version refined empty properModule properId
  have present : root ++ [module] ++ [buildId] ≠ [] := by simp
  cases there : disk.node (root ++ [module] ++ [buildId]) with
  | none =>
    have kept : perform cwd storePath disk (.delete module buildId) = disk := by
      have nothing : symDirOf disk cwd storePath module buildId = none := by
        cases given : symDirOf disk cwd storePath module buildId with
        | none => rfl
        | some symDir =>
          obtain ⟨store, leads⟩ := symDirOf_eq_some.mp given
          have same := Option.some.inj (led.symm.trans leads.led)
          rw [← same] at leads
          cases there.symm.trans leads.directory
      show deleteSymbol disk cwd storePath module buildId = disk
      rw [deleteSymbol, nothing]
    have absent : map.lookup (module, buildId) = none := by
      cases found : map.lookup (module, buildId) with
      | none => rfl
      | some text => cases there.symm.trans (refined.stored_directory found).2
    have same (key : Text × Text) : (map.erase (module, buildId)).lookup key = map.lookup key := by
      by_cases gone : key = (module, buildId)
      · rw [gone, Finmap.lookup_erase, absent]
      · rw [Finmap.lookup_erase_ne gone]
    rw [kept]
    refine ⟨refined.nesting, refined.grown, fun other id text found => ?_, fun location node below held => ?_⟩
    · rw [same] at found
      exact refined.stored other id text found
    · simp only [same]
      exact refined.holds location node below held
  | some node =>
    obtain ⟨rfl, _⟩ := refined.version_directory there
    have leads : LeadsBelow disk cwd storePath module buildId root (root ++ [module] ++ [buildId]) :=
      ⟨root_resolved, led, empty.named, below_version, there⟩
    have removed : perform cwd storePath disk (.delete module buildId) = disk.remove (root ++ [module] ++ [buildId]) := deleteSymbol_eq leads
    rw [removed]
    refine ⟨refined.nesting, fun location old held => ?_, fun other id text found => ?_, fun location node below held => ?_⟩
    · have outside : ¬ root ++ [module] ++ [buildId] <+: location := by
        intro within
        have below : Below root location := by
          refine ⟨below_version.1.trans within, ?_⟩
          rintro rfl
          exact absurd within.length_le (by simp)
        cases (empty.empty location below).symm.trans held
      rw [node_remove present, if_neg outside]
      exact refined.grown location old held
    · have key : (other, id) ≠ (module, buildId) := by
        intro same
        rw [same, Finmap.lookup_erase] at found
        cases found
      rw [Finmap.lookup_erase_ne key] at found
      obtain ⟨mtime, file⟩ := refined.stored other id text found
      refine ⟨mtime, ?_⟩
      rw [node_remove present, if_neg]
      · exact file
      · intro within
        have same := List.prefix_of_prefix_length_le within (List.prefix_append (root ++ [other] ++ [id]) [symName other]) (by simp)
        exact key (version_inj (same.eq_of_length (by simp))).symm
    · rw [node_remove present] at held
      split at held
      next => cases held
      next outside =>
        have kept {other id : Text} (within : root ++ [other] ++ [id] <+: location) : (other, id) ≠ (module, buildId) := by
          rintro ⟨⟩
          exact outside within
        rcases refined.holds location node below held with emptied | ⟨other, id, text, same, directory, found⟩ |
            ⟨other, id, text, mtime, same, file, found⟩
        · exact Or.inl emptied
        · rw [← Finmap.lookup_erase_ne (kept (same ▸ List.prefix_refl _))] at found
          exact Or.inr (Or.inl ⟨other, id, text, same, directory, found⟩)
        · rw [← Finmap.lookup_erase_ne (kept (same ▸ List.prefix_append _ _))] at found
          exact Or.inr (Or.inr ⟨other, id, text, mtime, same, file, found⟩)

end Steps

theorem refines_perform {base disk : Disk} {cwd root : Location} {storePath : Text} {map : TextMap}
    (empty : EmptyStore base cwd storePath root) {request : Request} (named : Named request) (refined : Refines base disk root map) :
    Refines base (perform cwd storePath disk request) root (apply map request) := by
  obtain ⟨module, buildId, key, properModule, properId⟩ := named
  cases request with
  | add symText now =>
    cases parsed : parseModuleLine symText with
    | error error =>
      rw [keyOf, parsed] at key
      cases key
    | ok names =>
      rw [keyOf, parsed] at key
      cases key
      have stored := add_refines refined empty now parsed properModule properId
      have inserted : apply map (.add symText now) = map.insert (module, buildId) symText := by rw [apply, parsed]
      rw [inserted]
      exact stored
  | delete module buildId =>
    cases key
    exact delete_refines refined empty properModule properId

theorem refines_run {base : Disk} {cwd root : Location} {storePath : Text} (empty : EmptyStore base cwd storePath root)
    (requests : List Request) (named : ∀ request ∈ requests, Named request) :
    Refines base (requests.foldl (perform cwd storePath) base) root (requests.foldl apply ∅) :=
  @List.foldl_rel _ _ _ requests (perform cwd storePath) apply base ∅ (Refines base · root ·) empty.refines fun request member _ _ refined => refines_perform empty (named request member) refined

/-- What the store shows is the map: its keys in order, each once and with the size of its text, and under each key a
file with the text. -/
structure Represents (disk : Disk) (cwd : Location) (storePath : Text) (map : TextMap) : Prop where
  sorted : (listSymbols disk cwd storePath).Pairwise fun first second =>
    first.module < second.module ∨ first.module = second.module ∧ first.buildId < second.buildId
  listed : ∀ module buildId size, (∃ mtime, ⟨module, buildId, size, mtime⟩ ∈ listSymbols disk cwd storePath) ↔
    ∃ text, map.lookup (module, buildId) = some text ∧ size = (encodeUtf8 text).length
  found : ∀ module buildId text, IsName module → IsName buildId →
    (map.lookup (module, buildId) = some text ↔
      ∃ sym, findSym disk cwd storePath module buildId = some sym ∧ disk.read cwd sym = some (encodeUtf8 text))
  missing : ∀ module buildId, IsName module → IsName buildId →
    (map.lookup (module, buildId) = none ↔ findSym disk cwd storePath module buildId = none)

section Order

/-- The entry of one version, where the directory has the symbol file of its module. -/
def entryOf (disk : Disk) (cwd : Location) (storePath module buildId : Text) : Option SymbolEntry :=
  match disk.find cwd (((PurePath.parse storePath).child module).child buildId) with
  | .directory _ =>
    (disk.stat cwd ((((PurePath.parse storePath).child module).child buildId).child (module ++ ".sym".toList))).map
      fun (size, mtime) => ⟨module, buildId, size, mtime⟩
  | _ => none

theorem listSymbols_eq (disk : Disk) (cwd : Location) (storePath : Text) :
    listSymbols disk cwd storePath = (disk.sortedNames cwd (.parse storePath)).flatMap fun module =>
      (disk.sortedNames cwd ((PurePath.parse storePath).child module)).filterMap (entryOf disk cwd storePath module) := rfl

theorem entry_of {disk : Disk} {cwd : Location} {storePath module buildId : Text} {entry : SymbolEntry}
    (given : entryOf disk cwd storePath module buildId = some entry) :
    entry.module = module ∧ entry.buildId = buildId := by
  unfold entryOf at given
  split at given
  next =>
    obtain ⟨stat, _, rfl⟩ := Option.map_eq_some_iff.mp given
    exact ⟨rfl, rfl⟩
  next => cases given

theorem listSymbols_pairwise (disk : Disk) (cwd : Location) (storePath : Text) :
    (listSymbols disk cwd storePath).Pairwise fun first second =>
      first.module < second.module ∨ first.module = second.module ∧ first.buildId < second.buildId := by
  rw [listSymbols_eq, List.pairwise_flatMap]
  refine ⟨fun module _ => ?_, (sortedNames_pairwise disk cwd _).imp fun before => ?_⟩
  · rw [List.pairwise_filterMap]
    refine (sortedNames_pairwise disk cwd _).imp fun before first left second right => ?_
    obtain ⟨firstModule, firstId⟩ := entry_of left
    obtain ⟨secondModule, secondId⟩ := entry_of right
    rw [firstModule, secondModule, firstId, secondId]
    exact Or.inr ⟨rfl, before⟩
  · intro first left second right
    obtain ⟨_, _, left⟩ := List.mem_filterMap.mp left
    obtain ⟨_, _, right⟩ := List.mem_filterMap.mp right
    rw [(entry_of left).1, (entry_of right).1]
    exact Or.inl before

end Order

section Reading
variable {base disk : Disk} {cwd root : Location} {storePath module buildId text : Text} {map : TextMap}

theorem find_directory {path : PurePath} {here : Location} {name : Text} (found : disk.find cwd path = .directory here)
    (there : disk.node (here ++ [name]) = some .directory) : disk.find cwd (path.child name) = .directory (here ++ [name]) := by
  rw [find_child found (held_of_node there).1, tree_entry, entryAt_directory there, Option.getD_some]

theorem find_absent {path : PurePath} {here : Location} {name : Text} (found : disk.find cwd path = .directory here) (proper : IsName name)
    (absent : disk.node (here ++ [name]) = none) : disk.find cwd (path.child name) = .dangling (some (here ++ [name])) := by
  rw [find_child found proper, tree_entry, entryAt_none absent, Option.getD_none]

/-- What a stored text's path finds. -/
theorem find_stored (refined : Refines base disk root map) (empty : EmptyStore base cwd storePath root)
    (kept : map.lookup (module, buildId) = some text) :
    disk.find cwd (versionDir storePath module buildId) = .directory (root ++ [module] ++ [buildId]) ∧
      ∃ mtime, disk.find cwd (symFileOf storePath module buildId) = .file (root ++ [module] ++ [buildId] ++ [symName module]) ∧
        disk.fileAt (root ++ [module] ++ [buildId] ++ [symName module]) = some (encodeUtf8 text, mtime) := by
  obtain ⟨moduleDir, buildDir⟩ := refined.stored_directory kept
  obtain ⟨mtime, there⟩ := refined.stored module buildId text kept
  have version := find_directory (find_directory (refined.find_store empty) moduleDir) buildDir
  refine ⟨version, mtime, ?_, ?_⟩
  · have file := find_child version (held_of_node there).1
    rw [tree_entry, entryAt_file there, Option.getD_some] at file
    exact file
  · rw [fileAt, there]

theorem find_unstored (refined : Refines base disk root map) (empty : EmptyStore base cwd storePath root) (properModule : IsName module)
    (properId : IsName buildId) (absent : map.lookup (module, buildId) = none) :
    disk.find cwd (symFileOf storePath module buildId) = .dangling none := by
  have store := refined.find_store empty
  have noVersion : disk.node (root ++ [module] ++ [buildId]) = none := by
    cases there : disk.node (root ++ [module] ++ [buildId]) with
    | none => rfl
    | some node =>
      obtain ⟨_, text, kept⟩ := refined.version_directory there
      exact nomatch absent.symm.trans kept
  apply find_child_lost
  intro here found
  cases there : disk.node (root ++ [module]) with
  | none =>
    have lost := find_absent store properModule there
    have further := find_child_lost (fun place found => nomatch lost.symm.trans found) buildId
    exact nomatch further.symm.trans found
  | some node =>
    rw [refined.module_directory there] at there
    exact nomatch (find_absent (find_directory store there) properId noVersion).symm.trans found

theorem represents_of_refines (refined : Refines base disk root map) (empty : EmptyStore base cwd storePath root) :
    Represents disk cwd storePath map := by
  refine ⟨listSymbols_pairwise disk cwd storePath, fun module buildId size => ?_, fun module buildId text properModule properId => ?_,
    fun module buildId properModule properId => ?_⟩
  · constructor
    · intro ⟨mtime, member⟩
      obtain ⟨listed, version, _, stat⟩ := mem_listSymbols.mp member
      obtain ⟨place, node, found, there⟩ := mem_sortedNames.mp listed
      obtain rfl := Entry.directory.inj ((refined.find_store empty).symm.trans found)
      rw [refined.module_directory there] at there
      obtain ⟨other, node, foundModule, inner⟩ := mem_sortedNames.mp version
      obtain rfl := Entry.directory.inj ((find_directory found there).symm.trans foundModule)
      obtain ⟨_, text, kept⟩ := refined.version_directory inner
      obtain ⟨_, time, file, content⟩ := find_stored refined empty kept
      rw [stat_file file content] at stat
      cases stat
      exact ⟨text, kept, rfl⟩
    · intro ⟨text, kept, same⟩
      obtain ⟨moduleDir, buildDir⟩ := refined.stored_directory kept
      obtain ⟨version, time, file, content⟩ := find_stored refined empty kept
      have store := refined.find_store empty
      refine ⟨time, mem_listSymbols.mpr ⟨mem_sortedNames.mpr ⟨root, _, store, moduleDir⟩,
        mem_sortedNames.mpr ⟨_, _, find_directory store moduleDir, buildDir⟩, ⟨_, version⟩, ?_⟩⟩
      rw [stat_file file content, same]
  · rw [findSym, destOf_eq properModule properId]
    cases kept : map.lookup (module, buildId) with
    | none =>
      rw [find_unstored refined empty properModule properId kept]
      simp
    | some other =>
      obtain ⟨_, time, file, content⟩ := find_stored refined empty kept
      have read := read_file file content
      rw [file]
      dsimp only
      constructor
      · rintro ⟨⟩
        exact ⟨_, rfl, read⟩
      · rintro ⟨sym, ⟨⟩, same⟩
        rw [read] at same
        rw [encodeUtf8_injective (Option.some.inj same)]
  · rw [findSym, destOf_eq properModule properId]
    cases kept : map.lookup (module, buildId) with
    | none =>
      rw [find_unstored refined empty properModule properId kept]
      simp
    | some other =>
      obtain ⟨_, time, file, content⟩ := find_stored refined empty kept
      rw [file]
      simp

end Reading

/-- The text that the store gives for a key. -/
def textOf (disk : Disk) (cwd : Location) (storePath module buildId : Text) : Option (List UInt8) :=
  (findSym disk cwd storePath module buildId).bind (disk.read cwd)

theorem textOf_eq {disk : Disk} {cwd : Location} {storePath module buildId : Text} {map : TextMap}
    (represents : Represents disk cwd storePath map) (properModule : IsName module) (properId : IsName buildId) :
    textOf disk cwd storePath module buildId = (map.lookup (module, buildId)).map encodeUtf8 := by
  cases kept : map.lookup (module, buildId) with
  | none => rw [textOf, (represents.missing module buildId properModule properId).mp kept, Option.bind_none, Option.map_none]
  | some text =>
    obtain ⟨sym, found, read⟩ := (represents.found module buildId text properModule properId).mp kept
    rw [textOf, found, Option.bind_some, read, Option.map_some]

theorem lookup_apply_other {request : Request} {key : Text × Text} (other : keyOf request ≠ some key) (map : TextMap) :
    (apply map request).lookup key = map.lookup key := by
  cases request with
  | add symText now =>
    rw [apply]
    cases parsed : parseModuleLine symText with
    | error error => rfl
    | ok added =>
      have different : key ≠ added := by
        rintro rfl
        rw [keyOf, parsed] at other
        exact other rfl
      exact Finmap.lookup_insert_of_ne _ different
  | delete module buildId =>
    have different : key ≠ (module, buildId) := by
      rintro rfl
      exact other rfl
    exact Finmap.lookup_erase_ne different

/-- After any requests the store is the map they make, and a further one leaves the texts of the other keys as they are.
The disk takes every name: a real one refuses those above NAME_MAX. -/
theorem store_refines_map {base : Disk} {cwd root : Location} {storePath : Text} (empty : EmptyStore base cwd storePath root)
    (requests : List Request) (named : ∀ request ∈ requests, Named request) :
    Represents (requests.foldl (perform cwd storePath) base) cwd storePath (requests.foldl apply ∅) ∧
      ∀ request module buildId, Named request → IsName module → IsName buildId → keyOf request ≠ some (module, buildId) →
        textOf (perform cwd storePath (requests.foldl (perform cwd storePath) base) request) cwd storePath module buildId =
          textOf (requests.foldl (perform cwd storePath) base) cwd storePath module buildId := by
  have refined := refines_run empty requests named
  have represents := represents_of_refines refined empty
  refine ⟨represents, fun request module buildId further properModule properId other => ?_⟩
  have after := represents_of_refines (refines_perform empty further refined) empty
  rw [textOf_eq after properModule properId, textOf_eq represents properModule properId, lookup_apply_other other]

/-- An empty store beside the application's database. -/
def freshStore : Disk :=
  let blank : Disk := ⟨[], 8, fun _ => (0, 0), Nodes.unique_nil, Nodes.held_nil⟩
  (blank.put [] "store".toList .directory).put [] "crashes.db".toList (.file [] 0)

theorem empty_freshStore : EmptyStore freshStore [] "/store".toList ["store".toList] := by
  refine ⟨by decide +kernel, fun location below => ?_, ["crashes.db".toList], [], 0, by decide +kernel⟩
  have keys : freshStore.nodes.map Prod.fst = [["crashes.db".toList], ["store".toList]] := by decide +kernel
  cases there : freshStore.node location with
  | none => rfl
  | some node =>
    have present : location ≠ [] := by
      rintro rfl
      exact absurd (List.prefix_nil.mp below.1) (by decide)
    have member := mem_keys present there
    rw [keys] at member
    rcases List.mem_cons.mp member with rfl | last
    · exact absurd below.1 (by decide)
    · exact absurd (List.mem_singleton.mp last).symm below.2

def appSym : Text := "MODULE Linux x86_64 A app\n".toList

/-- A version is stored, stored again with another text, and deleted. -/
def appRequests : List Request :=
  [.add appSym 1, .add (appSym ++ "FILE 0 app.c\n".toList) 2, .delete "app".toList "A".toList]

theorem app_stored :
    Represents (appRequests.foldl (perform [] "/store".toList) freshStore) [] "/store".toList (appRequests.foldl apply ∅) ∧
    ∀ request module buildId, Named request → IsName module → IsName buildId → keyOf request ≠ some (module, buildId) →
      textOf (perform [] "/store".toList (appRequests.foldl (perform [] "/store".toList) freshStore) request) [] "/store".toList module buildId =
        textOf (appRequests.foldl (perform [] "/store".toList) freshStore) [] "/store".toList module buildId := by
  refine store_refines_map empty_freshStore appRequests ?_
  rintro request (_ | ⟨_, _ | ⟨_, _ | ⟨_, last⟩⟩⟩)
  · exact ⟨"app".toList, "A".toList, by decide +kernel, by decide, by decide⟩
  · exact ⟨"app".toList, "A".toList, by decide +kernel, by decide, by decide⟩
  · exact ⟨"app".toList, "A".toList, rfl, by decide, by decide⟩
  · cases last

end Crashomon.Proofs.SymbolMap
