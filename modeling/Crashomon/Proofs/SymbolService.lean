import Crashomon.Proofs.SymbolMap
import Crashomon.Proofs.SymbolServing
import Crashomon.Web.SymbolService

/-! The symbol service as a map. Whatever is uploaded, listed, served and deleted, each answer is the one that a finite
map from module and build ID gives, and no uploaded binary stays behind. -/

namespace Crashomon.Proofs.SymbolService
open Disk FileTree Location Python Web.SymbolStore Web.SymbolService SymbolPaths SymbolStoring
open Web.SymbolRoutes hiding Response
open SymbolMap hiding Request

section Clearing
variable {disk : Disk} {root location : Location}

/-- The disk without what lies below a directory. -/
def clear (disk : Disk) (root : Location) : Disk := (disk.names root).foldl (fun disk name => disk.remove (root ++ [name])) disk

theorem node_foldl_remove (names : List Text) (disk : Disk) :
    (names.foldl (fun disk name => disk.remove (root ++ [name])) disk).node location =
      if ∃ name ∈ names, root ++ [name] <+: location then none else disk.node location := by
  induction names generalizing disk with
  | nil => simp
  | cons name names ih =>
    have present : root ++ [name] ≠ [] := by simp
    rw [List.foldl_cons, ih, node_remove present]
    by_cases within : root ++ [name] <+: location
    · simp [within]
    · simp [within]

theorem node_clear (disk : Disk) (root location : Location) [Decidable (Below root location)] :
    (clear disk root).node location = if Below root location then none else disk.node location := by
  rw [clear, node_foldl_remove]
  by_cases below : Below root location
  · rw [if_pos below]
    obtain ⟨⟨rest, rfl⟩, other⟩ := below
    cases rest with
    | nil => exact absurd (List.append_nil root).symm other
    | cons name rest =>
      split
      next => rfl
      next unlisted =>
        cases there : disk.node (root ++ name :: rest) with
        | none => rfl
        | some node =>
          have listed : name ∈ disk.names root := by
            rw [mem_names]
            cases rest with
            | nil => exact ⟨node, there⟩
            | cons next rest =>
              rw [List.append_cons] at there
              exact ⟨.directory, directory_above (List.cons_ne_nil next rest) there⟩
          exact absurd ⟨name, listed, by simp⟩ unlisted
  · rw [if_neg below, if_neg]
    rintro ⟨name, _, within⟩
    apply below
    refine ⟨(List.prefix_append root [name]).trans within, ?_⟩
    rintro rfl
    exact absurd within.length_le (by simp)

theorem nesting_clear : (clear disk root).nesting = disk.nesting := by
  unfold clear
  generalize disk.names root = names
  induction names generalizing disk with
  | nil => rfl
  | cons name names ih => rw [List.foldl_cons, ih, nesting_remove]

end Clearing

section Keeping
variable {site : Site} {root place : Location} {disk after : Disk} {map : TextMap}

/-- The store holds the texts of a map, on a disk on which the paths of the service lead where they did with no text stored. -/
def Holds (site : Site) (root place : Location) (disk : Disk) (map : TextMap) : Prop :=
  ∃ base, EmptyStore base site.cwd site.storePath root ∧ base.find site.cwd (PurePath.parse site.dbParent) = .directory place ∧
    Refines base disk root map

theorem Holds.find_parent (holds : Holds site root place disk map) : disk.find site.cwd (PurePath.parse site.dbParent) = .directory place := by
  obtain ⟨base, _, parent, refined⟩ := holds
  exact find_mono refined.grown refined.nesting parent

/-- What happens beside the store, to files and to what was not there, leaves it as it is. -/
theorem Holds.aside (holds : Holds site root place disk map) (nesting : after.nesting = disk.nesting)
    (inside : ∀ location, Below root location → after.node location = disk.node location)
    (ways : ∀ location node, disk.node location = some node → (∀ content mtime, node ≠ .file content mtime) → after.node location = some node)
    (database : ∃ location content mtime, after.node location = some (.file content mtime) ∧ ¬ Below root location) :
    Holds site root place after map := by
  classical
  obtain ⟨base, empty, parent, refined⟩ := holds
  have outside {location : Location} {node : Node} (there : base.node location = some node) : ¬ Below root location :=
    fun below => nomatch (empty.empty location below).symm.trans there
  have ways : ∀ location node, base.node location = some node → (∀ content mtime, node ≠ .file content mtime) →
      (clear after root).node location = some node := by
    intro location node there other
    rw [node_clear, if_neg (outside there)]
    exact ways location node (refined.grown location node there) other
  have depth : (clear after root).nesting = base.nesting := nesting_clear.trans (nesting.trans refined.nesting)
  refine ⟨clear after root, ⟨find_ways ways depth empty.directory, fun location below => ?_, ?_⟩, find_ways ways depth parent,
    nesting_clear.symm, fun location node there => ?_, fun module buildId text kept => ?_, fun location node below there => ?_⟩
  · rw [node_clear, if_pos below]
  · obtain ⟨location, content, mtime, there, beside⟩ := database
    exact ⟨location, content, mtime, by rw [node_clear, if_neg beside, there]⟩
  · rw [node_clear] at there
    split at there
    next => cases there
    next => exact there
  · rw [inside _ below_file]
    exact refined.stored module buildId text kept
  · rw [inside _ below] at there
    exact refined.holds location node below there

/-- What a text makes of the map. -/
def bring (map : TextMap) : Option Text → TextMap
  | none => map
  | some text =>
    match parseModuleLine text with
    | .ok key => map.insert key text
    | .error _ => map

/-- The names in a text's MODULE line are single components of a path. -/
def NamesText (text : Text) : Prop := ∀ module buildId, parseModuleLine text = .ok (module, buildId) → IsName module ∧ IsName buildId

/-- A call that changes the store only. -/
structure Within (root : Location) (before after : Disk) : Prop where
  nesting : after.nesting = before.nesting
  outside : ∀ location, ¬ Below root location → after.node location = before.node location

end Keeping

section Uploads
variable {site : Site} {root place : Location} {disk : Disk} {map : TextMap} {safeName : Text}

/-- Where the binaries are put. -/
def uploads (place : Location) : Location := place ++ ["tmp".toList]

theorem tmpDir_eq (site : Site) : tmpDir site = (PurePath.parse site.dbParent).child "tmp".toList := join_name _ (by decide)

theorem mkdir_tmpDir (parent : disk.find site.cwd (PurePath.parse site.dbParent) = .directory place)
    (room : disk.node (uploads place) = none ∨ disk.node (uploads place) = some .directory) :
    ∃ made, mkdir site (tmpDir site) disk = (.ok (), made) ∧ made.nesting = disk.nesting ∧
      ∀ location, made.node location = if location = uploads place then some .directory else disk.node location := by
  obtain ⟨clean, walked⟩ := walk_of_find parent
  have proper : IsName "tmp".toList := by decide
  have cleanTmp := clean_snoc clean proper
  have made : disk.tree.mkdirParents ((tmpDir site).startFrom site.cwd) (tmpDir site).tail.reverse =
      (.ok (), if disk.tree.entry place "tmp".toList = none then [uploads place] else []) := by
    rw [tmpDir_eq]
    show disk.tree.mkdirParents ((PurePath.parse site.dbParent).startFrom site.cwd)
      ((PurePath.parse site.dbParent).tail ++ ["tmp".toList]).reverse = _
    rw [List.reverse_append, List.reverse_singleton, List.singleton_append, mkdirParents_of_walk cleanTmp walked]
    rcases entry_of_room room with ⟨absent, _⟩ | ⟨there, _⟩
    · rw [mkdir_absent cleanTmp walked proper.2.2.1 absent rfl, if_pos absent]
      rfl
    · rw [mkdir_present cleanTmp walked proper.2.2.1 there, there]
      rfl
  refine ⟨_, ?_, nesting_makeAll _ disk, node_makeMissing (entry_none_iff room) proper (directory_of_find parent) room⟩
  rw [Web.SymbolService.mkdir, made]
  rfl

theorem openForWriting_snoc {tree : FileTree} {start here : Location} {path : List Text} {name : Text} (clean : ¬ HasNull (path ++ [name]))
    (walked : tree.walk start path = .ok here) (plain : name ≠ dotdot)
    (room : tree.entry here name = none ∨ tree.entry here name = some (.file (here ++ [name])))
    (allowed : tree.refuses (here ++ [name]) = false) : tree.openForWriting start (path ++ [name]) = .ok (here ++ [name]) := by
  rw [openForWriting, if_neg clean, List.getLast?_concat, List.dropLast_concat, walked]
  rcases room with absent | there
  · simp [bind, Except.bind, plain, absent, allowed]
  · simp [bind, Except.bind, plain, there, allowed]

theorem save_upload (found : disk.find site.cwd (tmpDir site) = .directory (uploads place)) (proper : IsName safeName)
    (room : ∀ node, disk.node (uploads place ++ [safeName]) = some node → ∃ content mtime, node = .file content mtime) (now : Nat)
    (data : List UInt8) :
    ∃ saved, save site now ((tmpDir site).join (PurePath.parse safeName)) data disk = (.ok (), saved) ∧ saved.nesting = disk.nesting ∧
      ∀ location, saved.node location = if location = uploads place ++ [safeName] then some (.file data now) else disk.node location := by
  obtain ⟨clean, walked⟩ := walk_of_find found
  have fits : Nodes.Fits disk.nodes (uploads place) safeName (.file data now) := by
    refine ⟨proper, directory_of_find found, fun directory => ?_⟩
    obtain ⟨_, _, impossible⟩ := room _ directory
    cases impossible
  have entry : disk.tree.entry (uploads place) safeName = none ∨
      disk.tree.entry (uploads place) safeName = some (.file (uploads place ++ [safeName])) := by
    cases there : disk.node (uploads place ++ [safeName]) with
    | none => exact Or.inl (entryAt_none there)
    | some node =>
      obtain ⟨content, mtime, rfl⟩ := room node there
      exact Or.inr (entryAt_file there)
  refine ⟨disk.put (uploads place) safeName (.file data now), ?_, nesting_put, node_put fits⟩
  have opened : disk.tree.openForWriting (((tmpDir site).child safeName).startFrom site.cwd) ((tmpDir site).child safeName).tail =
      .ok (uploads place ++ [safeName]) :=
    openForWriting_snoc (clean_snoc clean proper) walked proper.2.2.1 entry rfl
  rw [save, join_name _ proper, opened, ← putAt_snoc]

theorem find_tmpDir (parent : disk.find site.cwd (PurePath.parse site.dbParent) = .directory place)
    (there : disk.node (uploads place) = some .directory) : disk.find site.cwd (tmpDir site) = .directory (uploads place) := by
  rw [tmpDir_eq, find_child parent (by decide), tree_entry, entryAt_directory there]
  rfl

/-- A disk that the service runs on, with a store that holds the texts of a map: beside it lies the directory for uploads,
if it is there, with files and nothing else, and elsewhere the database. -/
structure Serving (site : Site) (root place : Location) (disk : Disk) (map : TextMap) : Prop where
  holds : Holds site root place disk map
  apart : ¬ root <+: uploads place
  room : disk.node (uploads place) = none ∨ disk.node (uploads place) = some .directory
  files : ∀ name node, disk.node (uploads place ++ [name]) = some node → ∃ content mtime, node = .file content mtime
  database : ∃ location content mtime, disk.node location = some (.file content mtime) ∧ ¬ uploads place <+: location ∧ ¬ Below root location

/-- What a request does beside the store: a file for uploads of a name is gone, and the directory may be new. -/
def Beside (root place : Location) (gone : Option Text) (before after : Disk) : Prop :=
  ∀ location, ¬ Below root location → location ≠ uploads place →
    after.node location = if gone.map (fun name => uploads place ++ [name]) = some location then none else before.node location

theorem outside_uploads (apart : ¬ root <+: uploads place) : ¬ Below root (uploads place) := fun below => apart below.1

theorem outside_upload (apart : ¬ root <+: uploads place) (name : Text) : ¬ Below root (uploads place ++ [name]) := by
  intro ⟨within, other⟩
  rcases List.prefix_concat_iff.mp within with same | shorter
  · exact other same
  · exact apart shorter

/-- A request that changes the store only. -/
theorem Serving.within (serving : Serving site root place disk map) {after : Disk} {stored : TextMap}
    (holds : Holds site root place after stored) (within : Within root disk after) :
    Serving site root place after stored ∧ Beside root place none disk after := by
  have apart := serving.apart
  refine ⟨⟨holds, apart, ?_, fun name node there => ?_, ?_⟩, fun location outside _ => within.outside location outside⟩
  · rw [within.outside _ (outside_uploads apart)]
    exact serving.room
  · rw [within.outside _ (outside_upload apart name)] at there
    exact serving.files name node there
  · obtain ⟨location, content, mtime, there, beside, outside⟩ := serving.database
    exact ⟨location, content, mtime, (within.outside location outside).trans there, beside, outside⟩

/-- The disk with a binary in the directory for uploads. -/
structure Uploaded (place : Location) (safeName : Text) (data : List UInt8) (now : Nat) (disk saved : Disk) : Prop where
  nesting : saved.nesting = disk.nesting
  node : ∀ location, saved.node location =
    if location = uploads place ++ [safeName] then some (.file data now)
    else if location = uploads place then some .directory else disk.node location

theorem uploads_ne (place : Location) (safeName : Text) : uploads place ≠ uploads place ++ [safeName] := by simp

theorem Serving.uploaded (serving : Serving site root place disk map) (proper : IsName safeName) (now : Nat) (data : List UInt8) :
    ∃ made saved, Web.SymbolService.mkdir site (tmpDir site) disk = (.ok (), made) ∧
      save site now ((tmpDir site).join (PurePath.parse safeName)) data made = (.ok (), saved) ∧
      Uploaded place safeName data now disk saved := by
  have parent := serving.holds.find_parent
  obtain ⟨made, first, depth, nodes⟩ := mkdir_tmpDir parent serving.room
  have more : ∀ location node, disk.node location = some node → made.node location = some node := by
    intro location node there
    rw [nodes]
    split
    next same =>
      rw [same] at there
      rcases serving.room with absent | directory
      · exact nomatch absent.symm.trans there
      · exact directory.symm.trans there
    next => exact there
  have found := find_tmpDir (find_mono more depth parent) ((nodes _).trans (if_pos rfl))
  have room : ∀ node, made.node (uploads place ++ [safeName]) = some node → ∃ content mtime, node = .file content mtime := by
    intro node there
    rw [nodes, if_neg (uploads_ne place safeName).symm] at there
    exact serving.files safeName node there
  obtain ⟨saved, second, same, node⟩ := save_upload found proper room now data
  refine ⟨made, saved, first, second, same.trans depth, fun location => ?_⟩
  rw [node, nodes]

theorem Uploaded.holds {data : List UInt8} {now : Nat} {saved : Disk} (uploaded : Uploaded place safeName data now disk saved)
    (serving : Serving site root place disk map) : Holds site root place saved map := by
  have apart := serving.apart
  refine serving.holds.aside uploaded.nesting (fun location below => ?_) (fun location node there other => ?_) ?_
  · rw [uploaded.node, if_neg, if_neg]
    · rintro rfl
      exact outside_uploads apart below
    · rintro rfl
      exact outside_upload apart safeName below
  · rw [uploaded.node, if_neg]
    · split
      next same =>
        rw [same] at there
        rcases serving.room with absent | directory
        · exact nomatch absent.symm.trans there
        · exact directory.symm.trans there
      next => exact there
    · rintro rfl
      obtain ⟨content, mtime, same⟩ := serving.files safeName node there
      exact other content mtime same
  · obtain ⟨location, content, mtime, there, beside, outside⟩ := serving.database
    refine ⟨location, content, mtime, ?_, outside⟩
    rw [uploaded.node, if_neg, if_neg]
    · exact there
    · rintro rfl
      exact beside (List.prefix_refl _)
    · rintro rfl
      exact beside (List.prefix_append _ _)

theorem Uploaded.serving {data : List UInt8} {now : Nat} {saved : Disk} (uploaded : Uploaded place safeName data now disk saved)
    (serving : Serving site root place disk map) : Serving site root place saved map := by
  refine ⟨uploaded.holds serving, serving.apart, Or.inr ?_, fun name node there => ?_, ?_⟩
  · rw [uploaded.node, if_neg (uploads_ne place safeName), if_pos rfl]
  · rw [uploaded.node, if_neg (uploads_ne place name).symm] at there
    split at there
    next => exact ⟨data, now, (Option.some.inj there).symm⟩
    next => exact serving.files name node there
  · obtain ⟨location, content, mtime, there, beside, outside⟩ := serving.database
    refine ⟨location, content, mtime, ?_, beside, outside⟩
    rw [uploaded.node, if_neg, if_neg]
    · exact there
    · rintro rfl
      exact beside (List.prefix_refl _)
    · rintro rfl
      exact beside (List.prefix_append _ _)

end Uploads

section Answers
variable {site : Site} {root place : Location} {disk : Disk} {map : TextMap}

/-- The text that an uploaded binary comes to. -/
def binaryText (site : Site) (file : Web.CrashUpload.Upload) : Except Thrown Text :=
  dumped site ((tmpDir site).join (PurePath.parse (site.secureFilename file.filename))) file.data

/-- The file of a field that has one with a usable name. -/
def usable (site : Site) (field : Option Web.CrashUpload.Upload) : Option Web.CrashUpload.Upload :=
  (present field).filter fun file => site.secureFilename file.filename ≠ []

/-- The text that a request brings. -/
def brought (site : Site) : Request → Option Text
  | .apiUploadSymbols sym binary =>
    match present sym with
    | some symFile => some (decodeUtf8 symFile.data)
    | none => (usable site binary).bind fun file => (binaryText site file).toOption
  | .uploadSymbols binary => (usable site binary).bind fun file => (binaryText site file).toOption
  | _ => none

/-- The map after a request. -/
def keep (site : Site) (map : TextMap) : Request → TextMap
  | .deleteSymbol module buildId => map.erase (module, buildId)
  | request => bring map (brought site request)

/-- The file for uploads that a request removes. -/
def removed (site : Site) : Request → Option Text
  | .apiUploadSymbols sym binary =>
    match present sym with
    | some _ => none
    | none => (usable site binary).map fun file => site.secureFilename file.filename
  | .uploadSymbols binary => (usable site binary).map fun file => site.secureFilename file.filename
  | _ => none

def storedPath (module buildId : Text) : Text := module ++ '/' :: (buildId ++ '/' :: symName module)

/-- The answer to a text, by where it is stored or what is raised. -/
def answer (stored : Text → Text → Response) (raised : Thrown → Response) (site : Site) :
    Except Thrown Text → Response
  | .error thrown => raised thrown
  | .ok text =>
    match parseModuleLine text with
    | .ok (module, buildId) => stored module buildId
    | .error error => raised (thrownOf site error)

/-- What a service over the map answers. -/
def Answers (site : Site) (map : TextMap) : Request → Response → Prop
  | .apiUploadSymbols sym binary, response =>
    response = match present sym, present binary with
      | some symFile, _ => answer (fun module buildId => .created (storedPath module buildId)) (fun thrown => symResponse site (.error thrown))
          site (.ok (decodeUtf8 symFile.data))
      | none, some file =>
        if site.secureFilename file.filename = [] then .refused 400 "invalid filename".toList
        else answer (fun module buildId => .created (storedPath module buildId)) (fun thrown => binaryResponse site (.error thrown)) site
          (binaryText site file)
      | none, none => .refused 400 "no file provided".toList
  | .uploadSymbols binary, response =>
    response = match present binary with
      | some file =>
        if site.secureFilename file.filename = [] then .toSymbols (some "Invalid filename.".toList)
        else answer (fun _ _ => .toSymbols none) (fun thrown => formResponse (.error thrown)) site (binaryText site file)
      | none => .toSymbols none
  | .symbols, response => ∃ entries, response = .list entries ∧
      (entries.Pairwise fun first second => first.module < second.module ∨ first.module = second.module ∧ first.buildId < second.buildId) ∧
      ∀ module buildId size, (∃ mtime, ⟨module, buildId, size, mtime⟩ ∈ entries) ↔
        ∃ text, map.lookup (module, buildId) = some text ∧ size = (encodeUtf8 text).length
  | .serveSymbol module buildId filename, response =>
    response = if filename = symName module then (map.lookup (module, buildId)).elim (.aborted 404) fun text => .sent (encodeUtf8 text)
      else .aborted 404
  | .deleteSymbol _ _, response => response = .toSymbols none

/-- The names in a request are single components of a path. -/
def Named (site : Site) : Request → Prop
  | .serveSymbol module buildId filename => IsName module ∧ IsName buildId ∧ IsName filename
  | .deleteSymbol module buildId => IsName module ∧ IsName buildId
  | request => ∀ text, brought site request = some text → NamesText text

/-- A request leaves all as it is. -/
theorem Serving.unchanged (serving : Serving site root place disk map) :
    Serving site root place disk (bring map none) ∧ Beside root place none disk disk :=
  ⟨serving, fun _ _ _ => rfl⟩

/-- What the service starts on: an empty store, the directory of the database, and beside them what there is. -/
structure Begins (site : Site) (root place : Location) (disk : Disk) : Prop where
  store : EmptyStore disk site.cwd site.storePath root
  parent : disk.find site.cwd (PurePath.parse site.dbParent) = .directory place
  apart : ¬ root <+: uploads place
  room : disk.node (uploads place) = none ∨ disk.node (uploads place) = some .directory
  files : ∀ name node, disk.node (uploads place ++ [name]) = some node → ∃ content mtime, node = .file content mtime
  database : ∃ location content mtime, disk.node location = some (.file content mtime) ∧ ¬ uploads place <+: location ∧ ¬ Below root location

theorem Begins.serving (begins : Begins site root place disk) : Serving site root place disk ∅ :=
  ⟨⟨disk, begins.store, begins.parent, begins.store.refines⟩, begins.apart, begins.room, begins.files, begins.database⟩

/-- A store and a database in the root directory, names that are no single components refused, and a dump_syms that prints
one symbol file. -/
def plainSite : Site where
  cwd := []
  storePath := "/store".toList
  dbParent := "/".toList
  secureFilename name := if IsName name then name else []
  interpreter := ⟨1000, fun _ => .nan, fun _ => []⟩
  dumpSyms := "dump_syms".toList
  walk _ _ := .exited 0 appSym
  notFoundText := []

end Answers

end Crashomon.Proofs.SymbolService
