import Crashomon.Base.PathText
import Crashomon.Tools.Sysroot
import Crashomon.Tools.SymsCli

/-! Which libraries of a sysroot the two searches come by. One goes through four trees, the other
looks the names of the modules up in usr/lib alone. -/

namespace Crashomon.Proofs.SysrootSearch
open Disk Tools.SymsCli Tools.Sysroot Tools.Analyze

section Trees
variable {disk : Disk} {cwd : Location} {sysroot path : PurePath} {name : Text}

/-- The library in one of the trees, by its name in the directory it stands in. -/
def StandsAt (disk : Disk) (cwd : Location) (sysroot : PurePath) (name : Text) (place : Location) : Prop :=
  ∃ rel ∈ defaultSysrootSearch, ∃ here rest, disk.find cwd (sysroot.join (PurePath.parse rel)) = .directory here ∧
    disk.tree.entry (here ++ rest) name = some (.file place) ∧ isSharedObject name = true ∧ startsWithMagic disk place = true

/-- The scan takes the path for a library file. -/
def Scanned (disk : Disk) (cwd : Location) (path : PurePath) (real : Location) : Prop :=
  isSharedObject path.name = true ∧ disk.find cwd path = .file real

/-- The scan of the trees ingests the file that it takes a path of that name for. -/
def Ingests (disk : Disk) (cwd : Location) (sysroot : PurePath) (name : Text) : Prop :=
  ∃ results, iterSysrootElfs disk cwd sysroot = some results ∧
    ∃ path ∈ libraryPaths disk cwd sysroot, path.name = name ∧ ∃ real ∈ results, Scanned disk cwd path real

theorem isFile_iff : isFile disk cwd path = true ↔ ∃ real, disk.find cwd path = .file real := by
  unfold isFile
  cases disk.find cwd path <;> simp

theorem collectElfs_skip (other : ¬ ∃ real, Scanned disk cwd path real) (paths : List PurePath) (seen results : List Location) :
    collectElfs disk cwd (path :: paths) seen results = collectElfs disk cwd paths seen results := by
  have unfit : ¬ (isSharedObject path.name && isFile disk cwd path) = true := by
    rw [Bool.and_eq_true, isFile_iff]
    rintro ⟨shared, real, found⟩
    exact other ⟨real, shared, found⟩
  rw [collectElfs, if_neg unfit]

theorem collectElfs_scan {real : Location} (scanned : Scanned disk cwd path real) (paths : List PurePath) (seen results : List Location) :
    collectElfs disk cwd (path :: paths) seen results =
      if seen.contains real then collectElfs disk cwd paths seen results
      else collectElfs disk cwd paths (real :: seen) (if startsWithMagic disk real then results ++ [real] else results) := by
  have fit : (isSharedObject path.name && isFile disk cwd path) = true := by
    rw [Bool.and_eq_true, isFile_iff]
    exact ⟨scanned.1, real, scanned.2⟩
  rw [collectElfs, if_pos fit, resolve_of_find_file scanned.2]
  rfl

/-- The scan returns the libraries that were there and those it comes by first. -/
theorem collectElfs_returns (paths : List PurePath) (seen results : List Location) :
    ∃ final, collectElfs disk cwd paths seen results = some final ∧ ∀ real, real ∈ final ↔
      real ∈ results ∨ real ∉ seen ∧ startsWithMagic disk real = true ∧ ∃ path ∈ paths, Scanned disk cwd path real := by
  induction paths generalizing seen results with
  | nil => exact ⟨results, rfl, by simp⟩
  | cons path paths ih =>
    simp only [List.exists_mem_cons_iff]
    by_cases taken : ∃ real, Scanned disk cwd path real
    · obtain ⟨real, scanned⟩ := taken
      have only {other : Location} : Scanned disk cwd path other ↔ other = real := by
        constructor
        · intro again
          exact Entry.file.inj (again.2.symm.trans scanned.2)
        · rintro rfl
          exact scanned
      rw [collectElfs_scan scanned]
      simp only [only]
      by_cases old : real ∈ seen
      · obtain ⟨final, returned, same⟩ := ih seen results
        refine ⟨final, (if_pos (List.contains_iff_mem.mpr old)).trans returned, fun other => ?_⟩
        rw [same]
        by_cases this : other = real
        · simp [this, old]
        · simp [this]
      · rw [if_neg (mt List.contains_iff_mem.mp old)]
        by_cases magic : startsWithMagic disk real = true
        · rw [if_pos magic]
          obtain ⟨final, returned, same⟩ := ih (real :: seen) (results ++ [real])
          refine ⟨final, returned, fun other => ?_⟩
          rw [same]
          by_cases this : other = real
          · simp [this, old, magic]
          · simp [this]
        · rw [if_neg magic]
          obtain ⟨final, returned, same⟩ := ih (real :: seen) results
          refine ⟨final, returned, fun other => ?_⟩
          rw [same]
          by_cases this : other = real
          · simp [this, magic]
          · simp [this]
    · obtain ⟨final, returned, same⟩ := ih seen results
      refine ⟨final, (collectElfs_skip taken paths seen results).trans returned, fun other => ?_⟩
      have none : ¬ Scanned disk cwd path other := fun scanned => taken ⟨other, scanned⟩
      rw [same]
      simp [none]

theorem iterSysrootElfs_returns (disk : Disk) (cwd : Location) (sysroot : PurePath) :
    ∃ results, iterSysrootElfs disk cwd sysroot = some results ∧ ∀ real, real ∈ results ↔
      startsWithMagic disk real = true ∧ ∃ path ∈ libraryPaths disk cwd sysroot, Scanned disk cwd path real := by
  obtain ⟨final, returned, same⟩ := @collectElfs_returns disk cwd (libraryPaths disk cwd sysroot) [] []
  refine ⟨final.insertionSort fun path other => path ≤ other, ?_, fun real => ?_⟩
  · rw [iterSysrootElfs, returned]
    rfl
  · rw [List.mem_insertionSort, same]
    simp

theorem mem_libraryPaths : path ∈ libraryPaths disk cwd sysroot ↔
    ∃ rel ∈ defaultSysrootSearch, path ∈ disk.rglob cwd (sysroot.join (PurePath.parse rel)) := by
  rw [libraryPaths, List.mem_flatMap]
  refine exists_congr fun rel => and_congr_right fun _ => ?_
  dsimp only
  split
  next => rfl
  next other =>
    unfold rglob
    split
    next here found => exact absurd found (other here)
    next => rfl

theorem scanned_child {real : Location} (shared : isSharedObject name = true) (found : disk.find cwd (path.child name) = .file real) :
    Scanned disk cwd (path.child name) real := by
  refine ⟨?_, found⟩
  rw [PurePath.name_child]
  exact shared

theorem find_entry {here : Location} {rest : List Text} {node : Node} (led : disk.find cwd path = .directory here)
    (there : disk.node ((here ++ rest) ++ [name]) = some node) :
    disk.find cwd (PurePath.child ⟨path.root, path.tail ++ rest⟩ name) =
      (disk.tree.entry (here ++ rest) name).getD (.dangling (some ((here ++ rest) ++ [name]))) :=
  find_child (find_within led (held_of_node there).2) (held_of_node there).1

/-- What the scan ingests stands in one of the trees. -/
theorem ingests_iff : Ingests disk cwd sysroot name ↔ ∃ place, StandsAt disk cwd sysroot name place := by
  obtain ⟨results, returned, same⟩ := iterSysrootElfs_returns disk cwd sysroot
  constructor
  · rintro ⟨others, again, path, member, rfl, real, ingested, shared, found⟩
    cases returned.symm.trans again
    obtain ⟨rel, listed, below⟩ := mem_libraryPaths.mp member
    obtain ⟨here, rest, name, node, led, there, rfl⟩ := mem_rglob.mp below
    rw [find_entry led there] at found
    rw [PurePath.name_child] at shared ⊢
    refine ⟨real, rel, listed, here, rest, led, ?_, shared, ((same real).mp ingested).1⟩
    cases entered : disk.tree.entry (here ++ rest) name with
    | none =>
      rw [entered] at found
      cases found
    | some entry =>
      rw [entered, Option.getD_some] at found
      rw [found]
  · rintro ⟨place, rel, listed, here, rest, led, entered, shared, magic⟩
    obtain ⟨node, there⟩ := node_of_entry entered
    have member := mem_libraryPaths.mpr ⟨rel, listed, mem_rglob.mpr ⟨here, rest, name, node, led, there, rfl⟩⟩
    have found := find_entry led there
    rw [entered, Option.getD_some] at found
    have scanned := scanned_child shared found
    exact ⟨results, returned, _, member, PurePath.name_child _ name, place, (same place).mpr ⟨magic, _, member, scanned⟩, scanned⟩

theorem StandsAt.isName {place : Location} (stands : StandsAt disk cwd sysroot name place) : IsName name := by
  obtain ⟨_, _, _, _, _, entered, _⟩ := stands
  obtain ⟨_, there⟩ := node_of_entry entered
  exact (held_of_node there).1

end Trees

section Lookups
variable {dumpSyms : Disk → Location → Walk} {now : Text → Nat} {disk turn : Disk} {cwd : Location} {sysroot store : PurePath}
  {module name : Text} {modules : List Text} {call : Call}

/-- The path leads to a library. -/
def LibraryAt (disk : Disk) (cwd : Location) (path : PurePath) : Prop :=
  ∃ place, disk.find cwd path = .file place ∧ startsWithMagic disk place = true

/-- The file that dump_syms was given was a library then. -/
def OnLibrary (call : Call) : Prop := startsWithMagic call.disk call.binary = true

/-- The directory that the lazy extraction looks in. -/
def usrLib (sysroot : PurePath) : PurePath := ⟨sysroot.root, sysroot.tail ++ ["usr".toList, "lib".toList]⟩

theorem basename_component (module : Text) : basename module = [] ∨ PurePath.parse (basename module) = ⟨[], [basename module]⟩ := by
  unfold basename PurePath.name
  cases names : (PurePath.parse module).tail using List.reverseRecOn with
  | nil => exact Or.inl rfl
  | append_singleton before last =>
    refine Or.inr ?_
    have member : last ∈ PurePath.components module := by
      rw [← PurePath.parse_tail, names]
      simp
    have solid := Location.solid_components member
    have kept := (List.mem_filter.mp member).2
    rw [List.getLastD_concat]
    exact Location.parse_component solid.1 (of_decide_eq_true kept).2 solid.2

theorem candidateOf_join (sysroot : PurePath) (module : Text) :
    candidateOf sysroot module = (usrLib sysroot).join (PurePath.parse (basename module)) := by
  have usr : PurePath.parse "usr".toList = ⟨[], ["usr".toList]⟩ := by decide
  have lib : PurePath.parse "lib".toList = ⟨[], ["lib".toList]⟩ := by decide
  have below : (sysroot.join (PurePath.parse "usr".toList)).join (PurePath.parse "lib".toList) = usrLib sysroot := by
    rw [usr, lib]
    simp [PurePath.join, PurePath.isAbsolute, usrLib]
  rw [candidateOf, below]

theorem candidateOf_child (present : basename module ≠ []) : candidateOf sysroot module = (usrLib sysroot).child (basename module) := by
  rw [candidateOf_join, (basename_component module).resolve_left present]
  rfl

theorem basename_of_candidate (named : (candidateOf sysroot module).name = name) (shared : isSharedObject name = true) :
    basename module = name := by
  by_cases empty : basename module = []
  · have whole : candidateOf sysroot module = (usrLib sysroot).join (PurePath.parse []) := empty ▸ candidateOf_join sysroot module
    have other : ((usrLib sysroot).join (PurePath.parse [])).name = "lib".toList := by
      have nothing : PurePath.parse [] = ⟨[], []⟩ := by decide
      rw [nothing]
      simp [PurePath.join, PurePath.isAbsolute, usrLib, PurePath.name]
    rw [← named, whole, other] at shared
    exact absurd shared (by decide)
  · rw [candidateOf_child empty, PurePath.name_child] at named
    exact named

theorem mem_extractModule : call ∈ (extractModule dumpSyms now cwd sysroot store module disk).calls ↔
    (∀ place, disk.find cwd (candidateOf sysroot module) ≠ .dangling place) ∧
      ∃ binary, disk.resolve cwd (candidateOf sysroot module) = some binary ∧ call = ⟨candidateOf sysroot module, binary, disk⟩ := by
  unfold extractModule
  dsimp only
  split
  next place lost => exact iff_of_false List.not_mem_nil fun found => found.1 place lost
  next present =>
    rw [and_iff_right present]
    split
    next none => simp [none]
    next binary resolved =>
      have single : ∀ {calls : List Call}, calls = [⟨candidateOf sysroot module, binary, disk⟩] →
          (call ∈ calls ↔ ∃ binary, disk.resolve cwd (candidateOf sysroot module) = some binary ∧
            call = ⟨candidateOf sysroot module, binary, disk⟩) := by
        intro calls same
        rw [same, List.mem_singleton, resolved]
        simp
      apply single
      split
      next => rfl
      next => rfl
      next =>
        split
        next => rfl
        next => rfl

theorem mem_andThen {first : Extraction} {next : Disk → Extraction} :
    call ∈ (first.andThen next).calls ↔ call ∈ first.calls ∨ ∃ after, first.result = .ok after ∧ call ∈ (next after).calls := by
  unfold Extraction.andThen
  cases ended : first.result with
  | error raised => simp
  | ok after => simp

theorem andThen_ok {first : Extraction} {next : Disk → Extraction} :
    (first.andThen next).result = .ok turn ↔ ∃ after, first.result = .ok after ∧ (next after).result = .ok turn := by
  unfold Extraction.andThen
  cases ended : first.result with
  | error raised => simp
  | ok after => simp

/-- The turn of a module comes when those before it have not raised. -/
theorem mem_extractModules : call ∈ (extractModules dumpSyms now cwd sysroot store modules disk).calls ↔
    ∃ before module after turn, modules = before ++ module :: after ∧
      (extractModules dumpSyms now cwd sysroot store before disk).result = .ok turn ∧
        call ∈ (extractModule dumpSyms now cwd sysroot store module turn).calls := by
  induction modules generalizing disk with
  | nil =>
    refine iff_of_false List.not_mem_nil ?_
    rintro ⟨before, module, after, turn, same, _⟩
    exact absurd same.symm (List.append_ne_nil_of_right_ne_nil before (List.cons_ne_nil module after))
  | cons first modules ih =>
    rw [extractModules, mem_andThen]
    constructor
    · rintro (own | ⟨between, done, later⟩)
      · exact ⟨[], first, modules, disk, rfl, rfl, own⟩
      · obtain ⟨before, module, after, turn, rfl, ran, member⟩ := ih.mp later
        refine ⟨first :: before, module, after, turn, rfl, ?_, member⟩
        rw [extractModules, andThen_ok]
        exact ⟨between, done, ran⟩
    · rintro ⟨before, module, after, turn, same, ran, member⟩
      cases before with
      | nil =>
        obtain ⟨rfl, rfl⟩ := List.cons.inj same
        cases ran
        exact Or.inl member
      | cons other before =>
        obtain ⟨rfl, rfl⟩ := List.cons.inj same
        rw [extractModules, andThen_ok] at ran
        obtain ⟨between, done, ran⟩ := ran
        exact Or.inr ⟨between, done, ih.mpr ⟨before, module, after, turn, rfl, ran, member⟩⟩

/-- A lookup in usr/lib runs dump_syms on a library where it leads to one. -/
theorem library_extracted (named : basename module = name) (present : name ≠ []) :
    (∃ call ∈ (extractModule dumpSyms now cwd sysroot store module disk).calls, OnLibrary call) ↔
      LibraryAt disk cwd ((usrLib sysroot).child name) := by
  subst named
  rw [← candidateOf_child present]
  constructor
  · rintro ⟨call, member, library⟩
    obtain ⟨exist, binary, resolved, rfl⟩ := mem_extractModule.mp member
    cases found : disk.find cwd (candidateOf sysroot module) with
    | dangling place => exact absurd found (exist place)
    | file place =>
      cases resolved.symm.trans (resolve_of_find_file found)
      exact ⟨binary, found, library⟩
    | directory place =>
      cases resolved.symm.trans (resolve_of_find found)
      have nothing : disk.fileAt binary = none := by
        rw [fileAt, directory_of_find found]
      rw [OnLibrary, startsWithMagic, nothing] at library
      cases library
  · rintro ⟨place, found, library⟩
    refine ⟨_, mem_extractModule.mpr ⟨fun other lost => ?_, place, resolve_of_find_file found, rfl⟩, library⟩
    exact nomatch lost.symm.trans found

/-- The turn of a module comes, and this is the disk then. -/
def Turn (dumpSyms : Disk → Location → Walk) (now : Text → Nat) (cwd : Location) (sysroot store : PurePath) (modules : List Text)
    (disk : Disk) (name : Text) (turn : Disk) : Prop :=
  ∃ before module after, modules.insertionSort (fun name other => name ≤ other) = before ++ module :: after ∧ basename module = name ∧
    (extractModules dumpSyms now cwd sysroot store before disk).result = .ok turn

/-- The lazy extraction runs dump_syms on a library of the name. -/
def Extracts (dumpSyms : Disk → Location → Walk) (now : Text → Nat) (cwd : Location) (sysroot store : PurePath) (modules : List Text)
    (disk : Disk) (name : Text) : Prop :=
  ∃ call ∈ (extractSysrootSymbols dumpSyms now cwd sysroot store modules disk).calls, call.candidate.name = name ∧ OnLibrary call

theorem extracts_iff (shared : isSharedObject name = true) (present : name ≠ []) :
    Extracts dumpSyms now cwd sysroot store modules disk name ↔
      ∃ turn, Turn dumpSyms now cwd sysroot store modules disk name turn ∧ LibraryAt turn cwd ((usrLib sysroot).child name) := by
  constructor
  · rintro ⟨call, member, named, library⟩
    obtain ⟨before, module, after, turn, same, ran, own⟩ := mem_extractModules.mp member
    obtain ⟨_, _, _, rfl⟩ := mem_extractModule.mp own
    have base := basename_of_candidate named shared
    exact ⟨turn, ⟨before, module, after, same, base, ran⟩, (library_extracted base present).mp ⟨_, own, library⟩⟩
  · rintro ⟨turn, ⟨before, module, after, same, base, ran⟩, stands⟩
    obtain ⟨call, own, library⟩ := (@library_extracted dumpSyms now turn cwd sysroot store module name base present).mpr stands
    refine ⟨call, mem_extractModules.mpr ⟨before, module, after, turn, same, ran, own⟩, ?_, library⟩
    obtain ⟨_, _, _, rfl⟩ := mem_extractModule.mp own
    rw [candidateOf_child (base ▸ present), PurePath.name_child, base]

end Lookups

/-- The lazy path finds every referenced library that the scan of the trees finds. -/
def Covers (dumpSyms : Disk → Location → Walk) (now : Text → Nat) (cwd : Location) (sysroot store : Text) (modules : List Text)
    (disk : Disk) : Prop :=
  ∀ module ∈ modules, Ingests disk cwd (PurePath.parse sysroot) (basename module) →
    Extracts dumpSyms now cwd (PurePath.parse sysroot) (PurePath.parse store) modules disk (basename module)

/-- It does so where the libraries in the trees stand directly in usr/lib, too, once their turns come. -/
theorem covers_iff_usr_lib (dumpSyms : Disk → Location → Walk) (now : Text → Nat) (cwd : Location) (sysroot store : Text)
    (modules : List Text) (disk : Disk) :
    Covers dumpSyms now cwd sysroot store modules disk ↔
      ∀ module ∈ modules, (∃ place, StandsAt disk cwd (PurePath.parse sysroot) (basename module) place) →
        ∃ turn, Turn dumpSyms now cwd (PurePath.parse sysroot) (PurePath.parse store) modules disk (basename module) turn ∧
          LibraryAt turn cwd ((usrLib (PurePath.parse sysroot)).child (basename module)) := by
  refine forall₂_congr fun module _ => ?_
  rw [ingests_iff]
  refine forall_congr' fun stands => ?_
  obtain ⟨place, stands⟩ := stands
  have shared : isSharedObject (basename module) = true := by
    obtain ⟨_, _, _, _, _, _, shared, _⟩ := stands
    exact shared
  exact extracts_iff shared stands.isName.1

/-- A sysroot with a library in a subdirectory of usr/lib. -/
def pluginSysroot : Disk :=
  let empty : Disk := ⟨[], 8, fun _ => (0, 0), Nodes.unique_nil, Nodes.held_nil⟩
  let root : Location := ["sysroot".toList]
  let lib := root ++ ["usr".toList, "lib".toList]
  ((((empty.put [] "sysroot".toList .directory).put root "usr".toList .directory).put (root ++ ["usr".toList]) "lib".toList .directory).put
    lib "plugin".toList .directory).put (lib ++ ["plugin".toList]) "libplugin.so.1".toList (.file elfMagic 0)

/-- The library below usr/lib/plugin is ingested, and dump_syms is never run for it. -/
theorem plugin_not_extracted :
    ¬ ∀ (dumpSyms : Disk → Location → Walk) (now : Text → Nat) (cwd : Location) (sysroot store : Text) (modules : List Text) (disk : Disk),
      Covers dumpSyms now cwd sysroot store modules disk := by
  intro all
  have covers := all (fun _ _ => .notFound) (fun _ => 0) [] "/sysroot".toList "/symbols".toList
    ["/usr/lib/plugin/libplugin.so.1".toList] pluginSysroot
  have name : basename "/usr/lib/plugin/libplugin.so.1".toList = "libplugin.so.1".toList := by decide +kernel
  have ingested : Ingests pluginSysroot [] (PurePath.parse "/sysroot".toList) "libplugin.so.1".toList := by
    rw [ingests_iff]
    refine ⟨["sysroot".toList, "usr".toList, "lib".toList, "plugin".toList, "libplugin.so.1".toList], "usr/lib".toList, by decide,
      ["sysroot".toList, "usr".toList, "lib".toList], ["plugin".toList], ?_, ?_, ?_, ?_⟩
    all_goals decide +kernel
  have lookup : (extractSysrootSymbols (fun _ _ => .notFound) (fun _ => 0) [] (PurePath.parse "/sysroot".toList)
      (PurePath.parse "/symbols".toList) ["/usr/lib/plugin/libplugin.so.1".toList] pluginSysroot).calls.length = 0 := by
    decide +kernel
  obtain ⟨call, member, _⟩ := covers _ List.mem_cons_self (name.symm ▸ ingested)
  rw [List.length_eq_zero_iff.mp lookup] at member
  exact absurd member List.not_mem_nil

end Crashomon.Proofs.SysrootSearch
