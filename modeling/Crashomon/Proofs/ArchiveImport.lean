import Crashomon.Web.SymbolArchive

/-! What importing an archive leaves of a store: all of it where the call raises, and one result
for each symbol file where it returns. A RecursionError in the middle of the loop breaks the first half. -/

namespace Crashomon.Proofs.ArchiveImport
open Python Web.SymbolArchive Web.SymbolStore Effects Disk FileTree

/-- Only what lies below a directory has changed. -/
structure ChangesBelow (cwd : Location) (dest : PurePath) (before after : Disk) : Prop where
  nesting : after.nesting = before.nesting
  kept : ∀ here, before.find cwd dest = .directory here → ∀ location, ¬ here.Below location → after.node location = before.node location

/-- The libraries write only below the directory they are given. -/
structure Confined (libraries : Libraries) : Prop where
  extract : ∀ disk cwd archive info dest, ChangesBelow cwd dest disk (libraries.extract disk cwd archive info dest).2
  extractall : ∀ disk cwd archive dest members, ChangesBelow cwd dest disk (libraries.extractall disk cwd archive dest members).2
  /-- A removal changes nothing outside the directory, and where it returns nothing of the directory is left. -/
  cleanup : ∀ disk location, (∀ other, ¬ location <+: other → (libraries.cleanup disk location).2.node other = disk.node other) ∧
    ((libraries.cleanup disk location).1 = none → ∀ other, location <+: other → (libraries.cleanup disk location).2.node other = none)

section Temporary
variable {disk current after : Disk} {cwd : Location} (temporary : TempDir disk cwd)

/-- The disk on which the temporary directory was made, and whatever has come to lie in it. -/
structure Within (temporary : TempDir disk cwd) (current : Disk) : Prop where
  directory : current.node temporary.location = some .directory
  outside : ∀ location, ¬ temporary.location <+: location → current.node location = disk.node location
  nesting : current.nesting = disk.nesting

theorem absent (location : Location) (inside : temporary.location <+: location) : disk.node location = none := by
  obtain ⟨rest, rfl⟩ := inside
  by_cases top : rest = []
  · rw [top, List.append_nil]
    exact temporary.fresh
  · cases found : disk.node (temporary.location ++ rest) with
    | none => rfl
    | some node => exact nomatch temporary.fresh.symm.trans (directory_above top found)

theorem within_entered : Within temporary temporary.entered := by
  have fits : Nodes.Fits disk.nodes temporary.here temporary.name .directory :=
    ⟨temporary.proper, directory_of_find temporary.found, fun _ => rfl⟩
  refine ⟨?_, fun location outside => ?_, nesting_put⟩
  · exact (node_put fits _).trans (if_pos rfl)
  · refine (node_put fits _).trans (if_neg ?_)
    rintro rfl
    exact outside (List.prefix_refl _)

variable {temporary}

/-- The path still leads to the directory. -/
theorem Within.found (within : Within temporary current) : current.find cwd temporary.path = .directory temporary.location := by
  have more : ∀ location node, disk.node location = some node → current.node location = some node := by
    intro location node there
    by_cases inside : temporary.location <+: location
    · exact nomatch (absent temporary location inside).symm.trans there
    · rw [within.outside location inside, there]
  have parent := find_mono more within.nesting temporary.found
  have entered : current.tree.entry temporary.here temporary.name = some (.directory temporary.location) :=
    entryAt_directory within.directory
  rw [TempDir.path, find_child parent temporary.proper, entered, Option.getD_some]

theorem Within.changed (within : Within temporary current) (changes : ChangesBelow cwd temporary.path current after) :
    Within temporary after := by
  have kept := changes.kept temporary.location within.found
  refine ⟨?_, fun location outside => ?_, changes.nesting.trans within.nesting⟩
  · rw [kept temporary.location fun below => below.2 rfl]
    exact within.directory
  · rw [kept location fun below => outside below.1]
    exact within.outside location outside

end Temporary

section Extraction
variable {libraries : Libraries} {disk : Disk} {cwd : Location} {temporary : TempDir disk cwd} {archive : PurePath}

theorem keeps_staysInside (holds : Disk → Prop) (dest : PurePath) (memberName : Text) : Keeps holds (staysInside cwd dest memberName) :=
  fun _ held => held

theorem keeps_listing {Member : Type} (holds : Disk → Prop) (list : Disk → Except LibraryError (List Member)) : Keeps holds (listing list) :=
  fun _ held => held

theorem keeps_calling {call : Disk → Option LibraryError × Disk}
    (changes : ∀ current, ChangesBelow cwd temporary.path current (call current).2) : Keeps (Within temporary) (calling call) :=
  fun current within => within.changed (changes current)

theorem keeps_extractZip (confined : Confined libraries) : Keeps (Within temporary) (extractZip libraries cwd archive temporary.path) := by
  unfold extractZip
  refine (keeps_listing _ _).bind fun members => ?_
  refine Keeps.bind ?_ fun _ => keeps_pure _
  apply keeps_foldlM
  intro total info
  unfold extractMember
  refine keeps_ite (keeps_throw _) ?_
  refine (keeps_staysInside _ _ _).bind fun inside => ?_
  refine keeps_ite (Keeps.bind ?_ fun _ => keeps_pure _) (keeps_pure _)
  exact keeps_calling fun current => confined.extract current cwd archive info temporary.path

theorem keeps_extractTar (confined : Confined libraries) (compression : Text) :
    Keeps (Within temporary) (extractTar libraries cwd archive temporary.path compression) := by
  unfold extractTar
  refine (keeps_listing _ _).bind fun members => ?_
  refine Keeps.bind ?_ fun collected => keeps_calling fun current => confined.extractall current cwd archive temporary.path collected.2
  apply keeps_foldlM
  intro collected member
  unfold collectMember
  refine keeps_ite (keeps_pure _) ?_
  refine keeps_ite (keeps_throw _) ?_
  exact (keeps_staysInside _ _ _).bind fun _ => keeps_pure _

theorem keeps_extractArchive (confined : Confined libraries) (format : Format) :
    Keeps (Within temporary) (extractArchive libraries cwd archive temporary.path format) := by
  cases format with
  | zip => exact (keeps_extractZip confined).adapt _
  | tar compression => exact (keeps_extractTar confined compression).adapt _

end Extraction

section Files
variable {limit : Nat} {cwd : Location} {storePath : Text} {now : PurePath → Nat}

/-- Each file, in its turn, comes to a stored path or to an error; the disk is the one before the
first file, and in the end the one after the last. A file without a valid MODULE line leaves the
disk alone. -/
inductive Accounts (limit : Nat) (cwd : Location) (storePath : Text) (now : PurePath → Nat) :
    Disk → List PurePath → (stored : List PurePath) → (errors : List (Text × FileError)) → Disk → Prop where
  | nil {disk : Disk} : Accounts limit cwd storePath now disk [] [] [] disk
  | stored {disk last : Disk} {symFile dest : PurePath} {text : Text} {symFiles stored : List PurePath} {errors : List (Text × FileError)}
      (read : readText disk cwd symFile = some text) (shallow : ¬ TooDeep limit disk.tree cwd storePath text)
      (result : (addSymText disk.tree cwd storePath text).result = .ok dest)
      (later : Accounts limit cwd storePath now ((addSymText disk.tree cwd storePath text).onto disk (now symFile)) symFiles stored errors last) :
      Accounts limit cwd storePath now disk (symFile :: symFiles) (dest :: stored) errors last
  | invalid {disk last : Disk} {symFile : PurePath} {text : Text} {error : StoreError} {symFiles stored : List PurePath}
      {errors : List (Text × FileError)} (read : readText disk cwd symFile = some text) (parsed : parseModuleLine text = .error error)
      (later : Accounts limit cwd storePath now disk symFiles stored errors last) :
      Accounts limit cwd storePath now disk (symFile :: symFiles) stored ((symFile.name, .store error) :: errors) last
  | failed {disk last : Disk} {symFile : PurePath} {text : Text} {module : Text × Text} {error : StoreError}
      {symFiles stored : List PurePath} {errors : List (Text × FileError)} (read : readText disk cwd symFile = some text)
      (parsed : parseModuleLine text = .ok module) (shallow : ¬ TooDeep limit disk.tree cwd storePath text)
      (result : (addSymText disk.tree cwd storePath text).result = .error error)
      (later : Accounts limit cwd storePath now ((addSymText disk.tree cwd storePath text).onto disk (now symFile)) symFiles stored errors last) :
      Accounts limit cwd storePath now disk (symFile :: symFiles) stored ((symFile.name, .store error) :: errors) last
  | unreadable {disk last : Disk} {symFile : PurePath} {symFiles stored : List PurePath} {errors : List (Text × FileError)}
      (read : readText disk cwd symFile = none) (later : Accounts limit cwd storePath now disk symFiles stored errors last) :
      Accounts limit cwd storePath now disk (symFile :: symFiles) stored ((symFile.name, .unreadable) :: errors) last

/-- The file's MODULE name is too deep for the interpreter's stack. -/
def Overflows (limit : Nat) (cwd : Location) (storePath : Text) (disk : Disk) (symFile : PurePath) : Prop :=
  ∃ text, readText disk cwd symFile = some text ∧ TooDeep limit disk.tree cwd storePath text

theorem not_tooDeep_invalid {tree : FileTree} {text : Text} {error : StoreError} (parsed : parseModuleLine text = .error error) :
    ¬ TooDeep limit tree cwd storePath text := by
  rintro ⟨module, found, _⟩
  rw [parsed] at found
  cases found

theorem addSymText_invalid {tree : FileTree} {text : Text} {error : StoreError} (parsed : parseModuleLine text = .error error) :
    addSymText tree cwd storePath text = ⟨.error error, [], none⟩ := by
  rw [addSymText, parsed]

theorem storeFile_returns {disk after : Disk} {symFile : PurePath} {result : Except FileError PurePath}
    (ran : importFile limit cwd storePath (now symFile) symFile disk = (.ok result, after)) (report : Report) :
    storeFile limit cwd storePath now report symFile disk = (.ok (report.add symFile result), after) := by
  rw [storeFile, bind_returned ran]
  rfl

theorem importFile_unreadable {disk : Disk} {symFile : PurePath} (read : readText disk cwd symFile = none) :
    importFile limit cwd storePath (now symFile) symFile disk = (.ok (.error .unreadable), disk) := by
  rw [importFile, read]

theorem importFile_text {disk : Disk} {symFile : PurePath} {text : Text} (read : readText disk cwd symFile = some text)
    (shallow : ¬ TooDeep limit disk.tree cwd storePath text) :
    importFile limit cwd storePath (now symFile) symFile disk =
      (.ok ((addSymText disk.tree cwd storePath text).result.mapError .store),
        (addSymText disk.tree cwd storePath text).onto disk (now symFile)) := by
  rw [importFile, read]
  exact if_neg shallow

theorem importFile_invalid {disk : Disk} {symFile : PurePath} {text : Text} {error : StoreError}
    (read : readText disk cwd symFile = some text) (parsed : parseModuleLine text = .error error) :
    importFile limit cwd storePath (now symFile) symFile disk = (.ok (.error (.store error)), disk) := by
  rw [importFile_text read (not_tooDeep_invalid parsed), addSymText_invalid parsed]
  rfl

/-- A loop over files that are accounted for goes on behind them. -/
theorem Accounts.ran {disk middle : Disk} {done stored : List PurePath} {errors : List (Text × FileError)}
    (accounts : Accounts limit cwd storePath now disk done stored errors middle) (later : List PurePath) (report : Report) :
    (done ++ later).foldlM (storeFile limit cwd storePath now) report disk =
      later.foldlM (storeFile limit cwd storePath now) (report.1 ++ stored, report.2 ++ errors) middle := by
  induction accounts generalizing report with
  | nil => rw [List.nil_append, List.append_nil, List.append_nil]
  | stored read shallow result _ ih =>
    rw [List.cons_append, List.foldlM_cons, bind_returned (storeFile_returns (importFile_text read shallow) report), ih, result]
    simp only [Except.mapError, Report.add, List.append_assoc, List.singleton_append]
  | invalid read parsed _ ih =>
    rw [List.cons_append, List.foldlM_cons, bind_returned (storeFile_returns (importFile_invalid read parsed) report), ih]
    simp only [Report.add, List.append_assoc, List.singleton_append]
  | failed read _ shallow result _ ih =>
    rw [List.cons_append, List.foldlM_cons, bind_returned (storeFile_returns (importFile_text read shallow) report), ih, result]
    simp only [Except.mapError, Report.add, List.append_assoc, List.singleton_append]
  | unreadable read _ ih =>
    rw [List.cons_append, List.foldlM_cons, bind_returned (storeFile_returns (importFile_unreadable read) report), ih]
    simp only [Report.add, List.append_assoc, List.singleton_append]

/-- The loop accounts for all the files, or for those before one that overflows. -/
theorem accounts_or_overflows (symFiles : List PurePath) (disk : Disk) :
    (∃ stored errors last, Accounts limit cwd storePath now disk symFiles stored errors last) ∨
      ∃ done deep later stored errors middle, symFiles = done ++ deep :: later ∧
        Accounts limit cwd storePath now disk done stored errors middle ∧ Overflows limit cwd storePath middle deep := by
  induction symFiles generalizing disk with
  | nil => exact Or.inl ⟨[], [], disk, .nil⟩
  | cons symFile symFiles ih =>
    cases read : readText disk cwd symFile with
    | none =>
      rcases ih disk with ⟨stored, errors, last, accounts⟩ | ⟨done, deep, later, stored, errors, middle, rfl, accounts, overflows⟩
      · exact Or.inl ⟨_, _, _, .unreadable read accounts⟩
      · exact Or.inr ⟨_, _, _, _, _, _, rfl, .unreadable read accounts, overflows⟩
    | some text =>
      by_cases deep : TooDeep limit disk.tree cwd storePath text
      · exact Or.inr ⟨[], symFile, symFiles, [], [], disk, rfl, .nil, text, read, deep⟩
      cases parsed : parseModuleLine text with
      | error error =>
        rcases ih disk with ⟨stored, errors, last, accounts⟩ | ⟨done, deep, later, stored, errors, middle, rfl, accounts, overflows⟩
        · exact Or.inl ⟨_, _, _, .invalid read parsed accounts⟩
        · exact Or.inr ⟨_, _, _, _, _, _, rfl, .invalid read parsed accounts, overflows⟩
      | ok module =>
        cases result : (addSymText disk.tree cwd storePath text).result with
        | ok dest =>
          rcases ih ((addSymText disk.tree cwd storePath text).onto disk (now symFile)) with
            ⟨stored, errors, last, accounts⟩ | ⟨done, deep, later, stored, errors, middle, rfl, accounts, overflows⟩
          · exact Or.inl ⟨_, _, _, .stored read deep result accounts⟩
          · exact Or.inr ⟨_, _, _, _, _, _, rfl, .stored read ‹_› result accounts, overflows⟩
        | error error =>
          rcases ih ((addSymText disk.tree cwd storePath text).onto disk (now symFile)) with
            ⟨stored, errors, last, accounts⟩ | ⟨done, deep, later, stored, errors, middle, rfl, accounts, overflows⟩
          · exact Or.inl ⟨_, _, _, .failed read parsed deep result accounts⟩
          · exact Or.inr ⟨_, _, _, _, _, _, rfl, .failed read parsed ‹_› result accounts, overflows⟩

theorem storeFiles_returns {tmp : PurePath} {disk last : Disk} {stored : List PurePath} {errors : List (Text × FileError)}
    (some : globSym disk cwd tmp ≠ []) (accounts : Accounts limit cwd storePath now disk (globSym disk cwd tmp) stored errors last) :
    storeFiles limit cwd storePath now tmp disk = (.ok (stored, errors), last) := by
  have ran := accounts.ran [] ([], [])
  rw [List.append_nil] at ran
  exact (if_neg some).trans ran

theorem storeFiles_overflows {tmp deep : PurePath} {disk middle : Disk} {done later stored : List PurePath}
    {errors : List (Text × FileError)} (split : globSym disk cwd tmp = done ++ deep :: later)
    (accounts : Accounts limit cwd storePath now disk done stored errors middle) (overflows : Overflows limit cwd storePath middle deep) :
    storeFiles limit cwd storePath now tmp disk = (.error .recursion, middle) := by
  have ran := accounts.ran (deep :: later) ([], [])
  obtain ⟨text, read, tooDeep⟩ := overflows
  have raised : importFile limit cwd storePath (now deep) deep middle = (.error .recursion, middle) := by
    rw [importFile, read]
    exact if_pos tooDeep
  have stopped (report : Report) : storeFile limit cwd storePath now report deep middle = (.error .recursion, middle) := by
    rw [storeFile, bind_raised raised]
  rw [List.foldlM_cons, bind_raised (stopped _)] at ran
  unfold storeFiles
  dsimp only
  rw [split, if_neg (by simp)]
  exact ran

theorem walk_missing {tree : FileTree} {start : Location} {first : List Text} {error : OsError}
    (missing : tree.walk start first = .error error) (rest : List Text) : tree.walk start (first ++ rest) = .error error := by
  induction first generalizing start with
  | nil => cases missing
  | cons name first ih =>
    rw [List.cons_append]
    unfold walk at missing ⊢
    split
    next climbs =>
      rw [if_pos climbs] at missing
      exact ih missing
    next stays =>
      rw [if_neg stays] at missing
      cases found : tree.entry start name with
      | none =>
        rw [found] at missing
        exact missing
      | some entry =>
        rw [found] at missing
        cases entry with
        | directory next => exact ih missing
        | file _ => exact missing
        | dangling _ => exact missing

/-- Behind a name that is missing each further one takes a call. -/
theorem length_lt_mkdirCalls {tree : FileTree} {start : Location} {first : List Text}
    (missing : tree.walk start first = .error .fileNotFound) (rest : List Text) (clean : ¬ HasNull (first ++ rest)) :
    rest.length < mkdirCalls tree start (first ++ rest).reverse := by
  induction rest using List.reverseRecOn with
  | nil =>
    rw [List.append_nil]
    cases first.reverse with
    | nil => exact Nat.one_pos
    | cons name above =>
      rw [mkdirCalls]
      split <;> exact Nat.succ_pos _
  | append_singleton rest name ih =>
    have above : ¬ HasNull (first ++ rest) := by
      rintro ⟨other, member, null⟩
      exact clean ⟨other, by rw [← List.append_assoc]; exact List.mem_append_left _ member, null⟩
    have failed : tree.makeDirectory start (first ++ rest ++ [name]) = .error .fileNotFound := by
      rw [List.append_assoc, makeDirectory, if_neg clean, ← List.append_assoc, List.getLast?_concat, List.dropLast_concat]
      dsimp only
      rw [walk_missing missing]
      rfl
    rw [← List.append_assoc, List.reverse_concat, mkdirCalls, List.reverse_cons, List.reverse_reverse, failed, List.length_append]
    exact Nat.succ_lt_succ (ih above)

end Files

section Import
variable {libraries : Libraries} {disk after : Disk} {cwd : Location} {temporary : TempDir disk cwd} {storePath archivePath : Text}
  {now : PurePath → Nat}

/-- A file or a directory anywhere below the temporary directory, by its name. -/
def IsSymFile (temporary : TempDir disk cwd) (unpacked : Disk) (symFile : PurePath) : Prop :=
  ∃ rest name node, unpacked.node ((temporary.location ++ rest) ++ [name]) = some node ∧ ".sym".toList <:+ name ∧
    symFile = PurePath.child ⟨temporary.path.root, temporary.path.tail ++ rest⟩ name

theorem mem_globSym {unpacked : Disk} (within : Within temporary unpacked) (symFile : PurePath) :
    symFile ∈ globSym unpacked cwd temporary.path ↔ IsSymFile temporary unpacked symFile := by
  rw [globSym, List.mem_filter, mem_rglob]
  constructor
  · rintro ⟨⟨here, rest, name, node, found, there, rfl⟩, ends⟩
    cases within.found.symm.trans found
    rw [PurePath.name_child] at ends
    exact ⟨rest, name, node, there, List.isSuffixOf_iff_suffix.mp ends, rfl⟩
  · rintro ⟨rest, name, node, there, ends, rfl⟩
    refine ⟨⟨temporary.location, rest, name, node, within.found, there, rfl⟩, ?_⟩
    rw [PurePath.name_child]
    exact List.isSuffixOf_iff_suffix.mpr ends

/-- The archive is of a known format and has been extracted. -/
def Unpacks (libraries : Libraries) (temporary : TempDir disk cwd) (archivePath : Text) (unpacked : Disk) : Prop :=
  ∃ format, formatOf (PurePath.parse archivePath).name = some format ∧
    extractArchive libraries cwd (PurePath.parse archivePath) temporary.path format temporary.entered = (.ok (), unpacked)

theorem within_unpacked (confined : Confined libraries) {unpacked : Disk} (unpacks : Unpacks libraries temporary archivePath unpacked) :
    Within temporary unpacked := by
  obtain ⟨format, _, extracted⟩ := unpacks
  have kept := @keeps_extractArchive _ _ _ temporary (PurePath.parse archivePath) confined format _ (within_entered temporary)
  rw [extracted] at kept
  exact kept

/-- What a call that brings files of its archive to the store leaves where it raises all the same: a MODULE name is too
deep for the stack, or the temporary directory cannot be removed. -/
inductive Interrupted (libraries : Libraries) (limit : Nat) (temporary : TempDir disk cwd) (storePath : Text) (now : PurePath → Nat)
    (unpacked : Disk) : Disk → Prop where
  | overflow {done later stored : List PurePath} {deep : PurePath} {errors : List (Text × FileError)} {middle : Disk}
      (split : globSym unpacked cwd temporary.path = done ++ deep :: later)
      (accounts : Accounts limit cwd storePath now unpacked done stored errors middle)
      (overflows : Overflows limit cwd storePath middle deep) : Interrupted libraries limit temporary storePath now unpacked middle
  | cleanup {stored : List PurePath} {errors : List (Text × FileError)} {last : Disk}
      (accounts : Accounts limit cwd storePath now unpacked (globSym unpacked cwd temporary.path) stored errors last)
      (raises : (libraries.cleanup last temporary.location).1 ≠ none) : Interrupted libraries limit temporary storePath now unpacked last

/-- Whatever interrupts the call has found the disk as it was before. -/
def Spared (libraries : Libraries) (limit : Nat) (temporary : TempDir disk cwd) (storePath archivePath : Text) (now : PurePath → Nat) : Prop :=
  ∀ unpacked left, Unpacks libraries temporary archivePath unpacked → Interrupted libraries limit temporary storePath now unpacked left →
    ∀ location, ¬ temporary.location <+: location → left.node location = disk.node location

/-- Where the call raises, every location outside the temporary directory holds what it held. Where it returns, the stored
paths and the errors account for all the symbol files that the archive has brought, each listed once. -/
structure Imported (libraries : Libraries) (limit : Nat) (temporary : TempDir disk cwd) (storePath archivePath : Text)
    (now : PurePath → Nat) (result : Except ArchiveError Report) (after : Disk) : Prop where
  unchanged : ∀ error, result = .error error → ∀ location, ¬ temporary.location <+: location → after.node location = disk.node location
  accounted : ∀ stored errors, result = .ok (stored, errors) → ∃ unpacked symFiles last,
    Unpacks libraries temporary archivePath unpacked ∧
    (∀ location, ¬ temporary.location <+: location → unpacked.node location = disk.node location) ∧
    symFiles.Nodup ∧ (∀ symFile, symFile ∈ symFiles ↔ IsSymFile temporary unpacked symFile) ∧
    Accounts limit cwd storePath now unpacked symFiles stored errors last ∧
    ∀ location, after.node location = if temporary.location <+: location then none else last.node location

theorem elim_error (error : ArchiveError) (raised : Option LibraryError) :
    ∃ other, (raised.elim (.error error) fun error => .error (.library error) : Except ArchiveError Report) = .error other := by
  cases raised with
  | none => exact ⟨error, rfl⟩
  | some raised => exact ⟨.library raised, rfl⟩

/-- How the call ends where its body ends so. -/
theorem addArchive_unpacked {limit : Nat} {unpacked left : Disk} {result : Except ArchiveError Report}
    (unpacks : Unpacks libraries temporary archivePath unpacked)
    (stored : storeFiles limit cwd storePath now temporary.path unpacked = (result, left)) :
    addArchive libraries limit disk cwd temporary storePath archivePath now =
      ((libraries.cleanup left temporary.location).1.elim result fun error => .error (.library error),
        (libraries.cleanup left temporary.location).2) := by
  obtain ⟨format, known, extracted⟩ := unpacks
  unfold addArchive
  dsimp only
  rw [known]
  dsimp only
  rw [bind_returned extracted, stored]

/-- How a call can end: before it stores a file, interrupted, or with an account of the files. -/
inductive Outcome (libraries : Libraries) (limit : Nat) (temporary : TempDir disk cwd) (storePath archivePath : Text)
    (now : PurePath → Nat) : Except ArchiveError Report × Disk → Prop where
  | refused (error : ArchiveError) (after : Disk)
      (unchanged : ∀ location, ¬ temporary.location <+: location → after.node location = disk.node location) :
      Outcome libraries limit temporary storePath archivePath now (.error error, after)
  | interrupted (error : ArchiveError) {unpacked left after : Disk} (unpacks : Unpacks libraries temporary archivePath unpacked)
      (interrupted : Interrupted libraries limit temporary storePath now unpacked left)
      (same : ∀ location, ¬ temporary.location <+: location → after.node location = left.node location) :
      Outcome libraries limit temporary storePath archivePath now (.error error, after)
  | returned {stored : List PurePath} {errors : List (Text × FileError)} {unpacked last after : Disk}
      (unpacks : Unpacks libraries temporary archivePath unpacked)
      (accounts : Accounts limit cwd storePath now unpacked (globSym unpacked cwd temporary.path) stored errors last)
      (removed : ∀ location, after.node location = if temporary.location <+: location then none else last.node location) :
      Outcome libraries limit temporary storePath archivePath now (.ok (stored, errors), after)

/-- An error leaves at most what there was when the temporary directory was removed. -/
theorem outcome_refused (confined : Confined libraries) {limit : Nat} {error : ArchiveError} {unpacked : Disk}
    (within : Within temporary unpacked)
    (ran : addArchive libraries limit disk cwd temporary storePath archivePath now =
      ((libraries.cleanup unpacked temporary.location).1.elim (.error error) fun error => .error (.library error),
        (libraries.cleanup unpacked temporary.location).2)) :
    Outcome libraries limit temporary storePath archivePath now
      (addArchive libraries limit disk cwd temporary storePath archivePath now) := by
  obtain ⟨other, ended⟩ := elim_error error (libraries.cleanup unpacked temporary.location).1
  rw [ran, ended]
  refine .refused other _ fun location outside => ?_
  exact ((confined.cleanup unpacked temporary.location).1 location outside).trans (within.outside location outside)

theorem unpacked_outcome (confined : Confined libraries) (limit : Nat) {unpacked : Disk}
    (unpacks : Unpacks libraries temporary archivePath unpacked) :
    Outcome libraries limit temporary storePath archivePath now
      (addArchive libraries limit disk cwd temporary storePath archivePath now) := by
  by_cases empty : globSym unpacked cwd temporary.path = []
  · exact outcome_refused confined (within_unpacked confined unpacks) (addArchive_unpacked unpacks (if_pos empty))
  rcases @accounts_or_overflows limit cwd storePath now (globSym unpacked cwd temporary.path) unpacked with
    ⟨stored, errors, last, accounts⟩ | ⟨done, deep, later, stored, errors, middle, split, accounts, overflows⟩
  · obtain ⟨outside, inside⟩ := confined.cleanup last temporary.location
    rw [addArchive_unpacked unpacks (storeFiles_returns empty accounts)]
    cases removed : (libraries.cleanup last temporary.location).1 with
    | none =>
      refine .returned unpacks accounts fun location => ?_
      split
      next within => exact inside removed location within
      next apart => exact outside location apart
    | some error =>
      exact .interrupted (.library error) unpacks (.cleanup accounts (by rw [removed]; exact Option.some_ne_none _)) outside
  · obtain ⟨error, ended⟩ := elim_error .recursion (libraries.cleanup middle temporary.location).1
    rw [addArchive_unpacked unpacks (storeFiles_overflows split accounts overflows), ended]
    exact .interrupted error unpacks (.overflow split accounts overflows) (confined.cleanup middle temporary.location).1

theorem addArchive_outcome (confined : Confined libraries) (limit : Nat) (temporary : TempDir disk cwd) (storePath archivePath : Text)
    (now : PurePath → Nat) :
    Outcome libraries limit temporary storePath archivePath now
      (addArchive libraries limit disk cwd temporary storePath archivePath now) := by
  cases known : formatOf (PurePath.parse archivePath).name with
  | none =>
    have refused : ∃ error, addArchive libraries limit disk cwd temporary storePath archivePath now = (.error error, disk) := by
      unfold addArchive
      dsimp only
      rw [known]
      exact ⟨_, rfl⟩
    obtain ⟨error, ran⟩ := refused
    rw [ran]
    exact .refused error disk fun _ _ => rfl
  | some format =>
    have kept := @keeps_extractArchive _ _ _ temporary (PurePath.parse archivePath) confined format _ (within_entered temporary)
    obtain ⟨outcome, unpacked, extracted⟩ : ∃ outcome unpacked,
      extractArchive libraries cwd (PurePath.parse archivePath) temporary.path format temporary.entered = (outcome, unpacked) := ⟨_, _, rfl⟩
    rw [extracted] at kept
    cases outcome with
    | error error =>
      refine @outcome_refused _ _ _ _ _ _ _ confined _ error _ kept ?_
      unfold addArchive
      dsimp only
      rw [known]
      dsimp only
      rw [bind_raised extracted]
    | ok _ => exact unpacked_outcome confined limit ⟨format, known, extracted⟩

/-- What interrupts the call makes it raise, with the disk as it is by then. -/
theorem Interrupted.raises {limit : Nat} {unpacked left : Disk} (unpacks : Unpacks libraries temporary archivePath unpacked)
    (interrupted : Interrupted libraries limit temporary storePath now unpacked left) :
    globSym unpacked cwd temporary.path = [] ∧ left = unpacked ∨
      ∃ error, addArchive libraries limit disk cwd temporary storePath archivePath now =
        (.error error, (libraries.cleanup left temporary.location).2) := by
  cases interrupted with
  | overflow split accounts overflows =>
    obtain ⟨error, ended⟩ := elim_error .recursion (libraries.cleanup left temporary.location).1
    refine Or.inr ⟨error, ?_⟩
    rw [addArchive_unpacked unpacks (storeFiles_overflows split accounts overflows), ended]
  | cleanup accounts raises =>
    by_cases empty : globSym unpacked cwd temporary.path = []
    · rw [empty] at accounts
      cases accounts
      exact Or.inl ⟨empty, rfl⟩
    · obtain ⟨error, raised⟩ := Option.ne_none_iff_exists'.mp raises
      refine Or.inr ⟨.library error, ?_⟩
      rw [addArchive_unpacked unpacks (storeFiles_returns empty accounts), raised]
      rfl

/-- A call is right exactly where nothing interrupts it behind a file that has changed the disk, which takes names of
any length and is never full. -/
theorem archive_imported_iff (confined : Confined libraries) (limit : Nat) (temporary : TempDir disk cwd) (storePath archivePath : Text)
    (now : PurePath → Nat) {result : Except ArchiveError Report}
    (ran : addArchive libraries limit disk cwd temporary storePath archivePath now = (result, after)) :
    Imported libraries limit temporary storePath archivePath now result after ↔
      Spared libraries limit temporary storePath archivePath now := by
  constructor
  · intro imported unpacked left unpacks interrupted location outside
    rcases interrupted.raises unpacks with ⟨_, rfl⟩ | ⟨error, raised⟩
    · exact (within_unpacked confined unpacks).outside location outside
    · cases raised.symm.trans ran
      exact ((confined.cleanup left temporary.location).1 location outside).symm.trans (imported.unchanged error rfl location outside)
  · intro spared
    have outcome := addArchive_outcome confined limit temporary storePath archivePath now
    rw [ran] at outcome
    cases outcome with
    | refused error _ unchanged => exact ⟨fun _ _ => unchanged, nofun⟩
    | interrupted error unpacks interrupted same =>
      exact ⟨fun _ _ location outside => (same location outside).trans (spared _ _ unpacks interrupted location outside), nofun⟩
    | returned unpacks accounts removed =>
      have within := within_unpacked confined unpacks
      refine ⟨nofun, ?_⟩
      rintro _ _ ⟨⟩
      exact ⟨_, _, _, unpacks, within.outside, (nodup_rglob _ cwd temporary.path).filter _, mem_globSym within, accounts, removed⟩

end Import

section Example

def goodSym : Text := "MODULE Linux x86_64 AB1 app\n".toList

/-- A zip archive of a file of that content and of a symbol file. -/
def zipOfTwo (content : Text) : Libraries where
  infolist disk cwd archive :=
    (disk.read cwd archive).elim (.error (.os "No such file or directory".toList)) fun _ =>
      .ok [⟨"other.sym".toList, content.length⟩, ⟨"good.sym".toList, 28⟩]
  extract disk cwd _ info dest :=
    match disk.find cwd dest with
    | .directory here =>
      let text := if info.filename = "good.sym".toList then goodSym else content
      (none, disk.put here info.filename (.file (encodeUtf8 text) 0))
    | _ => (some (.os "No such file or directory".toList), disk)
  getmembers _ _ _ _ := .error (.tarError "file could not be opened successfully".toList)
  extractall disk _ _ _ _ := (none, disk)
  cleanup disk location := if location = [] then (some (.os "Device or resource busy".toList), disk) else (none, disk.remove location)

theorem changesBelow_refl (cwd : Location) (dest : PurePath) (disk : Disk) : ChangesBelow cwd dest disk disk :=
  ⟨rfl, fun _ _ _ _ => rfl⟩

theorem changesBelow_put {disk : Disk} {cwd here : Location} {dest : PurePath} (found : disk.find cwd dest = .directory here) (name : Text)
    (node : Node) : ChangesBelow cwd dest disk (disk.put here name node) := by
  refine ⟨nesting_put, fun place led location above => ?_⟩
  cases found.symm.trans led
  by_cases fits : Nodes.Fits disk.nodes here name node
  · rw [node_put fits, if_neg]
    rintro rfl
    exact above ⟨List.prefix_append _ _, by simp⟩
  · rw [put, dif_neg fits]

theorem zipOfTwo_confined (content : Text) : Confined (zipOfTwo content) := by
  constructor
  · intro disk cwd archive info dest
    simp only [zipOfTwo]
    split
    next found => exact changesBelow_put found _ _
    next => exact changesBelow_refl cwd dest disk
  · intro disk cwd archive dest members
    exact changesBelow_refl cwd dest disk
  · intro disk location
    by_cases top : location = []
    · rw [zipOfTwo]
      dsimp only
      rw [if_pos top]
      exact ⟨fun _ _ => rfl, fun impossible => by cases impossible⟩
    · rw [zipOfTwo]
      dsimp only
      rw [if_neg top]
      exact ⟨fun other outside => (node_remove top other).trans (if_neg outside),
        fun _ other inside => (node_remove top other).trans (if_pos inside)⟩

def uploaded : Disk :=
  let blank : Disk := ⟨[], 8, fun _ => (0, 0), Nodes.unique_nil, Nodes.held_nil⟩
  ((blank.put [] "tmp".toList .directory).put [] "store".toList .directory).put [] "up.ZIP".toList (.file [] 0)

def unpacking : TempDir uploaded [] where
  parent := PurePath.parse "/tmp".toList
  here := ["tmp".toList]
  name := "tmpab1".toList
  found := by decide +kernel
  proper := by decide
  fresh := by decide +kernel

/-- One file is stored, the other is an error. -/
theorem zipOfTwo_imported :
    (addArchive (zipOfTwo ['x', '\n']) 1000 uploaded [] unpacking "/store".toList "/up.ZIP".toList fun _ => 7).1 =
      .ok ([⟨['/'], ["store".toList, "app".toList, "AB1".toList, "app.sym".toList]⟩],
        [("other.sym".toList, .store (.invalidModuleLine ['x']))]) ∧
    Imported (zipOfTwo ['x', '\n']) 1000 unpacking "/store".toList "/up.ZIP".toList (fun _ => 7)
      (addArchive (zipOfTwo ['x', '\n']) 1000 uploaded [] unpacking "/store".toList "/up.ZIP".toList fun _ => 7).1
      (addArchive (zipOfTwo ['x', '\n']) 1000 uploaded [] unpacking "/store".toList "/up.ZIP".toList fun _ => 7).2 := by
  refine ⟨by decide +kernel, (archive_imported_iff (zipOfTwo_confined ['x', '\n']) 1000 unpacking "/store".toList "/up.ZIP".toList
    (fun _ => 7) Prod.mk.eta.symm).mpr ?_⟩
  intro unpacked left unpacks interrupted location outside
  rcases interrupted.raises unpacks with ⟨_, rfl⟩ | ⟨error, raised⟩
  · exact (within_unpacked (zipOfTwo_confined ['x', '\n']) unpacks).outside location outside
  · have returned : (addArchive (zipOfTwo ['x', '\n']) 1000 uploaded [] unpacking "/store".toList "/up.ZIP".toList fun _ => 7).1.isOk = true := by
      decide +kernel
    rw [raised] at returned
    cases returned

/-- The name of a module in 1000 directories. -/
def deepName : Text := (List.replicate 1000 ['a', '/']).flatten ++ ['b']

def deepSym : Text := "MODULE Linux x86_64 AB1 ".toList ++ deepName ++ ['\n']

theorem deepSym_tooDeep {tree : FileTree} (missing : tree.walk [] ["store".toList, ['a']] = .error .fileNotFound) :
    TooDeep 1000 tree [] "/store".toList deepSym := by
  have parsed : (parseModuleLine deepSym).toOption = some (deepName, "AB1".toList) := by decide +kernel
  have names : (destDirOf "/store".toList deepName "AB1".toList).tail =
      ["store".toList, ['a']] ++ (List.replicate 999 ['a'] ++ [['b'], "AB1".toList]) := by decide +kernel
  have absolute : startOf [] (destDirOf "/store".toList deepName "AB1".toList) = [] := ite_self _
  refine ⟨(deepName, "AB1".toList), parsed, ?_⟩
  dsimp only
  rw [names, absolute]
  have count : (List.replicate 999 ['a'] ++ [['b'], "AB1".toList]).length = 1001 := by decide +kernel
  have calls := length_lt_mkdirCalls missing (List.replicate 999 ['a'] ++ [['b'], "AB1".toList]) (by decide +kernel)
  rw [count] at calls
  exact Nat.lt_of_succ_lt calls

def twoUnpacked : Disk :=
  (extractArchive (zipOfTwo deepSym) [] (PurePath.parse "/up.ZIP".toList) unpacking.path .zip unpacking.entered).2

def goodFile : PurePath := ⟨['/'], ["tmp".toList, "tmpab1".toList, "good.sym".toList]⟩
def otherFile : PurePath := ⟨['/'], ["tmp".toList, "tmpab1".toList, "other.sym".toList]⟩

/-- The first file is stored, and then the call raises. -/
theorem deep_name_raises :
    (addArchive (zipOfTwo deepSym) 1000 uploaded [] unpacking "/store".toList "/up.ZIP".toList fun _ => 7).1 = .error .recursion ∧
    ¬ ∀ libraries, Confined libraries → ∀ limit disk cwd temporary storePath archivePath now result after,
      addArchive libraries limit disk cwd temporary storePath archivePath now = (result, after) →
        Imported libraries limit temporary storePath archivePath now result after := by
  have extracted : (extractArchive (zipOfTwo deepSym) [] (PurePath.parse "/up.ZIP".toList) unpacking.path .zip unpacking.entered).1 =
      .ok () := by decide +kernel
  have unpacks : Unpacks (zipOfTwo deepSym) unpacking "/up.ZIP".toList twoUnpacked := ⟨.zip, by decide +kernel, Prod.ext extracted (by rw [twoUnpacked])⟩
  have files : globSym twoUnpacked [] unpacking.path = [goodFile, otherFile] := by decide +kernel
  have read : readText twoUnpacked [] goodFile = some goodSym := by decide +kernel
  have shallow : ¬ TooDeep 1000 twoUnpacked.tree [] "/store".toList goodSym := by decide +kernel
  have stored : (addSymText twoUnpacked.tree [] "/store".toList goodSym).result =
      .ok ⟨['/'], ["store".toList, "app".toList, "AB1".toList, "app.sym".toList]⟩ := by decide +kernel
  let middle := (addSymText twoUnpacked.tree [] "/store".toList goodSym).onto twoUnpacked 7
  have text : readText middle [] otherFile = some deepSym := by decide +kernel
  have missing : (middle.tree.walk [] ["store".toList, ['a']]) = .error .fileNotFound := by decide +kernel
  have overflows : Overflows 1000 [] "/store".toList middle otherFile := ⟨deepSym, text, deepSym_tooDeep missing⟩
  have accounts : Accounts 1000 [] "/store".toList (fun _ => 7) twoUnpacked [goodFile] _ [] middle :=
    .stored read shallow stored .nil
  have ran := addArchive_unpacked unpacks (storeFiles_overflows files accounts overflows)
  have removed : ((zipOfTwo deepSym).cleanup middle unpacking.location).1 = none := by decide +kernel
  rw [removed] at ran
  refine ⟨by rw [ran]; rfl, fun all => ?_⟩
  have left := (all _ (zipOfTwo_confined deepSym) 1000 uploaded [] unpacking _ _ _ _ _ ran).unchanged _ rfl
    ["store".toList, "app".toList] (by decide +kernel)
  revert left
  decide +kernel

end Example

end Crashomon.Proofs.ArchiveImport
