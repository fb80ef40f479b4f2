import Crashomon.Daemon.DiskManager

/-! What the listing of a directory makes of entries that cannot be examined. A failing
`stat` skips its entry; a failing `is_regular_file` leaves the error code set, which the
next turn and the check after the loop take for an error of the iterator. -/

namespace Crashomon.Proofs.DirectoryListing
open Bytes Daemon Daemon.DiskManager

/-- A regular file with the extension whose times and size can be read. -/
def Listable (calls : DirectoryCalls) (ext : ByteString) (file : StoredFile) : Prop :=
  calls.isRegularFile file.path = some true ∧ extension file.path = ext ∧ calls.stat file.path = true

instance (calls : DirectoryCalls) (ext : ByteString) (file : StoredFile) : Decidable (Listable calls ext file) :=
  inferInstanceAs (Decidable (_ ∧ _ ∧ _))

/-- No entry makes the query for its type fail. -/
def TypesKnown (calls : DirectoryCalls) (files : List StoredFile) : Prop :=
  ∀ file ∈ files, calls.isRegularFile file.path ≠ none

instance (calls : DirectoryCalls) (files : List StoredFile) : Decidable (TypesKnown calls files) :=
  inferInstanceAs (Decidable (∀ file ∈ files, _))

/-- The entries that cannot be examined are skipped, and every other file that is looked for
is listed once, the oldest first. -/
def Skips (calls : DirectoryCalls) (ext : ByteString) (report : StoredFile → Report) (files : List StoredFile)
    (outcome : StatusOr (List Report)) : Prop :=
  ∃ reports, outcome = .ok reports ∧ reports.Perm ((files.filter fun file => Listable calls ext file).map report) ∧
    reports.Pairwise fun older newer => older.mtime ≤ newer.mtime

section Loop
variable {calls : DirectoryCalls} {ext : ByteString} {files : List StoredFile}

theorem listEntries_known (known : TypesKnown calls files) :
    listEntries calls ext false files = (files.filter fun file => Listable calls ext file, false) := by
  induction files with
  | nil => rfl
  | cons file rest ih =>
    obtain ⟨first, later⟩ := List.forall_mem_cons.mp known
    rw [listEntries, ih later]
    cases kind : calls.isRegularFile file.path with
    | none => exact absurd kind first
    | some regular =>
      cases regular with
      | false => simp [Listable, kind]
      | true => by_cases named : extension file.path = ext ∧ calls.stat file.path = true <;> simp [Listable, kind, named]

/-- Once an entry has set the error code, no later one clears it. -/
theorem listEntries_fails (unknown : ¬ TypesKnown calls files) : (listEntries calls ext false files).2 = true := by
  induction files with
  | nil => exact absurd (List.forall_mem_nil _) unknown
  | cons file rest ih =>
    rw [listEntries]
    cases kind : calls.isRegularFile file.path with
    | none => cases rest <;> rfl
    | some regular =>
      have later : ¬ TypesKnown calls rest := by
        intro known
        apply unknown
        exact List.forall_mem_cons.mpr ⟨by simp [kind], known⟩
      cases regular with
      | false => exact ih later
      | true =>
        dsimp only
        split
        next => exact ih later
        next => exact ih later

theorem skips_iff {sort : MtimeSort} {dir : ByteString} {report : StoredFile → Report} (directory : calls.isDirectory = true)
    (iterates : calls.iterates = true) :
    Skips calls ext report files (listFiles sort calls dir ext report files) ↔ TypesKnown calls files := by
  have opened : decide (¬ calls.iterates = true) = false := by simp [iterates]
  unfold listFiles
  rw [if_neg (not_not.mpr directory), opened]
  by_cases known : TypesKnown calls files
  · refine iff_of_true ⟨_, ?_, sort.perm _, sort.sorted _⟩ known
    rw [listEntries_known known]
    rfl
  · refine iff_of_false ?_ known
    rintro ⟨reports, listed, _⟩
    have failed := @listEntries_fails calls ext files known
    generalize listEntries calls ext false files = entries at failed listed
    dsimp only at listed
    rw [failed, if_pos rfl] at listed
    cases listed

end Loop

/-- Both listings skip what cannot be examined exactly where no entry makes the query for its type fail. -/
theorem listings_skip_iff (sort : MtimeSort) (calls : DirectoryCalls) (dir : ByteString) (files : List StoredFile)
    (directory : calls.isDirectory = true) (iterates : calls.iterates = true) :
    (Skips calls (ascii ".dmp") crashReport files (listCrashReports sort calls dir files) ↔ TypesKnown calls files) ∧
      ∀ ext, Skips calls ext exportFile files (listExportFiles sort calls dir ext files) ↔ TypesKnown calls files :=
  ⟨skips_iff directory iterates, fun _ => skips_iff directory iterates⟩

/-- A directory with the given regular files; the types of the others cannot be read. -/
def partlyKnown (regular : List ByteString) : DirectoryCalls where
  isDirectory := true
  iterates := true
  isRegularFile path := if regular.contains path then some true else none
  stat _ := true
  remove _ := true
  time := 0
  message := ascii "No such file or directory"

/-- A dump with a broken link to another one beside it. -/
def besideLink : List StoredFile := [⟨ascii "/db/pending/a.dmp", [1], 5⟩, ⟨ascii "/db/pending/b.dmp", [], 0⟩]

theorem regular_dumps_listed : Skips (partlyKnown [ascii "/db/pending/a.dmp", ascii "/db/pending/b.dmp"]) (ascii ".dmp")
    crashReport besideLink (listCrashReports stableSort
      (partlyKnown [ascii "/db/pending/a.dmp", ascii "/db/pending/b.dmp"]) (ascii "/db/pending") besideLink) :=
  (listings_skip_iff stableSort (partlyKnown [ascii "/db/pending/a.dmp", ascii "/db/pending/b.dmp"]) (ascii "/db/pending")
    besideLink rfl rfl).1.mpr (by decide)

/-- The link after the dump turns the listing into an error. -/
theorem link_fails_listing : ¬ ∀ sort calls dir files, calls.isDirectory = true → calls.iterates = true →
    Skips calls (ascii ".dmp") crashReport files (listCrashReports sort calls dir files) := by
  intro all
  obtain ⟨reports, listed, _⟩ := all stableSort (partlyKnown [ascii "/db/pending/a.dmp"]) (ascii "/db/pending") besideLink rfl rfl
  have failed : listCrashReports stableSort (partlyKnown [ascii "/db/pending/a.dmp"]) (ascii "/db/pending") besideLink =
      .error (internalError (ascii "directory_iterator error for " ++ ascii "/db/pending" ++ ascii ": " ++
        ascii "No such file or directory")) := rfl
  rw [failed] at listed
  cases listed

end Crashomon.Proofs.DirectoryListing
