import Crashomon.Base.Text

/-! Directories, files and links below a root, and what the calls of an operating
system find and create there. Every name is looked up in a resolved directory, so
`..` climbs from where a link has led. -/

namespace Crashomon

/-- A directory or file by the names on the way to it, links resolved. -/
abbrev Location := List Text

inductive Entry where
  | directory (location : Location)
  | file (location : Location)
  /-- A link to nothing; where it names a place in a directory, a file can be created there. -/
  | dangling (target : Option Location)
  deriving DecidableEq, Repr

structure FileTree where
  entry : Location → Text → Option Entry
  /-- Creating this, or opening it for writing, fails all the same. -/
  refuses : Location → Bool

inductive OsError where
  | fileNotFound
  | notADirectory
  | fileExists
  | isADirectory
  | refused
  | embeddedNull
  deriving DecidableEq, Repr

namespace FileTree

def dotdot : Text := ['.', '.']

def HasNull (path : List Text) : Prop := ∃ name ∈ path, '\x00' ∈ name

instance (path : List Text) : Decidable (HasNull path) := inferInstanceAs (Decidable (∃ name ∈ path, _))

def walk (tree : FileTree) : Location → List Text → Except OsError Location
  | here, [] => .ok here
  | here, name :: rest =>
    if name = dotdot then walk tree here.dropLast rest
    else match tree.entry here name with
      | some (.directory next) => walk tree next rest
      | some (.file _) => .error .notADirectory
      | some (.dangling _) => .error .fileNotFound
      | none => .error .fileNotFound

/-- mkdir(2): where the directory is created. -/
def makeDirectory (tree : FileTree) (start : Location) (path : List Text) : Except OsError Location :=
  if HasNull path then .error .embeddedNull
  else match path.getLast? with
    | none => .error .fileExists
    | some name => do
      let here ← tree.walk start path.dropLast
      if name = dotdot ∨ tree.entry here name ≠ none then .error .fileExists
      else if tree.refuses (here ++ [name]) then .error .refused
      else .ok (here ++ [name])

/-- open(2) for writing, which creates and truncates: where the file is. -/
def openForWriting (tree : FileTree) (start : Location) (path : List Text) : Except OsError Location :=
  if HasNull path then .error .embeddedNull
  else match path.getLast? with
    | none => .error .isADirectory
    | some name => do
      let here ← tree.walk start path.dropLast
      let location ← if name = dotdot then .error .isADirectory
        else match tree.entry here name with
          | some (.directory _) => .error .isADirectory
          | some (.file location) => .ok location
          | some (.dangling (some location)) => .ok location
          | some (.dangling none) => .error .fileNotFound
          | none => .ok (here ++ [name])
      if tree.refuses location then .error .refused else .ok location

def adding (tree : FileTree) (made : List Location) : FileTree :=
  { tree with entry := fun here name =>
      if here ++ [name] ∈ made then some (.directory (here ++ [name])) else tree.entry here name }

def isDirectory (tree : FileTree) (start : Location) (path : List Text) : Bool := (tree.walk start path).isOk

/-- `Path.mkdir(exist_ok=True)`. The locations made come with the outcome. -/
def mkdir (tree : FileTree) (start : Location) (path : List Text) : Except OsError Unit × List Location :=
  match tree.makeDirectory start path with
  | .ok location => (.ok (), [location])
  | .error .fileNotFound => (.error .fileNotFound, [])
  | .error .embeddedNull => (.error .embeddedNull, [])
  | .error error => if tree.isDirectory start path then (.ok (), []) else (.error error, [])

/-- `Path.mkdir(parents=True, exist_ok=True)`, on the names of the path from the last to the first. -/
def mkdirParents (tree : FileTree) (start : Location) : List Text → Except OsError Unit × List Location
  | [] => tree.mkdir start []
  | name :: above =>
    match tree.makeDirectory start (name :: above).reverse with
    | .error .fileNotFound =>
      match mkdirParents tree start above with
      | (.error error, made) => (.error error, made)
      | (.ok (), made) =>
        let again := (tree.adding made).mkdir start (name :: above).reverse
        (again.1, made ++ again.2)
    | _ => tree.mkdir start (name :: above).reverse

/-- Where a path leads once the directories missing on its way are made; nowhere
past a file or a dangling link. -/
def place (tree : FileTree) : Location → List Text → Option Location
  | here, [] => some here
  | here, name :: rest =>
    if name = dotdot then place tree here.dropLast rest
    else match tree.entry here name with
      | some (.directory next) => place tree next rest
      | some _ => none
      | none => place tree (here ++ [name]) rest

/-- The directories that are missing on the way of a path, in order. -/
def missing (tree : FileTree) : Location → List Text → List Location
  | _, [] => []
  | here, name :: rest =>
    if name = dotdot then missing tree here.dropLast rest
    else match tree.entry here name with
      | some (.directory next) => missing tree next rest
      | some _ => []
      | none => (here ++ [name]) :: missing tree (here ++ [name]) rest

variable {tree : FileTree}

attribute [local simp] walk place missing

@[simp] theorem refuses_adding (made : List Location) : (tree.adding made).refuses = tree.refuses := rfl

theorem adding_congr {first second : List Location} (same : ∀ location, location ∈ first ↔ location ∈ second) :
    tree.adding first = tree.adding second := by
  simp only [adding, same]

theorem adding_nil : tree.adding [] = tree := by
  simp only [adding, List.not_mem_nil, if_false]

section Lookup

theorem place_snoc (start : Location) (path : List Text) (name : Text) :
    tree.place start (path ++ [name]) = (tree.place start path).bind fun here => tree.place here [name] := by
  induction path generalizing start with
  | nil => rfl
  | cons first path ih =>
    rw [List.cons_append, place, place]
    split
    next => exact ih _
    next =>
      split
      next => exact ih _
      next => rfl
      next => exact ih _

theorem missing_snoc (start : Location) (path : List Text) (name : Text) :
    tree.missing start (path ++ [name]) =
      tree.missing start path ++ ((tree.place start path).elim [] fun here => tree.missing here [name]) := by
  induction path generalizing start with
  | nil => rfl
  | cons first path ih =>
    rw [List.cons_append, place, missing, missing]
    split
    next => exact ih _
    next =>
      split
      next => exact ih _
      next => rfl
      next => rw [ih, List.cons_append]

theorem absent_of_missing {start : Location} {path : List Text} {here : Location} {name : Text}
    (member : here ++ [name] ∈ tree.missing start path) : tree.entry here name = none := by
  induction path generalizing start with
  | nil => exact absurd member List.not_mem_nil
  | cons first path ih =>
    rw [missing] at member
    split at member
    next => exact ih member
    next =>
      split at member
      next => exact ih member
      next => exact absurd member List.not_mem_nil
      next absent =>
        rcases List.mem_cons.mp member with same | later
        · obtain ⟨rfl, last⟩ := List.append_inj' same rfl
          rwa [List.singleton_inj.mp last]
        · exact ih later

theorem walk_of_nothing_missing {start last : Location} {path : List Text} (nothing : tree.missing start path = [])
    (placed : tree.place start path = some last) : tree.walk start path = .ok last := by
  induction path generalizing start with
  | nil => exact congrArg Except.ok (Option.some.inj placed)
  | cons name path ih =>
    rw [missing] at nothing
    rw [place] at placed
    rw [walk]
    split
    next climbs =>
      rw [if_pos climbs] at nothing placed
      exact ih nothing placed
    next stays =>
      rw [if_neg stays] at nothing placed
      cases found : tree.entry start name with
      | none =>
        rw [found] at nothing
        exact absurd nothing (List.cons_ne_nil _ _)
      | some entry =>
        rw [found] at nothing placed
        cases entry with
        | directory next => exact ih nothing placed
        | file _ => exact absurd placed nofun
        | dangling _ => exact absurd placed nofun

theorem nothing_missing_of_walk {start last : Location} {path : List Text} (walked : tree.walk start path = .ok last) :
    tree.missing start path = [] ∧ tree.place start path = some last := by
  induction path generalizing start with
  | nil => exact ⟨rfl, congrArg some (Except.ok.inj walked)⟩
  | cons name path ih =>
    rw [walk] at walked
    rw [missing, place]
    split at walked
    next climbs =>
      rw [if_pos climbs, if_pos climbs]
      exact ih walked
    next stays =>
      rw [if_neg stays, if_neg stays]
      split at walked
      next found =>
        rw [found]
        exact ih walked
      next => exact absurd walked nofun
      next => exact absurd walked nofun
      next => exact absurd walked nofun

/-- A path can be walked once everything missing on its way is made. -/
theorem walk_adding {made : List Location} (absent : ∀ here name, here ++ [name] ∈ made → tree.entry here name = none)
    {start last : Location} {path : List Text} (complete : ∀ location ∈ tree.missing start path, location ∈ made)
    (placed : tree.place start path = some last) : (tree.adding made).walk start path = .ok last := by
  induction path generalizing start with
  | nil => exact congrArg Except.ok (Option.some.inj placed)
  | cons name path ih =>
    rw [missing] at complete
    rw [place] at placed
    rw [walk]
    split
    next climbs =>
      rw [if_pos climbs] at complete placed
      exact ih complete placed
    next stays =>
      rw [if_neg stays] at complete placed
      cases found : tree.entry start name with
      | none =>
        rw [found] at complete placed
        have entered : (tree.adding made).entry start name = some (.directory (start ++ [name])) :=
          if_pos (complete _ List.mem_cons_self)
        rw [entered]
        exact ih (fun location member => complete location (List.mem_cons_of_mem _ member)) placed
      | some entry =>
        have other : start ++ [name] ∉ made := fun member => nomatch found.symm.trans (absent start name member)
        have kept : (tree.adding made).entry start name = some entry := (if_neg other).trans found
        rw [found] at complete placed
        rw [kept]
        cases entry with
        | directory next => exact ih complete placed
        | file _ => exact absurd placed nofun
        | dangling _ => exact absurd placed nofun

theorem blocked_of_notADirectory {start : Location} {path : List Text} (failed : tree.walk start path = .error .notADirectory) :
    tree.place start path = none ∧ tree.missing start path = [] := by
  induction path generalizing start with
  | nil => exact absurd failed nofun
  | cons name path ih =>
    rw [walk] at failed
    rw [missing, place]
    split at failed
    next climbs =>
      rw [if_pos climbs, if_pos climbs]
      exact ih failed
    next stays =>
      rw [if_neg stays, if_neg stays]
      split at failed
      next found =>
        rw [found]
        exact ih failed
      next found =>
        rw [found]
        exact ⟨rfl, rfl⟩
      next => exact absurd failed nofun
      next => exact absurd failed nofun

theorem walk_error {start : Location} {path : List Text} {error : OsError} (failed : tree.walk start path = .error error) :
    error = .fileNotFound ∨ error = .notADirectory := by
  induction path generalizing start with
  | nil => exact absurd failed nofun
  | cons name path ih =>
    rw [walk] at failed
    split at failed
    next => exact ih failed
    next =>
      split at failed
      next => exact ih failed
      next => exact Or.inr (Except.error.inj failed).symm
      next => exact Or.inl (Except.error.inj failed).symm
      next => exact Or.inl (Except.error.inj failed).symm

end Lookup

end FileTree

end Crashomon
