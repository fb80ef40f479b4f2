import Crashomon.Base.Disk
import Crashomon.Base.TreeWalks
import Mathlib.Data.Char
import Mathlib.Data.List.Lex
import Mathlib.Data.List.Sort

/-! How paths are followed on a disk: by the system, which stops at what is missing, and by
`os.path.realpath`, which keeps it as it is written. -/

namespace Crashomon
open FileTree

def PurePath.startFrom (path : PurePath) (here : Location) : Location := if path.isAbsolute then [] else here

namespace Disk

/-- What a name leads to in a directory, through links nested at most so deep. -/
def entryAt (disk : Disk) : Nat → Location → Text → Option Entry
  | depth, here, name =>
    match disk.node (here ++ [name]) with
    | none => none
    | some .directory => some (.directory (here ++ [name]))
    | some (.file _ _) => some (.file (here ++ [name]))
    | some (.link text) =>
      match depth with
      | 0 => some (.dangling none)
      | depth + 1 =>
        let path := PurePath.parse text
        some (FileTree.target ⟨disk.entryAt depth, fun _ => false⟩ (path.startFrom here) path.tail)

def treeAt (disk : Disk) (depth : Nat) : FileTree := ⟨disk.entryAt depth, fun _ => false⟩

def tree (disk : Disk) : FileTree := disk.treeAt disk.nesting

/-- A component of `os.path.realpath`; nothing where links go round in a circle. -/
def resolveName (disk : Disk) : Nat → Location → Text → Option Location
  | depth, here, name =>
    if name = dotdot then some here.dropLast
    else match disk.node (here ++ [name]) with
      | some (.link text) =>
        match depth with
        | 0 => none
        | depth + 1 =>
          let path := PurePath.parse text
          path.tail.foldlM (disk.resolveName depth) (path.startFrom here)
      | _ => some (here ++ [name])

/-- `Path.resolve()`; nothing where it raises. A relative path needs the working directory. -/
def resolve (disk : Disk) (cwd : Location) (path : PurePath) : Option Location :=
  if disk.node (path.startFrom cwd) = some .directory ∧ ¬ HasNull path.tail then
    path.tail.foldlM (disk.resolveName disk.nesting) (path.startFrom cwd)
  else none

/-- What stat(2) finds at a path. -/
def find (disk : Disk) (cwd : Location) (path : PurePath) : Entry :=
  if disk.node (path.startFrom cwd) = some .directory ∧ ¬ HasNull path.tail then
    disk.tree.target (path.startFrom cwd) path.tail
  else .dangling none

/-- The content of a file at a location, with its time. -/
def fileAt (disk : Disk) (location : Location) : Option (List UInt8 × Nat) :=
  match disk.node location with
  | some (.file content mtime) => some (content, mtime)
  | _ => none

/-- The size and the time. -/
def stat (disk : Disk) (cwd : Location) (path : PurePath) : Option (Nat × Nat) :=
  match disk.find cwd path with
  | .directory location => some (disk.directoryStat location)
  | .file location => (disk.fileAt location).map fun (content, mtime) => (content.length, mtime)
  | .dangling _ => none

def read (disk : Disk) (cwd : Location) (path : PurePath) : Option (List UInt8) :=
  match disk.find cwd path with
  | .file location => (disk.fileAt location).map Prod.fst
  | _ => none

/-- `sorted(path.iterdir())`, empty where the path is no directory. -/
def sortedNames (disk : Disk) (cwd : Location) (path : PurePath) : List Text :=
  match disk.find cwd path with
  | .directory location => (disk.names location).insertionSort fun name other => name ≤ other
  | _ => []

/-- `path.rglob("*")`: links are not gone into. -/
def rglob (disk : Disk) (cwd : Location) (path : PurePath) : List PurePath :=
  match disk.find cwd path with
  | .directory here => disk.nodes.filterMap fun entry =>
    if here <+: entry.1 ∧ here ≠ entry.1 then some ⟨path.root, path.tail ++ entry.1.drop here.length⟩ else none
  | _ => []

/-- `shutil.rmtree(path / name)`; nothing where it raises: on a link, on a file and on what is not there. -/
def rmtree (disk : Disk) (cwd : Location) (path : PurePath) (name : Text) : Option Disk :=
  match disk.find cwd path with
  | .directory here => if disk.node (here ++ [name]) = some .directory then some (disk.remove (here ++ [name])) else none
  | _ => none

section Entries
variable {disk : Disk} {depth : Nat} {here : Location} {name : Text}

attribute [local simp] entryAt resolveName

theorem entryAt_none (missing : disk.node (here ++ [name]) = none) : disk.entryAt depth here name = none := by
  rw [entryAt, missing]

theorem entryAt_directory (found : disk.node (here ++ [name]) = some .directory) :
    disk.entryAt depth here name = some (.directory (here ++ [name])) := by
  rw [entryAt, found]

theorem entryAt_file {content : List UInt8} {mtime : Nat} (found : disk.node (here ++ [name]) = some (.file content mtime)) :
    disk.entryAt depth here name = some (.file (here ++ [name])) := by
  rw [entryAt, found]

theorem entryAt_link_zero {text : Text} (found : disk.node (here ++ [name]) = some (.link text)) :
    disk.entryAt 0 here name = some (.dangling none) := by
  rw [entryAt, found]

theorem entryAt_link_succ {text : Text} (found : disk.node (here ++ [name]) = some (.link text)) :
    disk.entryAt (depth + 1) here name =
      some ((disk.treeAt depth).target ((PurePath.parse text).startFrom here) (PurePath.parse text).tail) := by
  rw [entryAt, found]
  rfl

/-- A name that leads to something leads to what is there, or follows a link one level down. -/
theorem of_entryAt {entry : Entry} (found : disk.entryAt depth here name = some entry) :
    disk.node (here ++ [name]) = some .directory ∧ entry = .directory (here ++ [name]) ∨
    (∃ content mtime, disk.node (here ++ [name]) = some (.file content mtime)) ∧ entry = .file (here ++ [name]) ∨
    ∃ text, disk.node (here ++ [name]) = some (.link text) ∧
      (depth = 0 ∧ entry = .dangling none ∨ ∃ below, depth = below + 1 ∧
        entry = (disk.treeAt below).target ((PurePath.parse text).startFrom here) (PurePath.parse text).tail) := by
  cases there : disk.node (here ++ [name]) with
  | none => exact nomatch (entryAt_none there).symm.trans found
  | some node =>
    cases node with
    | directory => exact Or.inl ⟨rfl, Option.some.inj (found.symm.trans (entryAt_directory there))⟩
    | file content mtime =>
      exact Or.inr (Or.inl ⟨⟨content, mtime, rfl⟩, Option.some.inj (found.symm.trans (entryAt_file there))⟩)
    | link text =>
      refine Or.inr (Or.inr ⟨text, rfl, ?_⟩)
      cases depth with
      | zero => exact Or.inl ⟨rfl, Option.some.inj (found.symm.trans (entryAt_link_zero there))⟩
      | succ below => exact Or.inr ⟨below, rfl, Option.some.inj (found.symm.trans (entryAt_link_succ there))⟩

theorem node_of_entry {entry : Entry} (found : disk.entryAt depth here name = some entry) : ∃ node, disk.node (here ++ [name]) = some node := by
  cases there : disk.node (here ++ [name]) with
  | none => exact nomatch (entryAt_none there).symm.trans found
  | some node => exact ⟨node, rfl⟩

theorem startFrom_directory (directory : disk.node here = some .directory) (path : PurePath) :
    disk.node (path.startFrom here) = some .directory := by
  unfold PurePath.startFrom
  split
  next => rfl
  next => exact directory

theorem directory_of_entryAt {next : Location} (directory : disk.node here = some .directory)
    (found : disk.entryAt depth here name = some (.directory next)) : disk.node next = some .directory := by
  induction depth generalizing here name next with
  | zero =>
    rcases of_entryAt found with ⟨there, same⟩ | ⟨_, impossible⟩ | ⟨_, _, ⟨_, impossible⟩ | ⟨_, impossible, _⟩⟩
    · rw [(Entry.directory.inj same)]
      exact there
    · exact absurd impossible nofun
    · exact absurd impossible nofun
    · exact absurd impossible nofun
  | succ depth ih =>
    rcases of_entryAt found with ⟨there, same⟩ | ⟨_, impossible⟩ | ⟨text, _, ⟨impossible, _⟩ | ⟨below, same, led⟩⟩
    · rw [(Entry.directory.inj same)]
      exact there
    · exact absurd impossible nofun
    · exact absurd impossible nofun
    · obtain rfl := Nat.succ.inj same
      exact @walk_keeps _ _ _ _ (disk.node · = some .directory) directory_dropLast ih (startFrom_directory directory _)
        (target_eq_directory.mp led.symm)

theorem directory_of_walk {start last : Location} {path : List Text} (directory : disk.node start = some .directory)
    (walked : (disk.treeAt depth).walk start path = .ok last) : disk.node last = some .directory :=
  @walk_keeps _ _ _ _ (disk.node · = some .directory) directory_dropLast directory_of_entryAt directory walked

theorem resolveName_dotdot (here : Location) : disk.resolveName depth here dotdot = some here.dropLast := by
  rw [resolveName, if_pos rfl]

/-- Where the system gets to, `realpath` gets to. -/
theorem resolveName_of_entryAt {next : Location} (plain : name ≠ dotdot)
    (found : disk.entryAt depth here name = some (.directory next)) : disk.resolveName depth here name = some next := by
  induction depth generalizing here name next with
  | zero =>
    rcases of_entryAt found with ⟨there, same⟩ | ⟨_, impossible⟩ | ⟨_, _, ⟨_, impossible⟩ | ⟨_, impossible, _⟩⟩
    · rw [resolveName, if_neg plain, there, Entry.directory.inj same]
    · exact absurd impossible nofun
    · exact absurd impossible nofun
    · exact absurd impossible nofun
  | succ depth ih =>
    rcases of_entryAt found with ⟨there, same⟩ | ⟨_, impossible⟩ | ⟨text, there, ⟨impossible, _⟩ | ⟨below, same, led⟩⟩
    · rw [resolveName, if_neg plain, there, Entry.directory.inj same]
    · exact absurd impossible nofun
    · exact absurd impossible nofun
    · obtain rfl := Nat.succ.inj same
      rw [resolveName, if_neg plain, there]
      exact foldlM_of_walk resolveName_dotdot ih (target_eq_directory.mp led.symm)

theorem resolve_of_find {cwd last : Location} {path : PurePath} (found : disk.find cwd path = .directory last) :
    disk.resolve cwd path = some last := by
  unfold find at found
  unfold resolve
  split at found
  next begins =>
    rw [if_pos begins]
    exact foldlM_of_walk resolveName_dotdot resolveName_of_entryAt (target_eq_directory.mp found)
  next => exact absurd found nofun

theorem resolveName_of_entryAt_file {place : Location} (plain : name ≠ dotdot)
    (found : disk.entryAt depth here name = some (.file place)) : disk.resolveName depth here name = some place := by
  induction depth generalizing here name with
  | zero =>
    rcases of_entryAt found with ⟨_, impossible⟩ | ⟨⟨content, mtime, there⟩, same⟩ | ⟨_, _, ⟨_, impossible⟩ | ⟨_, impossible, _⟩⟩
    · exact absurd impossible nofun
    · rw [resolveName, if_neg plain, there, Entry.file.inj same]
    · exact absurd impossible nofun
    · exact absurd impossible nofun
  | succ depth ih =>
    rcases of_entryAt found with ⟨_, impossible⟩ | ⟨⟨content, mtime, there⟩, same⟩ | ⟨text, there, ⟨impossible, _⟩ | ⟨below, same, led⟩⟩
    · exact absurd impossible nofun
    · rw [resolveName, if_neg plain, there, Entry.file.inj same]
    · exact absurd impossible nofun
    · obtain rfl := Nat.succ.inj same
      rw [resolveName, if_neg plain, there]
      exact foldlM_of_target_file resolveName_dotdot resolveName_of_entryAt ih led.symm

theorem resolve_of_find_file {cwd place : Location} {path : PurePath} (found : disk.find cwd path = .file place) :
    disk.resolve cwd path = some place := by
  unfold find at found
  unfold resolve
  split at found
  next begins =>
    rw [if_pos begins]
    exact foldlM_of_target_file resolveName_dotdot resolveName_of_entryAt resolveName_of_entryAt_file found
  next => exact absurd found nofun

theorem resolveName_directory (there : disk.node (here ++ [name]) = some .directory) :
    disk.resolveName depth here name = some (here ++ [name]) :=
  resolveName_of_entryAt (held_of_node there).1.2.2.1 (entryAt_directory there)

theorem resolve_child {cwd : Location} {path : PurePath} (resolved : disk.resolve cwd path = some here) (clean : '\x00' ∉ name) :
    disk.resolve cwd (path.child name) = disk.resolveName disk.nesting here name := by
  unfold resolve at resolved
  split at resolved
  next begins =>
    have names : ¬ HasNull (path.tail ++ [name]) := by
      rintro ⟨other, member, null⟩
      rcases List.mem_append.mp member with earlier | last
      · exact begins.2 ⟨other, earlier, null⟩
      · exact clean (List.mem_singleton.mp last ▸ null)
    have folded : (path.tail ++ [name]).foldlM (disk.resolveName disk.nesting) (path.startFrom cwd) =
        disk.resolveName disk.nesting here name := by
      rw [List.foldlM_append, resolved]
      simp
    unfold resolve
    exact (if_pos ⟨begins.1, names⟩).trans folded
  next => cases resolved

theorem walk_of_find {cwd last : Location} {path : PurePath} (found : disk.find cwd path = .directory last) :
    ¬ HasNull path.tail ∧ disk.tree.walk (path.startFrom cwd) path.tail = .ok last := by
  unfold find at found
  split at found
  next begins => exact ⟨begins.2, target_eq_directory.mp found⟩
  next => exact absurd found nofun

theorem directory_of_find {cwd last : Location} {path : PurePath} (found : disk.find cwd path = .directory last) :
    disk.node last = some .directory := by
  unfold find at found
  split at found
  next begins => exact directory_of_walk begins.1 (target_eq_directory.mp found)
  next => exact absurd found nofun

theorem resolveName_plain (other : ∀ text, disk.node (here ++ [name]) ≠ some (.link text)) (plain : name ≠ dotdot) :
    disk.resolveName depth here name = some (here ++ [name]) := by
  cases depth with
  | zero =>
    rw [resolveName, if_neg plain]
    split
    next text there => exact absurd there (other text)
    next => rfl
  | succ depth =>
    rw [resolveName, if_neg plain]
    split
    next text there => exact absurd there (other text)
    next => rfl

theorem find_child {cwd : Location} {path : PurePath} (found : disk.find cwd path = .directory here) (proper : IsName name) :
    disk.find cwd (path.child name) = (disk.tree.entry here name).getD (.dangling (some (here ++ [name]))) := by
  unfold find at found
  split at found
  next begins =>
    have names : ¬ HasNull (path.tail ++ [name]) := by
      rintro ⟨other, member, null⟩
      rcases List.mem_append.mp member with earlier | last
      · exact begins.2 ⟨other, earlier, null⟩
      · exact proper.2.2.2.2 (List.mem_singleton.mp last ▸ null)
    unfold find
    exact (if_pos ⟨begins.1, names⟩).trans (target_snoc (target_eq_directory.mp found) proper.2.2.1)
  next => exact absurd found nofun

/-- Names of directories on the disk lead down. -/
theorem find_within {cwd : Location} {path : PurePath} {more : List Text} (found : disk.find cwd path = .directory here)
    (there : disk.node (here ++ more) = some .directory) : disk.find cwd ⟨path.root, path.tail ++ more⟩ = .directory (here ++ more) := by
  induction more using List.reverseRecOn with
  | nil =>
    rw [List.append_nil, List.append_nil]
    exact found
  | append_singleton more name ih =>
    rw [← List.append_assoc] at there
    obtain ⟨proper, above⟩ := held_of_node there
    have entered : disk.tree.entry (here ++ more) name = some (.directory ((here ++ more) ++ [name])) := entryAt_directory there
    have child := find_child (ih above) proper
    rw [entered, PurePath.child, List.append_assoc, List.append_assoc] at child
    exact child

theorem mem_rglob {cwd : Location} {path found : PurePath} :
    found ∈ disk.rglob cwd path ↔
      ∃ here rest name node, disk.find cwd path = .directory here ∧ disk.node ((here ++ rest) ++ [name]) = some node ∧
        found = PurePath.child ⟨path.root, path.tail ++ rest⟩ name := by
  unfold rglob
  constructor
  · intro member
    split at member
    next here led =>
      obtain ⟨⟨location, node⟩, listed, kept⟩ := List.mem_filterMap.mp member
      split at kept
      next within =>
        obtain ⟨⟨below, rfl⟩, other⟩ := within
        cases below using List.reverseRecOn with
        | nil => exact absurd (List.append_nil here).symm other
        | append_singleton rest name =>
          have key : here ++ (rest ++ [name]) ∈ disk.nodes.map Prod.fst := List.mem_map_of_mem listed
          obtain ⟨found, there⟩ := Option.isSome_iff_exists.mp ((Nodes.nodeIn_isSome (by simp)).mpr key)
          rw [← List.append_assoc] at there
          refine ⟨here, rest, name, found, led, there, ?_⟩
          rw [← Option.some.inj kept, List.drop_left, PurePath.child, List.append_assoc]
      next => cases kept
    next => exact absurd member List.not_mem_nil
  · rintro ⟨here, rest, name, node, led, there, rfl⟩
    rw [led]
    rw [List.append_assoc] at there
    have listed := Nodes.mem_of_nodeIn (by simp) there
    refine List.mem_filterMap.mpr ⟨_, listed, ?_⟩
    have other : here ≠ here ++ (rest ++ [name]) := by simp
    rw [if_pos ⟨List.prefix_append _ _, other⟩, List.drop_left, PurePath.child, List.append_assoc]

theorem nodup_rglob (disk : Disk) (cwd : Location) (path : PurePath) : (disk.rglob cwd path).Nodup := by
  unfold rglob
  split
  next here _ =>
    have keys : (disk.nodes.filterMap fun entry =>
        if here <+: entry.1 ∧ here ≠ entry.1 then some (PurePath.mk path.root (path.tail ++ entry.1.drop here.length)) else none) =
        (disk.nodes.map Prod.fst).filterMap fun location =>
          if here <+: location ∧ here ≠ location then some (PurePath.mk path.root (path.tail ++ location.drop here.length)) else none := by
      rw [List.filterMap_map]
      rfl
    rw [keys]
    refine List.Nodup.filterMap ?_ disk.unique
    intro first second found left right
    obtain ⟨⟨below, _⟩, named⟩ := Option.ite_none_right_eq_some.mp left
    obtain ⟨⟨other, _⟩, same⟩ := Option.ite_none_right_eq_some.mp right
    obtain ⟨rest, rfl⟩ := below
    obtain ⟨more, rfl⟩ := other
    rw [List.drop_left, Option.some.injEq] at named same
    rw [← named, PurePath.mk.injEq] at same
    rw [List.append_cancel_left same.2]
  next => exact List.nodup_nil

/-- Nothing is found below what is no directory. -/
theorem find_child_lost {cwd : Location} {path : PurePath} (lost : ∀ here, disk.find cwd path ≠ .directory here) (name : Text) :
    disk.find cwd (path.child name) = .dangling none := by
  unfold find
  split
  next begins =>
    have clean : ¬ HasNull path.tail := fun ⟨other, member, null⟩ => begins.2 ⟨other, List.mem_append_left _ member, null⟩
    cases walked : disk.tree.walk (path.startFrom cwd) path.tail with
    | ok here =>
      refine absurd ?_ (lost here)
      unfold find
      exact (if_pos ⟨begins.1, clean⟩).trans (target_eq_directory.mpr walked)
    | error error =>
      show disk.tree.target (path.startFrom cwd) (path.tail ++ [name]) = _
      rw [target, List.getLast?_concat]
      dsimp only
      rw [List.dropLast_concat, walked]
  next => rfl

theorem stat_file {cwd place : Location} {path : PurePath} {content : List UInt8} {mtime : Nat} (found : disk.find cwd path = .file place)
    (there : disk.fileAt place = some (content, mtime)) : disk.stat cwd path = some (content.length, mtime) := by
  unfold stat
  rw [found]
  dsimp only
  rw [there]
  rfl

theorem read_file {cwd place : Location} {path : PurePath} {content : List UInt8} {mtime : Nat} (found : disk.find cwd path = .file place)
    (there : disk.fileAt place = some (content, mtime)) : disk.read cwd path = some content := by
  unfold read
  rw [found]
  dsimp only
  rw [there]
  rfl

end Entries

section Growth
variable {disk other : Disk} {depth : Nat} {here next cwd : Location} {name : Text}

/-- Where the directories and the links are as they were, what led to a directory still does. -/
theorem entryAt_ways (ways : ∀ location node, disk.node location = some node → (∀ content mtime, node ≠ .file content mtime) →
      other.node location = some node)
    (found : disk.entryAt depth here name = some (.directory next)) : other.entryAt depth here name = some (.directory next) := by
  induction depth generalizing here name next with
  | zero =>
    rcases of_entryAt found with ⟨there, same⟩ | ⟨_, impossible⟩ | ⟨_, _, ⟨_, impossible⟩ | ⟨_, impossible, _⟩⟩
    · rw [entryAt_directory (ways _ _ there nofun), same]
    · exact absurd impossible nofun
    · exact absurd impossible nofun
    · exact absurd impossible nofun
  | succ depth ih =>
    rcases of_entryAt found with ⟨there, same⟩ | ⟨_, impossible⟩ | ⟨text, there, ⟨impossible, _⟩ | ⟨below, same, led⟩⟩
    · rw [entryAt_directory (ways _ _ there nofun), same]
    · exact absurd impossible nofun
    · exact absurd impossible nofun
    · obtain rfl := Nat.succ.inj same
      have walked := @walk_mono (disk.treeAt depth) _ _ _ (other.treeAt depth) ih (target_eq_directory.mp led.symm)
      rw [entryAt_link_succ (ways _ _ there nofun), target_eq_directory.mpr walked]

theorem find_ways (ways : ∀ location node, disk.node location = some node → (∀ content mtime, node ≠ .file content mtime) →
      other.node location = some node)
    (nesting : other.nesting = disk.nesting) {path : PurePath} (found : disk.find cwd path = .directory here) :
    other.find cwd path = .directory here := by
  unfold find at found ⊢
  split at found
  next begins =>
    rw [if_pos ⟨ways _ _ begins.1 nofun, begins.2⟩, target_eq_directory, tree, nesting]
    exact @walk_mono (disk.treeAt disk.nesting) _ _ _ (other.treeAt disk.nesting) (entryAt_ways ways) (target_eq_directory.mp found)
  next => exact absurd found nofun

/-- Directories and links stay as they are, and files stay files, whatever is in them. -/
def Stays (disk other : Disk) : Prop :=
  ∀ location node, disk.node location = some node → other.node location = some node ∨
    (∃ content mtime, node = .file content mtime) ∧ ∃ content mtime, other.node location = some (.file content mtime)

theorem Stays.ways (stays : Stays disk other) (location : Location) (node : Node) (there : disk.node location = some node)
    (way : ∀ content mtime, node ≠ .file content mtime) : other.node location = some node := by
  rcases stays location node there with same | ⟨⟨content, mtime, file⟩, _⟩
  · exact same
  · exact absurd file (way content mtime)

theorem Stays.file (stays : Stays disk other) (there : ∃ content mtime, disk.node (here ++ [name]) = some (.file content mtime)) :
    other.entryAt depth here name = some (.file (here ++ [name])) := by
  obtain ⟨_, _, before⟩ := there
  rcases stays _ _ before with same | ⟨_, _, _, after⟩
  · exact entryAt_file same
  · exact entryAt_file after

theorem Stays.entryAt (stays : Stays disk other) {place : Location} (found : disk.entryAt depth here name = some (.file place)) :
    other.entryAt depth here name = some (.file place) := by
  induction depth generalizing here name place with
  | zero =>
    rcases of_entryAt found with ⟨_, impossible⟩ | ⟨there, same⟩ | ⟨_, _, ⟨_, impossible⟩ | ⟨_, impossible, _⟩⟩
    · exact absurd impossible nofun
    · rw [stays.file there, same]
    · exact absurd impossible nofun
    · exact absurd impossible nofun
  | succ depth ih =>
    rcases of_entryAt found with ⟨_, impossible⟩ | ⟨there, same⟩ | ⟨text, there, ⟨impossible, _⟩ | ⟨below, same, led⟩⟩
    · exact absurd impossible nofun
    · rw [stays.file there, same]
    · exact absurd impossible nofun
    · obtain rfl := Nat.succ.inj same
      have led := @target_file_mono (disk.treeAt depth) _ _ (other.treeAt depth) (entryAt_ways stays.ways) ih place led.symm
      rw [entryAt_link_succ (stays.ways _ _ there nofun), led]

/-- What a path leads to is still there. -/
theorem Stays.find (stays : Stays disk other) (nesting : other.nesting = disk.nesting) {path : PurePath}
    (found : ∀ target, disk.find cwd path ≠ .dangling target) : other.find cwd path = disk.find cwd path := by
  cases leads : disk.find cwd path with
  | dangling target => exact absurd leads (found target)
  | directory place => exact find_ways stays.ways nesting leads
  | file place =>
    unfold Disk.find at leads ⊢
    split at leads
    next begins =>
      rw [if_pos ⟨stays.ways _ _ begins.1 nofun, begins.2⟩, tree, nesting]
      exact @target_file_mono (disk.treeAt disk.nesting) _ _ (other.treeAt disk.nesting) (entryAt_ways stays.ways) stays.entryAt
        place leads
    next => exact absurd leads nofun

/-- On a disk with more on it, what led to a directory still does. -/
theorem entryAt_mono (more : ∀ location node, disk.node location = some node → other.node location = some node)
    (found : disk.entryAt depth here name = some (.directory next)) : other.entryAt depth here name = some (.directory next) :=
  entryAt_ways (fun location node there _ => more location node there) found

theorem find_mono (more : ∀ location node, disk.node location = some node → other.node location = some node)
    (nesting : other.nesting = disk.nesting) {path : PurePath} (found : disk.find cwd path = .directory here) :
    other.find cwd path = .directory here :=
  find_ways (fun location node there _ => more location node there) nesting found

end Growth

end Disk
end Crashomon
