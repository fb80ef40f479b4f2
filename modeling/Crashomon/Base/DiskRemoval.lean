import Crashomon.Base.DiskLinks

/-! What a disk loses when a directory goes: every path that leads by it, and nothing else. -/

namespace Crashomon.Disk
open FileTree

/-- Following a name comes by a location: its own, or one on the way of the link it is. -/
inductive Visits (disk : Disk) : Nat → Location → Text → Location → Prop where
  | here {depth : Nat} {here : Location} {name : Text} : Visits disk depth here name (here ++ [name])
  | link {depth : Nat} {here there seen : Location} {name next text : Text} (linked : disk.node (here ++ [name]) = some (.link text))
      (looks : (disk.treeAt depth).Looks ((PurePath.parse text).startFrom here) (PurePath.parse text).tail there next)
      (later : Visits disk depth there next seen) : Visits disk (depth + 1) here name seen

/-- Following a name stays clear of what lies at a root or below it. -/
def Clear (disk : Disk) (root : Location) (depth : Nat) (here : Location) (name : Text) : Prop :=
  ∀ seen, disk.Visits depth here name seen → ¬ root <+: seen

variable {disk : Disk} {root here : Location} {depth : Nat} {name : Text}

theorem Clear.outside (clear : disk.Clear root depth here name) : ¬ root <+: here ++ [name] := clear _ .here

/-- Only a link leads further than where the name stands. -/
theorem clear_of_no_link (outside : ¬ root <+: here ++ [name]) (other : ∀ text, disk.node (here ++ [name]) ≠ some (.link text)) :
    disk.Clear root depth here name := by
  intro seen visits
  cases visits with
  | here => exact outside
  | link linked => exact absurd linked (other _)

theorem clear_link_zero (outside : ¬ root <+: here ++ [name]) : disk.Clear root 0 here name := by
  intro seen visits
  cases visits with
  | here => exact outside

theorem clear_link_succ {text : Text} (outside : ¬ root <+: here ++ [name]) (linked : disk.node (here ++ [name]) = some (.link text)) :
    disk.Clear root (depth + 1) here name ↔
      ∀ there next, (disk.treeAt depth).Looks ((PurePath.parse text).startFrom here) (PurePath.parse text).tail there next →
        disk.Clear root depth there next := by
  constructor
  · intro clear there next looks seen visits
    exact clear seen (.link linked looks visits)
  · intro clear seen visits
    cases visits with
    | here => exact outside
    | link other looks later =>
      cases linked.symm.trans other
      exact clear _ _ looks seen later

/-- The entries that are lost are those that lead by the root. -/
theorem remove_loses (present : root ≠ []) (depth : Nat) :
    Loses (disk.treeAt depth) ((disk.remove root).treeAt depth) (disk.Clear root depth) := by
  have gone {depth : Nat} {here : Location} {name : Text} (within : root <+: here ++ [name]) :
      (disk.remove root).entryAt depth here name = none := by
    apply entryAt_none
    rw [node_remove present, if_pos within]
  have stays {here : Location} {name : Text} (outside : ¬ root <+: here ++ [name]) :
      (disk.remove root).node (here ++ [name]) = disk.node (here ++ [name]) := by
    rw [node_remove present, if_neg outside]
  have plain {depth : Nat} {here : Location} {name : Text} (outside : ¬ root <+: here ++ [name])
      (other : ∀ text, disk.node (here ++ [name]) ≠ some (.link text)) :
      (disk.remove root).entryAt depth here name = disk.entryAt depth here name := by
    cases there : disk.node (here ++ [name]) with
    | none => rw [entryAt_none there, entryAt_none ((stays outside).trans there)]
    | some node =>
      cases node with
      | directory => rw [entryAt_directory there, entryAt_directory ((stays outside).trans there)]
      | file content mtime => rw [entryAt_file there, entryAt_file ((stays outside).trans there)]
      | link text => exact absurd there (other text)
  induction depth with
  | zero =>
    constructor
    · intro here name clear
      by_cases linked : ∃ text, disk.node (here ++ [name]) = some (.link text)
      · obtain ⟨text, there⟩ := linked
        exact (entryAt_link_zero ((stays clear.outside).trans there)).trans (entryAt_link_zero there).symm
      · exact plain clear.outside fun text there => linked ⟨text, there⟩
    · intro here name lost
      by_cases outside : ¬ root <+: here ++ [name]
      · exact absurd (clear_link_zero outside) lost
      · exact Or.inl (gone (not_not.mp outside))
  | succ depth ih =>
    constructor
    · intro here name clear
      by_cases linked : ∃ text, disk.node (here ++ [name]) = some (.link text)
      · obtain ⟨text, there⟩ := linked
        have same := ih.target_same ((clear_link_succ clear.outside there).mp clear)
        exact (entryAt_link_succ ((stays clear.outside).trans there)).trans ((congrArg some same).trans (entryAt_link_succ there).symm)
      · exact plain clear.outside fun text there => linked ⟨text, there⟩
    · intro here name lost
      by_cases outside : ¬ root <+: here ++ [name]
      · by_cases linked : ∃ text, disk.node (here ++ [name]) = some (.link text)
        · obtain ⟨text, there⟩ := linked
          rw [clear_link_succ outside there] at lost
          push Not at lost
          obtain ⟨place, next, looks, lost⟩ := lost
          obtain ⟨dangling, same⟩ := ih.target_gone looks lost
          exact Or.inr ⟨dangling, (entryAt_link_succ ((stays outside).trans there)).trans (congrArg some same)⟩
        · exact absurd (clear_of_no_link outside fun text there => linked ⟨text, there⟩) lost
      · exact Or.inl (gone (not_not.mp outside))

/-- A path that stays clear of a root: so do the place where it begins and every name that is looked up. -/
def PathClear (disk : Disk) (root cwd : Location) (path : PurePath) : Prop :=
  ¬ root <+: path.startFrom cwd ∧
    ∀ here name, disk.tree.Looks (path.startFrom cwd) path.tail here name → disk.Clear root disk.nesting here name

section Paths
variable {cwd : Location} {path : PurePath}

theorem find_remove_clear (present : root ≠ []) (clear : disk.PathClear root cwd path) :
    (disk.remove root).find cwd path = disk.find cwd path := by
  have start : (disk.remove root).node (path.startFrom cwd) = disk.node (path.startFrom cwd) := by
    rw [node_remove present, if_neg clear.1]
  have same := (remove_loses present disk.nesting).target_same clear.2
  unfold find
  rw [start]
  split
  next => exact same
  next => rfl

theorem find_remove_lost (present : root ≠ []) (lost : ¬ disk.PathClear root cwd path) :
    ∃ place, (disk.remove root).find cwd path = .dangling place := by
  unfold find
  split
  next begins =>
    have start : ¬ root <+: path.startFrom cwd := by
      intro within
      rw [node_remove present, if_pos within] at begins
      exact nomatch begins.1
    have passes : ∃ here name, disk.tree.Looks (path.startFrom cwd) path.tail here name ∧ ¬ disk.Clear root disk.nesting here name := by
      by_contra none
      push Not at none
      exact lost ⟨start, none⟩
    obtain ⟨here, name, looks, lost⟩ := passes
    exact (remove_loses present disk.nesting).target_gone looks lost
  next => exact ⟨none, rfl⟩

theorem PathClear.parent {name : Text} (clear : disk.PathClear root cwd (path.child name)) : disk.PathClear root cwd path :=
  ⟨clear.1, fun here other looks => clear.2 here other (looks.append [name])⟩

/-- With less on the disk, no walk looks up more. -/
theorem looks_of_remove (present : root ≠ []) {start there : Location} {names : List Text} {next : Text}
    (looks : ((disk.remove root).treeAt depth).Looks start names there next) : (disk.treeAt depth).Looks start names there next := by
  obtain ⟨before, after, same, walked, plain⟩ := looks
  refine ⟨before, after, same, walk_mono ?_ walked, plain⟩
  intro here name next found
  exact entryAt_mono (fun location node left => node_of_remove present left) found

theorem visits_of_remove (present : root ≠ []) {seen : Location} (visits : (disk.remove root).Visits depth here name seen) :
    disk.Visits depth here name seen := by
  induction visits with
  | here => exact .here
  | link linked looks later ih =>
    exact .link (node_of_remove present linked) (looks_of_remove present looks) ih

theorem PathClear.of_remove {other : Location} (present : root ≠ []) (clear : disk.PathClear other cwd path) :
    (disk.remove root).PathClear other cwd path :=
  ⟨clear.1, fun here name looks seen visits => clear.2 here name (looks_of_remove present looks) seen (visits_of_remove present visits)⟩

/-- A path one name longer stays clear where the name does. -/
theorem PathClear.child {name : Text} (clear : disk.PathClear root cwd path)
    (last : ∀ here, disk.tree.walk (path.startFrom cwd) path.tail = .ok here → disk.Clear root disk.nesting here name) :
    disk.PathClear root cwd (path.child name) := by
  refine ⟨clear.1, fun here other looks => ?_⟩
  rcases looks_snoc looks with earlier | ⟨walked, same⟩
  · exact clear.2 here other earlier
  · exact same ▸ last here walked

/-- Following a name to a file comes by the file. -/
theorem visits_file {place : Location} (found : disk.entryAt depth here name = some (.file place)) : disk.Visits depth here name place := by
  induction depth generalizing here name with
  | zero =>
    rcases of_entryAt found with ⟨_, impossible⟩ | ⟨_, same⟩ | ⟨_, _, ⟨_, impossible⟩ | ⟨_, impossible, _⟩⟩
    · exact absurd impossible nofun
    · rw [Entry.file.inj same]
      exact .here
    · exact absurd impossible nofun
    · exact absurd impossible nofun
  | succ depth ih =>
    rcases of_entryAt found with ⟨_, impossible⟩ | ⟨_, same⟩ | ⟨text, linked, ⟨impossible, _⟩ | ⟨below, same, led⟩⟩
    · exact absurd impossible nofun
    · rw [Entry.file.inj same]
      exact .here
    · exact absurd impossible nofun
    · obtain rfl := Nat.succ.inj same
      obtain ⟨there, next, looks, entered⟩ := looks_of_target_file led.symm
      exact .link linked looks (ih entered)

theorem outside_of_find_file {place : Location} (clear : disk.PathClear root cwd path) (found : disk.find cwd path = .file place) :
    ¬ root <+: place := by
  unfold find at found
  split at found
  next =>
    obtain ⟨there, next, looks, entered⟩ := looks_of_target_file found
    exact clear.2 there next looks place (visits_file entered)
  next => exact absurd found nofun

theorem fileAt_remove {place : Location} (present : root ≠ []) (outside : ¬ root <+: place) :
    (disk.remove root).fileAt place = disk.fileAt place := by
  unfold fileAt
  rw [node_remove present, if_neg outside]

theorem read_remove_clear (present : root ≠ []) (clear : disk.PathClear root cwd path) :
    (disk.remove root).read cwd path = disk.read cwd path := by
  unfold read
  rw [find_remove_clear present clear]
  cases found : disk.find cwd path with
  | directory _ => rfl
  | file place =>
    dsimp only
    rw [fileAt_remove present (outside_of_find_file clear found)]
  | dangling _ => rfl

theorem stat_remove_clear (present : root ≠ []) (clear : disk.PathClear root cwd path) :
    (disk.remove root).stat cwd path = disk.stat cwd path := by
  unfold stat
  rw [find_remove_clear present clear]
  cases found : disk.find cwd path with
  | directory _ => rfl
  | file place =>
    dsimp only
    rw [fileAt_remove present (outside_of_find_file clear found)]
  | dangling _ => rfl

theorem mem_sortedNames {name : Text} :
    name ∈ disk.sortedNames cwd path ↔ ∃ place node, disk.find cwd path = .directory place ∧ disk.node (place ++ [name]) = some node := by
  unfold sortedNames
  cases found : disk.find cwd path with
  | directory place => simp [List.mem_insertionSort, mem_names]
  | file _ => simp
  | dangling _ => simp

theorem sortedNames_pairwise (disk : Disk) (cwd : Location) (path : PurePath) : (disk.sortedNames cwd path).Pairwise (· < ·) := by
  unfold sortedNames
  split
  next location _ =>
    have ordered := List.pairwise_insertionSort (fun name other : Text => name ≤ other) (disk.names location)
    have distinct : ((disk.names location).insertionSort fun name other => name ≤ other).Nodup :=
      (List.perm_insertionSort _ _).nodup_iff.mpr (nodup_names disk location)
    exact (ordered.and distinct).imp fun both => lt_of_le_of_ne both.1 both.2
  next => exact List.Pairwise.nil

theorem PathClear.name_outside {name : Text} {place : Location} {node : Node} (clear : disk.PathClear root cwd (path.child name))
    (found : disk.find cwd path = .directory place) (there : disk.node (place ++ [name]) = some node) : ¬ root <+: place ++ [name] := by
  unfold find at found
  split at found
  next =>
    have plain := (held_of_node there).1.2.2.1
    exact (clear.2 place name (looks_last (target_eq_directory.mp found) plain)).outside
  next => exact absurd found nofun

/-- A path that stays clear finds the names it found. -/
theorem mem_sortedNames_remove {name : Text} (present : root ≠ []) (clear : disk.PathClear root cwd (path.child name)) :
    name ∈ (disk.remove root).sortedNames cwd path ↔ name ∈ disk.sortedNames cwd path := by
  rw [mem_sortedNames, mem_sortedNames, find_remove_clear present clear.parent]
  constructor
  · intro ⟨place, node, found, left⟩
    exact ⟨place, node, found, node_of_remove present left⟩
  · intro ⟨place, node, found, there⟩
    refine ⟨place, node, found, ?_⟩
    rw [node_remove present, if_neg (clear.name_outside found there)]
    exact there

end Paths

end Crashomon.Disk
