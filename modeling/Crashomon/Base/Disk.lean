import Crashomon.Base.FileTree
import Crashomon.Base.PurePath
import Mathlib.Data.List.Induction
import Mathlib.Data.List.Nodup

/-! Directories, files and links on a disk, by their locations. A name is looked up in a
directory, and a link is followed from the directory it lies in. The disk takes names, paths
and files of any length: there is no ENAMETOOLONG and no ENOSPC. -/

namespace Crashomon
open FileTree

inductive Node where
  | directory
  | file (content : List UInt8) (mtime : Nat)
  | link (target : Text)
  deriving DecidableEq, Repr

/-- A component of a path that can be the name of something. -/
def IsName (name : Text) : Prop := name ≠ [] ∧ name ≠ ['.'] ∧ name ≠ dotdot ∧ '/' ∉ name ∧ '\x00' ∉ name

instance (name : Text) : Decidable (IsName name) := inferInstanceAs (Decidable (_ ∧ _))

namespace Nodes

/-- The root is a directory that is always there. -/
def nodeIn (nodes : List (Location × Node)) (location : Location) : Option Node :=
  if location = [] then some .directory else nodes.lookup location

def Held (nodes : List (Location × Node)) (location : Location) : Prop :=
  ∃ here name, location = here ++ [name] ∧ IsName name ∧ nodeIn nodes here = some .directory

section Entries
variable {nodes : List (Location × Node)} {location : Location}

theorem lookup_filter (keep : Location → Bool) (location : Location) :
    (nodes.filter fun entry => keep entry.1).lookup location = if keep location then nodes.lookup location else none := by
  induction nodes with
  | nil => simp
  | cons entry nodes ih =>
    obtain ⟨place, node⟩ := entry
    rw [List.filter_cons, List.lookup_cons]
    by_cases same : location = place
    · rw [same] at ih ⊢
      cases kept : keep place with
      | true => simp
      | false =>
        rw [kept] at ih
        simpa using ih
    · have other : (location == place) = false := beq_false_of_ne same
      rw [other]
      cases kept : keep place with
      | true => simpa [List.lookup_cons, other] using ih
      | false => simpa using ih

theorem nodeIn_filter (keep : Location → Bool) (present : location ≠ []) :
    nodeIn (nodes.filter fun entry => keep entry.1) location = if keep location then nodeIn nodes location else none := by
  simp only [nodeIn, if_neg present, lookup_filter]

theorem nodeIn_cons {place : Location} {node : Node} (present : place ≠ []) :
    nodeIn ((place, node) :: nodes) location = if location = place then some node else nodeIn nodes location := by
  unfold nodeIn
  rw [List.lookup_cons]
  by_cases same : location = place
  · rw [if_pos same, same, if_neg present, beq_self_eq_true]
  · rw [if_neg same, beq_false_of_ne same]

theorem mem_of_nodeIn {node : Node} (present : location ≠ []) (found : nodeIn nodes location = some node) :
    (location, node) ∈ nodes := by
  rw [nodeIn, if_neg present] at found
  exact mem_of_lookup found

theorem nodeIn_isSome (present : location ≠ []) : (nodeIn nodes location).isSome ↔ location ∈ nodes.map Prod.fst := by
  rw [nodeIn, if_neg present]
  induction nodes with
  | nil => simp
  | cons entry nodes ih =>
    rw [List.lookup_cons, List.map_cons, List.mem_cons, ← ih]
    by_cases same : location = entry.1
    · simp [same]
    · simp [same, beq_false_of_ne same]

/-- Nothing replaces a directory but a directory. -/
def Fits (nodes : List (Location × Node)) (here : Location) (name : Text) (node : Node) : Prop :=
  IsName name ∧ nodeIn nodes here = some .directory ∧ (nodeIn nodes (here ++ [name]) = some .directory → node = .directory)

instance (here : Location) (name : Text) (node : Node) : Decidable (Fits nodes here name node) :=
  inferInstanceAs (Decidable (_ ∧ _))

def putIn (nodes : List (Location × Node)) (here : Location) (name : Text) (node : Node) : List (Location × Node) :=
  (here ++ [name], node) :: nodes.filter fun entry => entry.1 ≠ here ++ [name]

def removeIn (nodes : List (Location × Node)) (root : Location) : List (Location × Node) :=
  nodes.filter fun entry => ¬ root <+: entry.1

theorem nodeIn_putIn (here : Location) (name : Text) (node : Node) :
    nodeIn (putIn nodes here name node) location = if location = here ++ [name] then some node else nodeIn nodes location := by
  rw [putIn, nodeIn_cons (by simp)]
  split
  next => rfl
  next other =>
    by_cases top : location = []
    · rw [nodeIn, if_pos top, nodeIn, if_pos top]
    · rw [nodeIn_filter (fun location => decide (location ≠ here ++ [name])) top, if_pos (by simpa using other)]

theorem nodeIn_removeIn {root : Location} (below : root ≠ []) :
    nodeIn (removeIn nodes root) location = if root <+: location then none else nodeIn nodes location := by
  by_cases top : location = []
  · rw [nodeIn, if_pos top, nodeIn, if_pos top, top, if_neg (by simpa using below)]
  · rw [removeIn, nodeIn_filter (fun location => decide (¬ root <+: location)) top]
    by_cases within : root <+: location <;> simp [within]

theorem unique_putIn (unique : (nodes.map Prod.fst).Nodup) (here : Location) (name : Text) (node : Node) :
    ((putIn nodes here name node).map Prod.fst).Nodup := by
  rw [putIn, List.map_cons, List.nodup_cons]
  refine ⟨fun member => ?_, unique.sublist (List.filter_sublist.map _)⟩
  obtain ⟨entry, kept, same⟩ := List.mem_map.mp member
  exact absurd same (by simpa using (List.mem_filter.mp kept).2)

theorem unique_nil : (([] : List (Location × Node)).map Prod.fst).Nodup := List.nodup_nil

theorem held_nil : ∀ location ∈ ([] : List (Location × Node)).map Prod.fst, Held [] location := List.forall_mem_nil _

theorem held_putIn (held : ∀ location ∈ nodes.map Prod.fst, Held nodes location) {here : Location} {name : Text} {node : Node}
    (fits : Fits nodes here name node) :
    ∀ location ∈ (putIn nodes here name node).map Prod.fst, Held (putIn nodes here name node) location := by
  have kept {place : Location} (directory : nodeIn nodes place = some .directory) :
      nodeIn (putIn nodes here name node) place = some .directory := by
    rw [nodeIn_putIn]
    split
    next same => rw [fits.2.2 (same ▸ directory)]
    next => exact directory
  intro location member
  rw [putIn, List.map_cons, List.mem_cons] at member
  rcases member with rfl | later
  · exact ⟨here, name, rfl, fits.1, kept fits.2.1⟩
  · obtain ⟨parent, last, same, proper, directory⟩ := held location ((List.filter_sublist.map _).subset later)
    exact ⟨parent, last, same, proper, kept directory⟩

theorem held_removeIn (held : ∀ location ∈ nodes.map Prod.fst, Held nodes location) (root : Location) :
    ∀ location ∈ (removeIn nodes root).map Prod.fst, Held (removeIn nodes root) location := by
  intro location member
  obtain ⟨entry, kept, rfl⟩ := List.mem_map.mp member
  obtain ⟨present, outside⟩ := List.mem_filter.mp kept
  obtain ⟨here, name, same, proper, directory⟩ := held entry.1 (List.mem_map_of_mem present)
  refine ⟨here, name, same, proper, ?_⟩
  have above : ¬ root <+: here := by
    intro below
    rw [same] at outside
    exact absurd (below.trans (List.prefix_append here [name])) (by simpa using outside)
  by_cases top : here = []
  · exact if_pos top
  · rw [removeIn, nodeIn_filter (fun location => decide (¬ root <+: location)) top, if_pos (by simpa using above)]
    exact directory

end Entries

end Nodes

open Nodes

structure Disk where
  nodes : List (Location × Node)
  /-- Links that are nested deeper lead nowhere. -/
  nesting : Nat
  /-- The size and the time of a directory, as stat(2) has them. -/
  directoryStat : Location → Nat × Nat
  unique : (nodes.map Prod.fst).Nodup
  held : ∀ location ∈ nodes.map Prod.fst, Held nodes location

namespace Disk

def node (disk : Disk) (location : Location) : Option Node := nodeIn disk.nodes location

/-- What cannot be there is not put there. -/
def put (disk : Disk) (here : Location) (name : Text) (node : Node) : Disk :=
  if fits : Fits disk.nodes here name node then
    { disk with
      nodes := putIn disk.nodes here name node
      unique := unique_putIn disk.unique here name node
      held := held_putIn disk.held fits }
  else disk

def putAt (disk : Disk) (location : Location) (node : Node) : Disk :=
  match location.getLast? with
  | some name => disk.put location.dropLast name node
  | none => disk

/-- All that is at a location or below it goes. -/
def remove (disk : Disk) (root : Location) : Disk :=
  { disk with
    nodes := removeIn disk.nodes root
    unique := disk.unique.sublist (List.filter_sublist.map _)
    held := held_removeIn disk.held root }

/-- The name of a location in a directory. -/
def nameIn (here location : Location) : Option Text :=
  match location.getLast? with
  | some name => if location = here ++ [name] then some name else none
  | none => none

/-- `os.listdir` -/
def names (disk : Disk) (here : Location) : List Text := disk.nodes.filterMap fun entry => nameIn here entry.1

section Nodes
variable {disk : Disk} {here location : Location} {name : Text} {node : Node}

@[simp] theorem node_root (disk : Disk) : disk.node [] = some .directory := rfl

theorem node_put (fits : Fits disk.nodes here name node) (location : Location) :
    (disk.put here name node).node location = if location = here ++ [name] then some node else disk.node location := by
  rw [put, dif_pos fits]
  exact nodeIn_putIn here name node

theorem node_remove {root : Location} (below : root ≠ []) (location : Location) :
    (disk.remove root).node location = if root <+: location then none else disk.node location :=
  nodeIn_removeIn below

theorem node_of_remove {root : Location} (below : root ≠ []) (left : (disk.remove root).node location = some node) :
    disk.node location = some node := by
  rw [node_remove below] at left
  split at left
  next => cases left
  next => exact left

theorem putAt_snoc (here : Location) (name : Text) (node : Node) : disk.putAt (here ++ [name]) node = disk.put here name node := by
  unfold putAt
  rw [List.getLast?_concat]
  dsimp only
  rw [List.dropLast_concat]

@[simp] theorem nesting_put : (disk.put here name node).nesting = disk.nesting := by
  unfold put
  split <;> rfl

@[simp] theorem nesting_remove (root : Location) : (disk.remove root).nesting = disk.nesting := rfl

theorem mem_keys (present : location ≠ []) (found : disk.node location = some node) : location ∈ disk.nodes.map Prod.fst :=
  (nodeIn_isSome present).mp (Option.isSome_iff_exists.mpr ⟨node, found⟩)

theorem held_of_node (found : disk.node (here ++ [name]) = some node) : IsName name ∧ disk.node here = some .directory := by
  obtain ⟨parent, last, same, proper, directory⟩ := disk.held _ (mem_keys (by simp) found)
  obtain ⟨rfl, single⟩ := List.append_inj' same rfl
  rw [List.singleton_inj.mp single]
  exact ⟨proper, directory⟩

theorem directory_above {rest : Location} (more : rest ≠ []) (found : disk.node (here ++ rest) = some node) :
    disk.node here = some .directory := by
  induction rest using List.reverseRecOn generalizing node with
  | nil => exact absurd rfl more
  | append_singleton rest last ih =>
    rw [← List.append_assoc] at found
    have above := (held_of_node found).2
    by_cases top : rest = []
    · rw [top, List.append_nil] at above
      exact above
    · exact ih top above

theorem isName_of_mem (found : disk.node location = some node) (member : name ∈ location) : IsName name := by
  induction location using List.reverseRecOn generalizing node with
  | nil => exact absurd member List.not_mem_nil
  | append_singleton location last ih =>
    obtain ⟨proper, above⟩ := held_of_node found
    rcases List.mem_append.mp member with earlier | same
    · exact ih above earlier
    · rw [List.mem_singleton.mp same]
      exact proper

theorem directory_dropLast (found : disk.node location = some .directory) : disk.node location.dropLast = some .directory := by
  cases location using List.reverseRecOn with
  | nil => rfl
  | append_singleton location last =>
    rw [List.dropLast_concat]
    exact (held_of_node found).2

theorem nameIn_eq_some : nameIn here location = some name ↔ location = here ++ [name] := by
  unfold nameIn
  cases location using List.reverseRecOn with
  | nil => simp
  | append_singleton location last =>
    rw [List.getLast?_concat]
    dsimp only
    by_cases same : location ++ [last] = here ++ [last]
    · rw [if_pos same, same, Option.some.injEq, List.append_cancel_left_eq, List.singleton_inj]
    · rw [if_neg same]
      refine ⟨fun impossible => (nomatch impossible), fun other => ?_⟩
      obtain ⟨rfl, _⟩ := List.append_inj' other rfl
      exact absurd rfl same

theorem mem_names : name ∈ disk.names here ↔ ∃ node, disk.node (here ++ [name]) = some node := by
  have present : here ++ [name] ≠ [] := by simp
  rw [← Option.isSome_iff_exists, node.eq_def, nodeIn_isSome present, names, List.mem_filterMap, List.mem_map]
  simp only [nameIn_eq_some]

theorem nodup_names (disk : Disk) (here : Location) : (disk.names here).Nodup := by
  have keys : disk.names here = (disk.nodes.map Prod.fst).filterMap (nameIn here) := by
    rw [names, List.filterMap_map]
    rfl
  rw [keys]
  refine List.Nodup.filterMap ?_ disk.unique
  intro first second name left right
  rw [nameIn_eq_some.mp left, nameIn_eq_some.mp right]

end Nodes

end Disk
end Crashomon
