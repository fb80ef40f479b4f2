import Mathlib.Data.List.Basic

/-! Files that several processes have open at once. A file that has lost its name to another stays
as it is for those who have it open, and what is written at an offset is written there. -/

namespace Crashomon

/-- The files of a name are told apart by a number. -/
structure SharedFiles (Name : Type) where
  links : Name → Option Nat
  contents : Name → Nat → Option (List UInt8)
  /-- A number that no file has. -/
  next : Nat

namespace SharedFiles
variable {Name : Type}

/-- One file for each name that has a content. -/
def holding (prior : Name → Option (List UInt8)) : SharedFiles Name where
  links name := (prior name).map fun _ => 0
  contents name number := if number = 0 then prior name else none
  next := 1

/-- What is under a name. -/
def view (files : SharedFiles Name) (name : Name) : Option (List UInt8) := (files.links name).bind (files.contents name)

/-- pwrite(2): a gap before the offset is filled with zeros. -/
def splice (content : List UInt8) (offset : Nat) (bytes : List UInt8) : List UInt8 :=
  content.take offset ++ List.replicate (offset - content.length) 0 ++ bytes ++ content.drop (offset + bytes.length)

theorem splice_end {content bytes : List UInt8} {offset : Nat} (ends : offset = content.length) :
    splice content offset bytes = content ++ bytes := by
  rw [splice, ends, List.take_length, Nat.sub_self, List.replicate_zero, List.append_nil, List.drop_eq_nil_of_le (Nat.le_add_right _ _),
    List.append_nil]

theorem view_holding (prior : Name → Option (List UInt8)) : (holding prior).view = prior := by
  funext name
  cases held : prior name with
  | none => simp [view, holding, held]
  | some content => simp [view, holding, held]

variable [DecidableEq Name]

def put (files : SharedFiles Name) (name : Name) (number : Nat) (content : List UInt8) : SharedFiles Name :=
  { files with contents := fun other index => if other = name ∧ index = number then some content else files.contents other index }

/-- A new file takes the name. -/
def create (files : SharedFiles Name) (name : Name) (content : List UInt8) : SharedFiles Name :=
  { files.put name files.next content with
    links := fun other => if other = name then some files.next else files.links other
    next := files.next + 1 }

/-- open(2) with O_CREAT and O_TRUNC: the number of the file comes first. -/
def openForWriting (files : SharedFiles Name) (name : Name) : Nat × SharedFiles Name :=
  (files.links name).elim (files.next, files.create name []) fun number => (number, files.put name number [])

def writeAt (files : SharedFiles Name) (name : Name) (number offset : Nat) (bytes : List UInt8) : SharedFiles Name :=
  files.put name number (splice ((files.contents name number).getD []) offset bytes)

variable {files : SharedFiles Name} {name other : Name} {number index : Nat} {content : List UInt8}

@[simp] theorem links_put : (files.put name number content).links = files.links := rfl

@[simp] theorem contents_put : (files.put name number content).contents other index =
    if other = name ∧ index = number then some content else files.contents other index := rfl

@[simp] theorem links_create : (files.create name content).links other = if other = name then some files.next else files.links other := rfl

@[simp] theorem contents_create : (files.create name content).contents other index =
    if other = name ∧ index = files.next then some content else files.contents other index := rfl

theorem view_create : (files.create name content).view other = if other = name then some content else files.view other := by
  unfold view
  rw [links_create]
  by_cases same : other = name
  · rw [if_pos same, if_pos same, Option.bind_some, contents_create, if_pos ⟨same, rfl⟩]
  · rw [if_neg same, if_neg same]
    refine Option.bind_congr fun index _ => ?_
    rw [contents_create, if_neg fun both => same both.1]

theorem view_put (linked : files.links name = some number) :
    (files.put name number content).view other = if other = name then some content else files.view other := by
  unfold view
  rw [links_put]
  by_cases same : other = name
  · rw [if_pos same, same, linked, Option.bind_some, contents_put, if_pos ⟨rfl, rfl⟩]
  · rw [if_neg same]
    refine Option.bind_congr fun index _ => ?_
    rw [contents_put, if_neg fun both => same both.1]

end SharedFiles
end Crashomon
