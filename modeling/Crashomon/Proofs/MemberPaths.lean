import Crashomon.Web.SymbolArchive

/-! Which members of an archive lie inside the directory it is unpacked to. Apart from links, a
path leads where its names do, one after the other. -/

namespace Crashomon
open FileTree

/-- A name of a path, as it is written: `..` goes one up. -/
def climb (here : Location) (name : Text) : Location := if name = dotdot then here.dropLast else here ++ [name]

/-- The location that an absolute path names if there are no links. -/
def PurePath.normal (path : PurePath) : Location := path.tail.foldl climb []

def Node.isLink : Option Node → Bool
  | some (.link _) => true
  | _ => false

/-- No location that the names lead to is a link. -/
def Disk.linkless (disk : Disk) : Location → List Text → Bool
  | _, [] => true
  | here, name :: rest => (name = dotdot || !Node.isLink (disk.node (here ++ [name]))) && disk.linkless (climb here name) rest

namespace Proofs.MemberPaths
open Web.SymbolArchive

section Locations
variable {disk : Disk} {here cwd : Location} {names : List Text}

theorem resolveName_climb {depth : Nat} {name : Text} (plain : (name = dotdot || !Node.isLink (disk.node (here ++ [name]))) = true) :
    disk.resolveName depth here name = some (climb here name) := by
  by_cases up : name = dotdot
  · rw [up, Disk.resolveName_dotdot, climb, if_pos rfl]
  · have other : ∀ text, disk.node (here ++ [name]) ≠ some (.link text) := by
      intro text link
      rw [link] at plain
      simp [up, Node.isLink] at plain
    rw [Disk.resolveName_plain other up, climb, if_neg up]

theorem foldlM_climb {depth : Nat} (linkless : disk.linkless here names = true) :
    names.foldlM (disk.resolveName depth) here = some (names.foldl climb here) := by
  induction names generalizing here with
  | nil => rfl
  | cons name names ih =>
    rw [Disk.linkless, Bool.and_eq_true] at linkless
    rw [List.foldlM_cons, resolveName_climb linkless.1]
    exact ih linkless.2

/-- Without links on its way, a path is resolved as it is written. -/
theorem resolve_normal {path : PurePath} (absolute : path.isAbsolute = true) (clean : ¬ HasNull path.tail)
    (linkless : disk.linkless [] path.tail = true) : disk.resolve cwd path = some path.normal := by
  have start : path.startFrom cwd = [] := if_pos absolute
  rw [Disk.resolve, start, if_pos ⟨Disk.node_root disk, clean⟩, foldlM_climb linkless, PurePath.normal]

theorem solid_climb (solid : ∀ name ∈ here, Location.Solid name) (proper : ∀ name ∈ names, Location.Solid name) :
    ∀ name ∈ names.foldl climb here, Location.Solid name := by
  induction names generalizing here with
  | nil => exact solid
  | cons name names ih =>
    rw [List.foldl_cons]
    refine ih ?_ fun other member => proper other (List.mem_cons_of_mem _ member)
    unfold climb
    split
    next => exact Location.solid_dropLast solid
    next => exact Location.solid_snoc solid (proper name List.mem_cons_self)

theorem solid_normal {path : PurePath} (proper : ∀ name ∈ path.tail, Location.Solid name) : ∀ name ∈ path.normal, Location.Solid name :=
  solid_climb (fun _ member => absurd member List.not_mem_nil) proper

theorem not_hasNull_components {text : Text} (clean : '\x00' ∉ text) : ¬ HasNull (PurePath.components text) := by
  rintro ⟨name, member, null⟩
  -- Parsing drops slashes and dots only, so that a NUL in a component is one of the text.
  have marks := @PurePath.marks_components (fun character => decide (character = '\x00')) rfl rfl text
  have none : text.countP (fun character => decide (character = '\x00')) = 0 := by
    apply List.countP_eq_zero.mpr
    intro character present same
    exact clean (of_decide_eq_true same ▸ present)
  have some_mark : 0 < name.countP fun character => decide (character = '\x00') :=
    List.countP_pos_iff.mpr ⟨'\x00', null, rfl⟩
  have counted : 0 < PurePath.marks (fun character => decide (character = '\x00')) (PurePath.components text) :=
    List.sum_pos_iff_exists_pos_nat.mpr ⟨_, List.mem_map_of_mem member, some_mark⟩
  omega

end Locations

section Members
variable {disk : Disk} {cwd : Location} {base memberName : Text}

/-- The join of the directory and a member's name. -/
def memberPath (base memberName : Text) : PurePath := (PurePath.parse base).join (PurePath.parse memberName)

theorem memberPath_absolute (absolute : (PurePath.parse base).isAbsolute = true) : (memberPath base memberName).isAbsolute = true := by
  unfold memberPath PurePath.join
  split
  next other => exact other
  next => exact absolute

theorem mem_memberPath {name : Text} (member : name ∈ (memberPath base memberName).tail) :
    name ∈ PurePath.components base ∨ name ∈ PurePath.components memberName := by
  unfold memberPath PurePath.join at member
  split at member
  next =>
    rw [PurePath.parse_tail] at member
    exact Or.inr member
  next =>
    rw [PurePath.parse_tail, PurePath.parse_tail] at member
    exact List.mem_append.mp member

/-- Neither name has a NUL, and neither path leads over a link. -/
structure Plain (disk : Disk) (base memberName : Text) : Prop where
  baseClean : '\x00' ∉ base
  memberClean : '\x00' ∉ memberName
  baseLinkless : disk.linkless [] (PurePath.parse base).tail = true
  memberLinkless : disk.linkless [] (memberPath base memberName).tail = true

/-- On plain paths the test is the one of the locations. -/
theorem safeMemberPath_eq (cwd : Location) (absolute : (PurePath.parse base).isAbsolute = true) (below : (PurePath.parse base).normal ≠ [])
    (plain : Plain disk base memberName) :
    safeMemberPath disk cwd (PurePath.parse base) memberName =
      some (if (PurePath.parse base).normal <+: (memberPath base memberName).normal then some (memberPath base memberName).normal else none) := by
  have root : disk.resolve cwd (PurePath.parse base) = some (PurePath.parse base).normal := by
    refine resolve_normal absolute ?_ plain.baseLinkless
    rw [PurePath.parse_tail]
    exact not_hasNull_components plain.baseClean
  have candidate : disk.resolve cwd (memberPath base memberName) = some (memberPath base memberName).normal := by
    refine resolve_normal (memberPath_absolute absolute) ?_ plain.memberLinkless
    rintro ⟨name, member, null⟩
    rcases mem_memberPath member with front | back
    · exact not_hasNull_components plain.baseClean ⟨name, front, null⟩
    · exact not_hasNull_components plain.memberClean ⟨name, back, null⟩
  have rootSolid : ∀ name ∈ (PurePath.parse base).normal, Location.Solid name :=
    solid_normal fun name member => Location.solid_components (PurePath.parse_tail base ▸ member)
  have candidateSolid : ∀ name ∈ (memberPath base memberName).normal, Location.Solid name :=
    solid_normal fun name member => (mem_memberPath member).elim Location.solid_components Location.solid_components
  have inside : (((PurePath.parse base).normal.str ++ ['/']).isPrefixOf (memberPath base memberName).normal.str = true ∨
      (memberPath base memberName).normal = (PurePath.parse base).normal) ↔
        (PurePath.parse base).normal <+: (memberPath base memberName).normal := by
    rw [List.isPrefixOf_iff_prefix, Location.str_slash_prefix_iff rootSolid candidateSolid, Location.Below]
    constructor
    · rintro (within | same)
      · exact within.2.1
      · exact same ▸ List.prefix_refl _
    · intro within
      by_cases same : (memberPath base memberName).normal = (PurePath.parse base).normal
      · exact Or.inr same
      · exact Or.inl ⟨below, within, Ne.symm same⟩
  show (do
    let candidate ← disk.resolve cwd (memberPath base memberName)
    let root ← disk.resolve cwd (PurePath.parse base)
    some (if (root.str ++ ['/']).isPrefixOf candidate.str ∨ candidate = root then some candidate else none)) = _
  rw [candidate, root]
  simp only [Option.bind_eq_bind, Option.bind_some, inside]

/-- A member is accepted just when it lies at the directory or below it, and its path is the one it names. -/
def Decides (disk : Disk) (cwd : Location) (base memberName : Text) : Prop :=
  ∀ location, safeMemberPath disk cwd (PurePath.parse base) memberName = some (some location) ↔
    (PurePath.parse base).normal <+: (memberPath base memberName).normal ∧ location = (memberPath base memberName).normal

theorem not_prefix_of_neighbour {root location : Location} (neighbour : Location.Neighbour root location) : ¬ root <+: location := by
  obtain ⟨parent, name, more, rest, rfl, longer, rfl⟩ := neighbour
  rw [List.prefix_append_right_inj, List.cons_prefix_cons]
  intro within
  exact longer (List.self_eq_append_right.mp within.1)

end Members

/-- Where no link is on the way, the members that lie in the directory are accepted, and its neighbours are not. -/
theorem member_inside_iff (disk : Disk) (cwd : Location) (base memberName : Text) (absolute : (PurePath.parse base).isAbsolute = true)
    (below : (PurePath.parse base).normal ≠ []) (plain : Plain disk base memberName) :
    Decides disk cwd base memberName ∧
      (¬ (PurePath.parse base).normal <+: (memberPath base memberName).normal →
        safeMemberPath disk cwd (PurePath.parse base) memberName = some none) ∧
      (Location.Neighbour (PurePath.parse base).normal (memberPath base memberName).normal →
        safeMemberPath disk cwd (PurePath.parse base) memberName = some none) := by
  have decided := safeMemberPath_eq cwd absolute below plain
  have outside (escapes : ¬ (PurePath.parse base).normal <+: (memberPath base memberName).normal) :
      safeMemberPath disk cwd (PurePath.parse base) memberName = some none := by
    rw [decided, if_neg escapes]
  refine ⟨fun location => ?_, outside, fun neighbour => outside (not_prefix_of_neighbour neighbour)⟩
  rw [decided]
  by_cases within : (PurePath.parse base).normal <+: (memberPath base memberName).normal
  · rw [if_pos within, Option.some.injEq, Option.some.injEq, and_iff_right within, eq_comm]
  · rw [if_neg within]
    exact iff_of_false (fun impossible => nomatch Option.some.inj impossible) fun both => within both.1

/-- A temporary directory, and a link to it from elsewhere. -/
def linkedDirectory : Disk :=
  let blank : Disk := ⟨[], 8, fun _ => (0, 0), Nodes.unique_nil, Nodes.held_nil⟩
  (blank.put [] "tmp".toList .directory).put [] "lnk".toList (.link "/tmp".toList)

/-- A name that climbs out of the directory and comes back. -/
theorem reentry_decided : Decides linkedDirectory [] "/tmp".toList "a/../..//tmp/./f".toList :=
  (member_inside_iff linkedDirectory [] "/tmp".toList "a/../..//tmp/./f".toList (by decide) (by decide)
    ⟨by decide, by decide, by decide +kernel, by decide +kernel⟩).1

/-- Over a link, a member is accepted that is named outside; and a name with a NUL is resolved nowhere. -/
theorem links_are_followed :
    (¬ ∀ (disk : Disk) (cwd : Location) (base memberName : Text), (PurePath.parse base).isAbsolute = true →
      (PurePath.parse base).normal ≠ [] → '\x00' ∉ base → '\x00' ∉ memberName →
        disk.linkless [] (PurePath.parse base).tail = true → Decides disk cwd base memberName) ∧
    ¬ ∀ (disk : Disk) (cwd : Location) (base memberName : Text), (PurePath.parse base).isAbsolute = true →
      (PurePath.parse base).normal ≠ [] → '\x00' ∉ base → disk.linkless [] (PurePath.parse base).tail = true →
        disk.linkless [] (memberPath base memberName).tail = true → Decides disk cwd base memberName := by
  constructor
  · intro all
    have decides := all linkedDirectory [] "/tmp".toList "/lnk/f".toList (by decide) (by decide) (by decide) (by decide) (by decide +kernel)
    have accepted : safeMemberPath linkedDirectory [] (PurePath.parse "/tmp".toList) "/lnk/f".toList =
        some (some ["tmp".toList, "f".toList]) := by decide +kernel
    exact absurd ((decides _).mp accepted).1 (by decide)
  · intro all
    have decides := all linkedDirectory [] "/tmp".toList ['f', '\x00'] (by decide) (by decide) (by decide) (by decide +kernel) (by decide +kernel)
    have raises : safeMemberPath linkedDirectory [] (PurePath.parse "/tmp".toList) ['f', '\x00'] = none := by decide +kernel
    have accepted := (decides ["tmp".toList, ['f', '\x00']]).mpr ⟨by decide, by decide⟩
    rw [raises] at accepted
    cases accepted

end Proofs.MemberPaths
end Crashomon
