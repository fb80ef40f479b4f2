import Crashomon.Base.Text

/-! POSIX paths as pathlib holds them: a root and the components after it.
Parsing drops empty and `.` components and keeps `..`. -/

namespace Crashomon

/-- `root` is empty, `/` or `//`; exactly two leading slashes are a root of their own. -/
structure PurePath where
  root : Text
  tail : List Text
  deriving DecidableEq, Repr

namespace PurePath

def splitRoot : Text → Text × Text
  | '/' :: '/' :: '/' :: rest => (['/'], '/' :: '/' :: rest)
  | '/' :: '/' :: rest => (['/', '/'], rest)
  | '/' :: rest => (['/'], rest)
  | text => ([], text)

def components (text : Text) : List Text := (text.splitOn '/').filter fun part => part ≠ [] ∧ part ≠ ['.']

/-- `Path(text)`. -/
def parse (text : Text) : PurePath := ⟨(splitRoot text).1, components (splitRoot text).2⟩

def isAbsolute (path : PurePath) : Bool := path.root ≠ []

def name (path : PurePath) : Text := path.tail.getLastD []

def str (path : PurePath) : Text :=
  if path.root = [] ∧ path.tail = [] then ['.'] else path.root ++ ['/'].intercalate path.tail

/-- `first / second`: an absolute second operand replaces the first. -/
def join (first second : PurePath) : PurePath :=
  if second.isAbsolute then second else ⟨first.root, first.tail ++ second.tail⟩

/-- The path of an entry of a directory. -/
def child (path : PurePath) (name : Text) : PurePath := ⟨path.root, path.tail ++ [name]⟩

theorem name_child (path : PurePath) (name : Text) : (path.child name).name = name := by
  rw [PurePath.name, child, List.getLastD_concat]

theorem components_append (first second : Text) :
    components (first ++ '/' :: second) = components first ++ components second := by
  unfold components
  rw [List.splitOn_append_cons_self, List.filter_append]

theorem components_slash (text : Text) : components ('/' :: text) = components text := components_append [] text

@[simp] theorem parse_tail (text : Text) : (parse text).tail = components text := by
  show components (splitRoot text).2 = components text
  unfold splitRoot
  split
  next rest => rw [components_slash ('/' :: '/' :: rest)]
  next rest => rw [components_slash, components_slash]
  next rest => rw [components_slash]
  next => rfl

theorem isAbsolute_parse (text : Text) : (parse text).isAbsolute = decide (text.head? = some '/') := by
  unfold isAbsolute parse splitRoot
  split
  next => rfl
  next => rfl
  next => rfl
  next other =>
    cases text with
    | nil => rfl
    | cons character rest =>
      have relative : character ≠ '/' := by
        rintro rfl
        exact other rest rfl
      simp [relative]

theorem join_absolute {first second : PurePath} (absolute : second.isAbsolute = true) : first.join second = second :=
  if_pos absolute

theorem join_relative {first second : PurePath} (relative : second.isAbsolute = false) :
    first.join second = ⟨first.root, first.tail ++ second.tail⟩ :=
  if_neg (Bool.not_eq_true _ ▸ relative)

/-- How many characters of the components are marked. -/
def marks (marked : Char → Bool) (parts : List Text) : Nat := (parts.map (List.countP marked)).sum

section Marks
variable {marked : Char → Bool}

theorem marks_append (first second : List Text) : marks marked (first ++ second) = marks marked first + marks marked second := by
  simp [marks]

theorem marks_splitOn (slash : marked '/' = false) (text : Text) : marks marked (text.splitOn '/') = text.countP marked := by
  induction text with
  | nil => rfl
  | cons character text ih =>
    rw [List.splitOn_cons_eq_if_modifyHead]
    split
    next separator =>
      rw [eq_of_beq separator, List.countP_cons_of_neg (by simp [slash]), ← ih]
      simp [marks]
    next =>
      rw [List.countP_cons, ← ih]
      cases parts : text.splitOn '/' with
      | nil => exact absurd parts (List.splitOn_ne_nil '/' text)
      | cons part parts =>
        simp only [List.modifyHead_cons, marks, List.map_cons, List.sum_cons, List.countP_cons]
        omega

/-- Where neither slashes nor dots are marked, parsing loses no marks. -/
theorem marks_components (slash : marked '/' = false) (dot : marked '.' = false) (text : Text) :
    marks marked (components text) = text.countP marked := by
  rw [← marks_splitOn slash, components]
  induction text.splitOn '/' with
  | nil => rfl
  | cons part parts ih =>
    rw [List.filter_cons]
    split
    next =>
      simp only [marks, List.map_cons, List.sum_cons] at ih ⊢
      omega
    next dropped =>
      have unmarked : part.countP marked = 0 := by
        by_cases empty : part = []
        · rw [empty]
          rfl
        · have single : part = ['.'] := by simpa [empty] using dropped
          rw [single]
          simp [dot]
      simp only [marks, List.map_cons, List.sum_cons] at ih ⊢
      omega

theorem marks_join (first second : PurePath) :
    marks marked (first.join second).tail ≤ marks marked first.tail + marks marked second.tail := by
  unfold join
  split
  next => omega
  next => exact Nat.le_of_eq (marks_append _ _)

end Marks

end PurePath
end Crashomon
