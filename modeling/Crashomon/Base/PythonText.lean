import Crashomon.Base.Text

/-! Python's str: character classes, lines, number formatting and searching. -/

namespace Crashomon.Python

/-- `str.isspace` of one character, and `\s` in a pattern. -/
def isSpace (character : Char) : Bool :=
  let value := character.toNat
  0x09 ≤ value && value ≤ 0x0D || 0x1C ≤ value && value ≤ 0x20 || value == 0x85 || value == 0xA0 || value == 0x1680 ||
    0x2000 ≤ value && value ≤ 0x200A || value == 0x2028 || value == 0x2029 || value == 0x202F || value == 0x205F ||
    value == 0x3000

/-- The zeros of the decimal digits of Unicode 14. The mathematical digits are five alphabets in a row. -/
def decimalZeros : List Nat :=
  [0x30, 0x660, 0x6F0, 0x7C0, 0x966, 0x9E6, 0xA66, 0xAE6, 0xB66, 0xBE6, 0xC66, 0xCE6, 0xD66, 0xDE6, 0xE50, 0xED0, 0xF20,
   0x1040, 0x1090, 0x17E0, 0x1810, 0x1946, 0x19D0, 0x1A80, 0x1A90, 0x1B50, 0x1BB0, 0x1C40, 0x1C50, 0xA620, 0xA8D0, 0xA900,
   0xA9D0, 0xA9F0, 0xAA50, 0xABF0, 0xFF10, 0x104A0, 0x10D30, 0x11066, 0x110F0, 0x11136, 0x111D0, 0x112F0, 0x11450, 0x114D0,
   0x11650, 0x116C0, 0x11730, 0x118E0, 0x11950, 0x11C50, 0x11D50, 0x11DA0, 0x16A60, 0x16AC0, 0x16B50, 0x1D7CE, 0x1D7D8,
   0x1D7E2, 0x1D7EC, 0x1D7F6, 0x1E140, 0x1E2F0, 0x1E950, 0x1FBF0]

def isDecimal (character : Char) : Bool :=
  decimalZeros.any fun first => first ≤ character.toNat && character.toNat < first + 10

def isHexDigit (character : Char) : Bool :=
  '0' ≤ character && character ≤ '9' || 'a' ≤ character && character ≤ 'f' || 'A' ≤ character && character ≤ 'F'

/-- The characters that `str.splitlines` ends a line at. -/
def isLineBreak (character : Char) : Bool :=
  let value := character.toNat
  0x0A ≤ value && value ≤ 0x0D || 0x1C ≤ value && value ≤ 0x1E || value == 0x85 || value == 0x2028 || value == 0x2029

theorem isSpace_of_isLineBreak {character : Char} (breaks : isLineBreak character) : isSpace character := by
  simp only [isLineBreak, isSpace, Bool.or_eq_true, Bool.and_eq_true, decide_eq_true_eq, beq_iff_eq] at breaks ⊢
  omega

def startWith (character : Char) : List Text → List Text
  | [] => [[character]]
  | line :: lines => (character :: line) :: lines

def splitlines : Text → List Text
  | [] => []
  | '\r' :: '\n' :: rest => [] :: splitlines rest
  | character :: rest => if isLineBreak character then [] :: splitlines rest else startWith character (splitlines rest)

theorem splitlines_break {character : Char} {rest : Text} (breaks : isLineBreak character)
    (single : character = '\r' → rest.head? ≠ some '\n') : splitlines (character :: rest) = [] :: splitlines rest := by
  rw [splitlines, if_pos breaks]
  rintro later rfl rfl
  exact single rfl rfl

theorem splitlines_newline (rest : Text) : splitlines ('\n' :: rest) = [] :: splitlines rest :=
  splitlines_break rfl fun impossible => absurd impossible (by decide)

theorem splitlines_unbroken {character : Char} (unbroken : ¬ isLineBreak character) (rest : Text) :
    splitlines (character :: rest) = startWith character (splitlines rest) := by
  rw [splitlines, if_neg unbroken]
  rintro _ rfl
  exact absurd unbroken (by decide)

theorem startWith_ne_nil (character : Char) (lines : List Text) : startWith character lines ≠ [] := by
  cases lines <;> exact List.cons_ne_nil _ _

theorem splitlines_ne_nil {character : Char} {rest : Text} : splitlines (character :: rest) ≠ [] := by
  by_cases breaks : isLineBreak character
  · by_cases pair : character = '\r' ∧ rest.head? = some '\n'
    · obtain ⟨rfl, second⟩ := pair
      obtain ⟨later, rfl⟩ := List.head?_eq_some_iff.mp second
      exact List.cons_ne_nil _ _
    · rw [splitlines_break breaks (not_and.mp pair)]
      exact List.cons_ne_nil _ _
  · rw [splitlines_unbroken breaks]
    exact startWith_ne_nil character _

theorem startWith_append {character : Char} {lines : List Text} (nonempty : lines ≠ []) (later : List Text) :
    startWith character (lines ++ later) = startWith character lines ++ later := by
  cases lines with
  | nil => exact absurd rfl nonempty
  | cons line lines => rfl

/-- A newline ends a line, whatever follows. -/
theorem splitlines_append (body rest : Text) :
    splitlines (body ++ '\n' :: rest) = splitlines (body ++ ['\n']) ++ splitlines rest := by
  fun_induction splitlines body with
  | case1 => exact splitlines_newline rest
  | case2 body ih => exact congrArg ([] :: ·) ih
  | case3 character body single breaks ih =>
    by_cases pair : character = '\r' ∧ body = []
    · obtain ⟨rfl, rfl⟩ := pair
      rfl
    · have alone (later : Text) : character = '\r' → (body ++ '\n' :: later).head? ≠ some '\n' := by
        intro returns newline
        cases body with
        | nil => exact pair ⟨returns, rfl⟩
        | cons first body =>
          cases newline
          exact single body returns rfl
      rw [List.cons_append, List.cons_append, splitlines_break breaks (alone rest), splitlines_break breaks (alone []), ih]
      rfl
  | case4 character body single unbroken ih =>
    have nonempty : splitlines (body ++ ['\n']) ≠ [] := by
      cases body <;> exact splitlines_ne_nil
    rw [List.cons_append, List.cons_append, splitlines_unbroken unbroken, splitlines_unbroken unbroken, ih,
      startWith_append nonempty]

/-- The lines of a text made of rows that each end with a newline. -/
theorem splitlines_flatten {rows : List Text} (ended : ∀ row ∈ rows, ∃ body, row = body ++ ['\n']) :
    splitlines rows.flatten = rows.flatMap splitlines := by
  induction rows with
  | nil => rfl
  | cons row rows ih =>
    obtain ⟨first, later⟩ := List.forall_mem_cons.mp ended
    obtain ⟨body, rfl⟩ := first
    rw [List.flatten_cons, List.flatMap_cons, List.append_assoc, List.singleton_append, splitlines_append, ih later]

theorem splitlines_prefix {front : Text} (nonempty : front ≠ []) (unbroken : ∀ character ∈ front, ¬ isLineBreak character)
    (rest : Text) : ∃ line, splitlines (front ++ rest) = (front ++ line) :: (splitlines (front ++ rest)).tail := by
  induction front with
  | nil => exact absurd rfl nonempty
  | cons character front ih =>
    obtain ⟨first, later⟩ := List.forall_mem_cons.mp unbroken
    rw [List.cons_append, splitlines_unbroken first]
    cases front with
    | nil =>
      rw [List.nil_append]
      cases splitlines rest with
      | nil => exact ⟨[], rfl⟩
      | cons line lines => exact ⟨line, rfl⟩
    | cons second front =>
      obtain ⟨line, seen⟩ := ih (List.cons_ne_nil _ _) later
      rw [seen]
      exact ⟨line, rfl⟩

theorem splitlines_line {line : Text} (unbroken : ∀ character ∈ line, ¬ isLineBreak character) :
    splitlines (line ++ ['\n']) = [line] := by
  induction line with
  | nil => rfl
  | cons character line ih =>
    obtain ⟨first, later⟩ := List.forall_mem_cons.mp unbroken
    rw [List.cons_append, splitlines_unbroken first, ih later]
    rfl

/-- The last line may stand without its newline. -/
theorem splitlines_unended {line : Text} (nonempty : line ≠ []) (unbroken : ∀ character ∈ line, ¬ isLineBreak character) :
    splitlines line = [line] := by
  induction line with
  | nil => exact absurd rfl nonempty
  | cons character line ih =>
    obtain ⟨first, later⟩ := List.forall_mem_cons.mp unbroken
    rw [splitlines_unbroken first]
    by_cases last : line = []
    · rw [last]
      rfl
    · rw [ih last later]
      rfl

/-- `format(value, "0{width}d")` or `format(value, "0{width}x")`. -/
def formatInt (base width : Nat) (value : Int) : Text :=
  let sign := if value < 0 then ['-'] else []
  let digits := Nat.toDigits base value.natAbs
  sign ++ List.replicate (width - sign.length - digits.length) '0' ++ digits

/-- `text.find(needle)`; `none` for -1. -/
def find (needle : Text) : Text → Option Nat
  | [] => if needle = [] then some 0 else none
  | character :: rest => if needle.isPrefixOf (character :: rest) then some 0 else (find needle rest).map (· + 1)

/-- `text.split()`. -/
def split (text : Text) : List Text := (text.splitOnP isSpace).filter (· ≠ [])

theorem split_append {blank : Char} (space : isSpace blank = true) (first second : Text) :
    split (first ++ blank :: second) = split first ++ split second := by
  unfold split
  rw [List.splitOnP_append_cons first second space, List.filter_append]

theorem split_word {word : Text} (nonempty : word ≠ []) (solid : ∀ character ∈ word, isSpace character = false) :
    split word = [word] := by
  rw [split, List.splitOnP_eq_singleton solid, List.filter_cons_of_pos (by simpa using nonempty), List.filter_nil]

theorem solid_of_mem_splitOnP {marked : Char → Bool} {text piece : Text} (member : piece ∈ text.splitOnP marked) :
    ∀ character ∈ piece, marked character = false := by
  induction text generalizing piece with
  | nil =>
    rw [List.splitOnP_nil, List.mem_singleton] at member
    rw [member]
    exact List.forall_mem_nil _
  | cons first text ih =>
    rw [List.splitOnP_cons_eq_if_modifyHead] at member
    split at member
    next =>
      rcases List.mem_cons.mp member with empty | later
      · rw [empty]
        exact List.forall_mem_nil _
      · exact ih later
    next unmarked =>
      obtain ⟨head, pieces, shape⟩ := List.exists_cons_of_ne_nil (List.splitOnP_ne_nil marked text)
      rw [shape, List.modifyHead_cons] at member
      rw [shape] at ih
      rcases List.mem_cons.mp member with begun | later
      · rw [begun]
        exact List.forall_mem_cons.mpr ⟨eq_false_of_ne_true unmarked, ih List.mem_cons_self⟩
      · exact ih (List.mem_cons_of_mem head later)

theorem solid_of_mem_split {text word : Text} (member : word ∈ split text) : ∀ character ∈ word, isSpace character = false :=
  solid_of_mem_splitOnP (List.mem_filter.mp member).1

theorem solid_of_all {text : Text} (all : text.all (fun character => !isSpace character) = true) :
    ∀ character ∈ text, isSpace character = false :=
  fun character member => by simpa using List.all_eq_true.mp all character member

def join (separator : Text) (texts : List Text) : Text := List.intercalate separator texts

end Crashomon.Python
