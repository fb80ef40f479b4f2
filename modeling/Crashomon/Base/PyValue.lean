import Crashomon.Base.Python
import Crashomon.Base.PythonText
import Mathlib.Algebra.Order.Ring.Unbundled.Rat

/-! The dynamically typed values that json.loads makes, and what the programs do with them.
An operation raises where the value has the wrong type. -/

namespace Crashomon.Python

/-- A code point of a str, which can be a lone surrogate. -/
inductive PyChar where
  | scalar (character : Char)
  | surrogate (index : Fin 0x800)
  deriving DecidableEq, Repr

abbrev PyStr := List PyChar

def pyStr (text : Text) : PyStr := text.map .scalar

def literal (text : String) : PyStr := pyStr text.toList

/-- A str that can be encoded, as text. -/
def toText : PyStr → Option Text
  | [] => some []
  | .scalar character :: rest => (toText rest).map (character :: ·)
  | .surrogate _ :: _ => none

inductive PyFloat where
  | finite (value : ℚ)
  | negativeZero
  | infinite (negative : Bool)
  | nan
  deriving DecidableEq, Repr

inductive PyValue where
  | none
  | bool (value : Bool)
  | int (value : Int)
  | float (value : PyFloat)
  | str (text : PyStr)
  | list (items : List PyValue)
  | dict (entries : List (PyStr × PyValue))

abbrev Fields := List (PyStr × PyValue)

/-- What a key is compared by. All the NaNs of a JSON document are one object. -/
inductive Key where
  | none
  | number (value : ℚ)
  | infinite (negative : Bool)
  | nan
  | str (text : PyStr)
  deriving DecidableEq, Repr

/-- The parts of CPython that are left open: the recursion limit, the rounding of
decimal fractions and `repr`. -/
structure Interpreter where
  maxDepth : Nat
  toFloat : Text → PyFloat
  repr : PyValue → Text

def PyChar.isSpace : PyChar → Bool
  | .scalar character => Python.isSpace character
  | .surrogate _ => false

/-- `Path(text).name` -/
def pathName (text : PyStr) : PyStr :=
  ((text.splitOn (.scalar '/')).filter fun part => part ≠ [] ∧ part ≠ literal ".").getLastD []

section Integers

/-- Digits and blanks of all scripts as their ASCII counterparts. -/
def PyChar.toAscii : PyChar → Char
  | .scalar character =>
    if character.toNat < 127 then character
    else if Python.isSpace character then ' '
    else match decimalZeros.find? fun first => first ≤ character.toNat && character.toNat < first + 10 with
      | some first => Nat.digitChar (character.toNat - first)
      | .none => '?'
  | .surrogate _ => '?'

def isBlank (character : Char) : Bool := character == ' ' || 0x09 ≤ character.toNat && character.toNat ≤ 0x0D

def digitValue (character : Char) : Nat :=
  if '0' ≤ character ∧ character ≤ '9' then character.toNat - '0'.toNat
  else if 'a' ≤ character ∧ character ≤ 'z' then character.toNat - 'a'.toNat + 10
  else if 'A' ≤ character ∧ character ≤ 'Z' then character.toNat - 'A'.toNat + 10
  else 36

/-- `sys.get_int_max_str_digits()`, which does not apply to a base that is a power of two. -/
def maxStrDigits : Nat := 4300

def natOfDigits (base : Nat) (digits : Text) : Nat :=
  digits.foldl (fun value digit => value * base + digitValue digit) 0

/-- Digits in groups with one underscore between two of them. -/
def natOfText (base : Nat) (text : Text) : Option Nat :=
  let groups := text.splitOn '_'
  if groups.all fun group => !group.isEmpty && group.all fun digit => digitValue digit < base then
    if base = 10 ∧ maxStrDigits < groups.flatten.length then .none else some (natOfDigits base groups.flatten)
  else .none

def withoutHexMark : Text → Text
  | '0' :: mark :: rest =>
    if mark = 'x' ∨ mark = 'X' then
      match rest with
      | '_' :: later => later
      | _ => rest
    else '0' :: mark :: rest
  | text => text

/-- `int(text, base)` for the bases 10 and 16; `none` for ValueError. -/
def intOfText (base : Nat) (text : PyStr) : Option Int :=
  let stripped := (((text.map PyChar.toAscii).dropWhile isBlank).reverse.dropWhile isBlank).reverse
  let magnitude (body : Text) := natOfText base (if base = 16 then withoutHexMark body else body)
  match stripped with
  | '-' :: body => (magnitude body).map fun value => -(value : Int)
  | '+' :: body => (magnitude body).map fun value => (value : Int)
  | body => (magnitude body).map fun value => (value : Int)

end Integers

namespace PyValue

def truthy : PyValue → Bool
  | .none => false
  | .bool value => value
  | .int value => value ≠ 0
  | .float (.finite value) => value ≠ 0
  | .float .negativeZero => false
  | .float _ => true
  | .str text => !text.isEmpty
  | .list items => !items.isEmpty
  | .dict entries => !entries.isEmpty

/-- `value or default` -/
def orElse (value default : PyValue) : PyValue := if value.truthy then value else default

/-- `value == text` -/
def isText (value : PyValue) (text : String) : Bool :=
  match value with
  | .str other => other = literal text
  | _ => false

/-- `value.get(name, default)` -/
def getOr (value : PyValue) (name : String) (default : PyValue) : Except Raised PyValue :=
  match value with
  | .dict entries => .ok ((entries.lookup (literal name)).getD default)
  | _ => .error .attributeError

/-- `value.get(name)` -/
def get (value : PyValue) (name : String) : Except Raised PyValue := value.getOr name .none

/-- `name in value` -/
def contains (value : PyValue) (name : String) : Except Raised Bool :=
  match value with
  | .dict entries => .ok (entries.lookup (literal name)).isSome
  | .list items => .ok (items.any fun item => item.isText name)
  | .str text => .ok (decide (literal name <:+: text))
  | _ => .error .typeError

/-- What `for item in value` goes over. -/
def elements : PyValue → Except Raised (List PyValue)
  | .list items => .ok items
  | .str text => .ok (text.map fun character => .str [character])
  | .dict entries => .ok (entries.map fun entry => .str entry.1)
  | _ => .error .typeError

/-- A value that takes part in comparisons of numbers. -/
def number : PyValue → Option PyFloat
  | .bool value => some (.finite (if value then 1 else 0))
  | .int value => some (.finite value)
  | .float value => some value
  | _ => .none

/-- `value < bound` -/
def lessThan (value : PyValue) (bound : Nat) : Except Raised Bool :=
  match value.number with
  | some (.finite value) => .ok (decide (value < bound))
  | some .negativeZero => .ok (decide (0 < bound))
  | some (.infinite negative) => .ok negative
  | some .nan => .ok false
  | .none => .error .typeError

/-- `value == count` -/
def equals (value : PyValue) (count : Nat) : Bool :=
  match value.number with
  | some (.finite value) => value = count
  | some .negativeZero => count = 0
  | _ => false

def index : PyValue → Option Int
  | .bool value => some (if value then 1 else 0)
  | .int value => some value
  | _ => .none

/-- The position that an index means in a list of the given length. What an index outside ssize_t raises is not the same
for a subscript and for `pop`. -/
def position (unfit : Raised) (value : PyValue) (length : Nat) : Except Raised Nat :=
  match value.index with
  | some index =>
    if 0 ≤ index ∧ index < length then .ok index.toNat
    else if index < 0 ∧ 0 ≤ index + length then .ok (index + length).toNat
    else .error (if -2 ^ 63 ≤ index ∧ index < 2 ^ 63 then .indexError else unfit)
  | .none => .error .typeError

/-- `len(value)` -/
def length : PyValue → Except Raised Nat
  | .str text => .ok text.length
  | .list items => .ok items.length
  | .dict entries => .ok entries.length
  | _ => .error .typeError

/-- `value[index]` -/
def subscript (value index : PyValue) : Except Raised PyValue :=
  match value with
  | .list items => (index.position .indexError items.length).map fun place => items.getD place .none
  | .str text => (index.position .indexError text.length).map fun place => .str (text[place]?.toList)
  | .dict entries =>
    match index with
    | .str name =>
      match entries.lookup name with
      | some found => .ok found
      | .none => .error .keyError
    | .list _ | .dict _ => .error .typeError
    | _ => .error .keyError
  | _ => .error .typeError

/-- `hash(value)` and what equality compares after it. -/
def key : PyValue → Except Raised Key
  | .none => .ok .none
  | .str text => .ok (.str text)
  | .list _ | .dict _ => .error .typeError
  | value =>
    match value.number with
    | some (.finite value) => .ok (.number value)
    | some .negativeZero => .ok (.number 0)
    | some (.infinite negative) => .ok (.infinite negative)
    | some .nan => .ok .nan
    | .none => .error .typeError

/-- `int(value)` -/
def toInt : PyValue → Except Raised Int
  | .bool value => .ok (if value then 1 else 0)
  | .int value => .ok value
  | .float (.finite value) => .ok (value.num.tdiv value.den)
  | .float .negativeZero => .ok 0
  | .float (.infinite _) => .error .overflowError
  | .float .nan => .error .valueError
  | .str text =>
    match intOfText 10 text with
    | some value => .ok value
    | .none => .error .valueError
  | _ => .error .typeError

/-- `int(value, 16)`, where a ValueError is caught and makes it 0. -/
def hexOrZero : PyValue → Except Raised Int
  | .str text => .ok ((intOfText 16 text).getD 0)
  | _ => .error .typeError

/-- `f"{value:02d}"` -/
def twoDigits : PyValue → Except Raised PyStr
  | .bool value => .ok (pyStr (formatInt 10 2 (if value then 1 else 0)))
  | .int value => .ok (pyStr (formatInt 10 2 value))
  | .float _ | .str _ => .error .valueError
  | _ => .error .typeError

/-- `Path(value).name` -/
def pathName : PyValue → Except Raised PyStr
  | .str text => .ok (Python.pathName text)
  | _ => .error .typeError

/-- `value.split()[0]` -/
def firstWord : PyValue → Except Raised PyStr
  | .str text =>
    match (text.splitOnP PyChar.isSpace).find? (· ≠ []) with
    | some word => .ok word
    | .none => .error .indexError
  | _ => .error .attributeError

/-- `f"{value}"` -/
def display (interpreter : Interpreter) : PyValue → PyStr
  | .none => literal "None"
  | .bool value => literal (if value then "True" else "False")
  | .int value => pyStr (formatInt 10 0 value)
  | .str text => text
  | value => pyStr (interpreter.repr value)

end PyValue
end Crashomon.Python
