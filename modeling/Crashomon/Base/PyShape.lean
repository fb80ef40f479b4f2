import Crashomon.Base.PyValue
import Crashomon.Base.Raising

/-! Which values the operations on Python's values accept, and what they give for these. -/

namespace Crashomon.Python
open Raising

/-- What `get` finds in an object; `none` also stands for absent. -/
def field (fields : Fields) (name : String) : PyValue := (fields.lookup (literal name)).getD .none

/-- A str, or anything that `or` replaces. -/
def TextOrFalsy (value : PyValue) : Prop := value.truthy = true → ∃ text, value = .str text

/-- An array of objects, or anything that `or` replaces. -/
def ObjectsOrFalsy (value : PyValue) : Prop :=
  value.truthy = true → ∃ items, value = .list items ∧ ∀ item ∈ items, ∃ fields, item = .dict fields

def fieldsOf : PyValue → Fields
  | .dict fields => fields
  | _ => []

def itemsOf : PyValue → List PyValue
  | .list items => items
  | _ => []

/-- The objects of an array of objects. -/
def objects (value : PyValue) : List Fields := (itemsOf value).map fieldsOf

def IsHashable (value : PyValue) : Prop :=
  match value with
  | .list _ | .dict _ => False
  | _ => True

def keyOf (value : PyValue) : Key := returned value.key .none

/-- A line number that `int` takes, or none at all. -/
def LineOrNone (value : PyValue) : Prop :=
  match value with
  | .none | .bool _ | .int _ | .float (.finite _) | .float .negativeZero => True
  | .str text => (intOfText 10 text).isSome
  | _ => False

/-- A str with a word in it, or anything that `or` replaces. -/
def WordOrFalsy (value : PyValue) : Prop :=
  value.truthy = true → ∃ text, value = .str text ∧ ∃ character ∈ text, character.isSpace = false

def PyFloat.Below (value : PyFloat) (bound : Nat) : Prop :=
  match value with
  | .finite value => value < bound
  | .negativeZero => 0 < bound
  | .infinite negative => negative = true
  | .nan => False

/-- A number that is not below the length, or an integer that counts from the end at most as far as it reaches. -/
def Subscripts (value : PyValue) (length : Nat) : Prop :=
  (∃ index, value.index = some index ∧ -(length : Int) ≤ index) ∨ ∃ number, value = .float number ∧ ¬ number.Below length

/-- The position that a number below the length means. -/
def placeOf (value : PyValue) (length : Nat) : Option Nat :=
  match value.index with
  | some index => if index < length then some (if 0 ≤ index then index else index + length).toNat else none
  | none => none

namespace PyValue

@[simp] theorem get_dict (fields : Fields) (name : String) : get (.dict fields) name = .ok (field fields name) := rfl

theorem get_ok {value result : PyValue} {name : String} (found : value.get name = .ok result) : ∃ fields, value = .dict fields := by
  cases value with
  | dict fields => exact ⟨fields, rfl⟩
  | _ => cases found

theorem orElse_truthy {value : PyValue} (truthy : value.truthy = true) (default : PyValue) : value.orElse default = value :=
  if_pos truthy

theorem orElse_falsy {value : PyValue} (falsy : ¬ value.truthy = true) (default : PyValue) : value.orElse default = default :=
  if_neg falsy

/-- The numbers that `int(value, 16)` and the default make of a field. -/
def hexOf : PyValue → Int
  | .str text => (intOfText 16 text).getD 0
  | _ => 0

theorem hexOrZero_ok {value : PyValue} {result : Int} :
    (value.orElse (.str (literal "0x0"))).hexOrZero = .ok result ↔ TextOrFalsy value ∧ result = value.hexOf := by
  by_cases truthy : value.truthy = true
  · rw [orElse_truthy truthy]
    cases value with
    | str text =>
      rw [hexOrZero, Except.ok.injEq]
      exact ⟨fun result => ⟨fun _ => ⟨text, rfl⟩, result.symm⟩, fun result => result.2.symm⟩
    | _ => simp [TextOrFalsy, hexOrZero, truthy]
  · have same : value.hexOf = 0 := by
      cases value with
      | str text =>
        have empty : text = [] := by simpa [PyValue.truthy] using truthy
        rw [empty]
        rfl
      | _ => rfl
    have zero : (PyValue.str (literal "0x0")).hexOrZero = .ok 0 := by decide
    rw [orElse_falsy truthy, zero, same, Except.ok.injEq]
    exact ⟨fun result => ⟨fun impossible => absurd impossible truthy, result.symm⟩, fun result => result.2.symm⟩

theorem elements_ok {value : PyValue} {items : List PyValue} (dicts : ∀ item ∈ items, ∃ fields, item = .dict fields) :
    (value.orElse (.list [])).elements = .ok items ↔ ObjectsOrFalsy value ∧ items = itemsOf value := by
  by_cases truthy : value.truthy = true
  · rw [orElse_truthy truthy]
    cases value with
    | list others =>
      simp only [elements, itemsOf, Except.ok.injEq]
      constructor
      · rintro rfl
        exact ⟨fun _ => ⟨others, rfl, dicts⟩, rfl⟩
      · rintro ⟨_, rfl⟩
        rfl
    | str text =>
      cases text with
      | nil => cases truthy
      | cons character text =>
        simp [elements, ObjectsOrFalsy, truthy]
        rintro rfl
        simp at dicts
    | dict fields =>
      cases fields with
      | nil => cases truthy
      | cons entry fields =>
        simp [elements, ObjectsOrFalsy, truthy]
        rintro rfl
        simp at dicts
    | _ => simp [elements, ObjectsOrFalsy, truthy]
  · have nothing : itemsOf value = [] := by
      cases value with
      | list items => simpa [PyValue.truthy, itemsOf] using truthy
      | _ => rfl
    rw [orElse_falsy truthy, elements, nothing, Except.ok.injEq]
    exact ⟨fun result => ⟨fun impossible => absurd impossible truthy, result.symm⟩, fun result => result.2.symm⟩

theorem elements_falsy {value : PyValue} {items : List PyValue} (falsy : ¬ value.truthy = true)
    (found : value.elements = .ok items) : items = [] := by
  cases value with
  | list others =>
    cases found
    simpa [PyValue.truthy] using falsy
  | str text =>
    have empty : text = [] := by simpa [PyValue.truthy] using falsy
    rw [empty] at found
    cases found
    rfl
  | dict fields =>
    have empty : fields = [] := by simpa [PyValue.truthy] using falsy
    rw [empty] at found
    cases found
    rfl
  | _ => cases found

/-- An array of objects, or the empty one in its place. -/
theorem orElse_objects {value : PyValue} (shape : ObjectsOrFalsy value) : value.orElse (.list []) = .list (itemsOf value) := by
  by_cases truthy : value.truthy = true
  · obtain ⟨items, rfl, _⟩ := shape truthy
    exact orElse_truthy truthy _
  · rw [orElse_falsy truthy]
    cases value with
    | list items =>
      have empty : items = [] := by simpa [PyValue.truthy] using truthy
      rw [empty]
      rfl
    | _ => rfl

theorem mem_itemsOf {value item : PyValue} (shape : ObjectsOrFalsy value) (member : item ∈ itemsOf value) :
    ∃ fields, item = .dict fields := by
  by_cases truthy : value.truthy = true
  · obtain ⟨items, rfl, objects⟩ := shape truthy
    exact objects item member
  · have listed := orElse_objects shape
    rw [orElse_falsy truthy] at listed
    rw [← PyValue.list.inj listed] at member
    cases member

section Loops
variable {β γ δ σ : Type} {view : Nat → Fields → γ} {good : γ → Prop} {insert : σ → δ → σ}
  {step : List β × σ → PyValue → Except Raised (List β × σ)}

theorem mapIdx_viewed (make : γ → β) (items : List PyValue) :
    items.mapIdx (fun position item => make (view position (fieldsOf item))) = ((items.map fieldsOf).mapIdx view).map make := by
  rw [List.mapIdx_eq_iff]
  intro position
  simp [Function.comp_def]

theorem forall_viewed {items : List PyValue} :
    (∀ object ∈ (items.map fieldsOf).mapIdx view, good object) ↔
      ∀ position item, items[position]? = some item → good (view position (fieldsOf item)) := by
  constructor
  · intro all position item found
    apply all
    rw [List.mem_iff_getElem?]
    exact ⟨position, by simp [found]⟩
  · intro all object member
    obtain ⟨position, found⟩ := List.mem_iff_getElem?.mp member
    simp only [List.getElem?_mapIdx, List.getElem?_map, Option.map_map, Option.map_eq_some_iff] at found
    obtain ⟨item, there, rfl⟩ := found
    exact all position item there

/-- A loop over an array of objects, each seen with its position. -/
theorem objects_loop (view : Nat → Fields → γ) (good : γ → Prop) (make : γ → β) (entries : γ → List δ) (spec : ∀ read item result, step read item = .ok result ↔
      (∃ fields, item = .dict fields ∧ good (view read.1.length fields)) ∧
        result = (read.1 ++ [make (view read.1.length (fieldsOf item))],
          (entries (view read.1.length (fieldsOf item))).foldl insert read.2))
    (value : PyValue) (state : σ) (result : List β × σ) :
    ((value.orElse (.list [])).elements >>= fun items => items.foldlM step ([], state)) = .ok result ↔
      ObjectsOrFalsy value ∧ (∀ object ∈ (objects value).mapIdx view, good object) ∧
        result = (((objects value).mapIdx view).map make, (((objects value).mapIdx view).flatMap entries).foldl insert state) := by
  have loop (items : List PyValue) : items.foldlM step ([], state) = .ok result ↔
      (∀ position item, items[position]? = some item → ∃ fields, item = .dict fields ∧ good (view position fields)) ∧
        result = (((items.map fieldsOf).mapIdx view).map make, (((items.map fieldsOf).mapIdx view).flatMap entries).foldl insert state) := by
    rw [foldlM_collect (fun position item => ∃ fields, item = .dict fields ∧ good (view position fields))
      (fun position item => make (view position (fieldsOf item)))
      (fun position item state => (entries (view position (fieldsOf item))).foldl insert state) spec, carry_foldl]
    simp only [List.nil_append, List.length_nil, Nat.zero_add, mapIdx_viewed, List.flatMap_def]
  simp only [bind_ok, loop]
  constructor
  · rintro ⟨items, found, all, same⟩
    have dicts : ∀ item ∈ items, ∃ fields, item = .dict fields := by
      intro item member
      obtain ⟨position, there⟩ := List.mem_iff_getElem?.mp member
      obtain ⟨fields, object, _⟩ := all position item there
      exact ⟨fields, object⟩
    obtain ⟨shape, rfl⟩ := (elements_ok dicts).mp found
    refine ⟨shape, forall_viewed.mpr ?_, same⟩
    intro position item there
    obtain ⟨fields, rfl, good⟩ := all position item there
    exact good
  · rintro ⟨shape, all, same⟩
    have dicts : ∀ item ∈ itemsOf value, ∃ fields, item = .dict fields := fun item => mem_itemsOf shape
    refine ⟨itemsOf value, (elements_ok dicts).mpr ⟨shape, rfl⟩, ?_, same⟩
    intro position item there
    obtain ⟨fields, rfl⟩ := dicts item (List.mem_of_getElem? there)
    exact ⟨fields, rfl, forall_viewed.mp all position _ there⟩

end Loops

theorem key_returns {value : PyValue} : (∃ key, value.key = .ok key) ↔ IsHashable value := by
  cases value with
  | list | dict => exact ⟨fun ⟨_, impossible⟩ => (nomatch impossible), fun impossible => impossible.elim⟩
  | float value => cases value <;> exact ⟨fun _ => trivial, fun _ => ⟨_, rfl⟩⟩
  | _ => exact ⟨fun _ => trivial, fun _ => ⟨_, rfl⟩⟩

theorem key_ok {value : PyValue} {key : Key} : value.key = .ok key ↔ IsHashable value ∧ key = keyOf value := by
  rw [ok_iff_returned .none, key_returns, keyOf]

/-- An integer, which can stand as a number with two digits. -/
theorem twoDigits_returns {value : PyValue} : (∃ text, value.twoDigits = .ok text) ↔ value.index.isSome = true := by
  cases value with
  | bool | int => exact ⟨fun _ => rfl, fun _ => ⟨_, rfl⟩⟩
  | _ => exact ⟨fun ⟨_, impossible⟩ => (nomatch impossible), fun impossible => nomatch impossible⟩

theorem isHashable_of_index {value : PyValue} (integer : value.index.isSome = true) : IsHashable value := by
  cases value with
  | bool | int => trivial
  | _ => cases integer

theorem find_word {text : PyStr} :
    (∃ word, (text.splitOnP PyChar.isSpace).find? (· ≠ []) = some word) ↔ ∃ character ∈ text, character.isSpace = false := by
  rw [← Option.isSome_iff_exists, List.find?_isSome]
  simp only [ne_eq, decide_not, Bool.not_eq_eq_eq_not, Bool.not_true, decide_eq_false_iff_not]
  induction text with
  | nil => simp
  | cons character text ih =>
    rw [List.splitOnP_cons_eq_if_modifyHead]
    by_cases space : character.isSpace = true
    · simp [space, ih]
    · obtain ⟨head, pieces, shape⟩ := List.exists_cons_of_ne_nil (List.splitOnP_ne_nil PyChar.isSpace text)
      simp [space, shape]

theorem firstWord_returns {value : PyValue} :
    (∃ word, value.firstWord = .ok word) ↔ ∃ text, value = .str text ∧ ∃ character ∈ text, character.isSpace = false := by
  cases value with
  | str text =>
    simp only [PyValue.str.injEq, exists_eq_left']
    rw [← find_word, firstWord]
    cases text.splitOnP PyChar.isSpace |>.find? (· ≠ []) with
    | none => exact ⟨fun ⟨_, impossible⟩ => (nomatch impossible), fun ⟨_, impossible⟩ => (nomatch impossible)⟩
    | some word => exact ⟨fun _ => ⟨word, rfl⟩, fun _ => ⟨word, rfl⟩⟩
  | _ => exact ⟨fun ⟨_, impossible⟩ => (nomatch impossible), fun ⟨_, impossible, _⟩ => nomatch impossible⟩

theorem toInt_returns {value : PyValue} (present : value ≠ .none) : (∃ line, value.toInt = .ok line) ↔ LineOrNone value := by
  cases value with
  | none => exact absurd rfl present
  | bool | int => exact ⟨fun _ => trivial, fun _ => ⟨_, rfl⟩⟩
  | float value =>
    cases value with
    | finite | negativeZero => exact ⟨fun _ => trivial, fun _ => ⟨_, rfl⟩⟩
    | infinite | nan => exact ⟨fun ⟨_, impossible⟩ => (nomatch impossible), fun impossible => impossible.elim⟩
  | str text =>
    rw [toInt, LineOrNone]
    cases intOfText 10 text with
    | none => exact ⟨fun ⟨_, impossible⟩ => (nomatch impossible), fun impossible => nomatch impossible⟩
    | some line => exact ⟨fun _ => rfl, fun _ => ⟨line, rfl⟩⟩
  | list | dict => exact ⟨fun ⟨_, impossible⟩ => (nomatch impossible), fun impossible => impossible.elim⟩

/-- The last component of a path that may be missing. -/
def nameOf : PyValue → PyStr
  | .str text => Python.pathName text
  | _ => []

theorem pathName_returns {value : PyValue} (default : PyStr) :
    (∃ name, (value.orElse (.str default)).pathName = .ok name) ↔ TextOrFalsy value := by
  by_cases truthy : value.truthy = true
  · rw [orElse_truthy truthy]
    cases value with
    | str text => exact ⟨fun _ _ => ⟨text, rfl⟩, fun _ => ⟨_, rfl⟩⟩
    | _ => exact ⟨fun ⟨_, impossible⟩ => (nomatch impossible), fun text => (nomatch (text truthy).choose_spec)⟩
  · rw [orElse_falsy truthy]
    exact ⟨fun _ impossible => absurd impossible truthy, fun _ => ⟨_, rfl⟩⟩

theorem pathName_ok {value : PyValue} {name : PyStr} :
    (value.orElse (.str [])).pathName = .ok name ↔ TextOrFalsy value ∧ name = value.nameOf := by
  rw [ok_iff_returned [], pathName_returns]
  apply and_congr_right
  intro texts
  apply Eq.congr_right
  by_cases truthy : value.truthy = true
  · obtain ⟨text, rfl⟩ := texts truthy
    rw [orElse_truthy truthy]
    rfl
  · have nothing : returned (PyValue.str []).pathName [] = [] := by decide
    rw [orElse_falsy truthy, nothing]
    cases value with
    | str text =>
      have empty : text = [] := by simpa [PyValue.truthy] using truthy
      rw [empty]
      rfl
    | _ => rfl

theorem lessThan_index {value : PyValue} {index : Int} (found : value.index = some index) (length : Nat) :
    value.lessThan length = .ok (decide (index < length)) := by
  have number : value.number = some (.finite index) := by
    cases value with
    | bool value =>
      cases found
      cases value <;> rfl
    | int value =>
      cases found
      rfl
    | _ => cases found
  have compared : ((index : ℚ) < (length : ℚ)) ↔ index < length := by exact_mod_cast Iff.rfl
  rw [lessThan, number]
  simp only [compared]

theorem position_index (unfit : Raised) {value : PyValue} {index : Int} (found : value.index = some index) {length : Nat}
    (below : index < length) (reaches : -(length : Int) ≤ index) :
    value.position unfit length = .ok (if 0 ≤ index then index else index + length).toNat := by
  rw [position, found]
  dsimp only
  split
  next inside => rw [if_pos inside.1]
  next outside =>
    have negative : index < 0 := by omega
    rw [if_pos ⟨negative, by omega⟩, if_neg (by omega)]

theorem lessThan_float (value : PyFloat) (length : Nat) :
    ∃ inside, (PyValue.float value).lessThan length = .ok inside ∧ (inside = true ↔ value.Below length) := by
  cases value with
  | finite value => exact ⟨_, rfl, decide_eq_true_iff⟩
  | negativeZero => exact ⟨_, rfl, decide_eq_true_iff⟩
  | infinite negative => exact ⟨_, rfl, Iff.rfl⟩
  | nan => exact ⟨_, rfl, by simp [PyFloat.Below]⟩

theorem placeOf_lt {value : PyValue} {length place : Nat} (subscripts : Subscripts value length)
    (found : placeOf value length = some place) : place < length := by
  unfold placeOf at found
  rcases subscripts with ⟨index, indexed, reaches⟩ | ⟨number, rfl, _⟩
  · rw [indexed] at found
    dsimp only at found
    split at found
    next below =>
      cases found
      split <;> omega
    next => cases found
  · cases found

/-- Comparing with a length and then taking the position. -/
theorem selects_ok {unfit : Raised} {value : PyValue} {length : Nat} {select : Nat → Except Raised α} {other : α} {result : α} :
    (value.lessThan length >>= fun inside => if inside then value.position unfit length >>= select else .ok other) = .ok result ↔
      Subscripts value length ∧
        (match placeOf value length with
          | some place => select place
          | .none => .ok other) = .ok result := by
  cases indexed : value.index with
  | some index =>
    have reach : Subscripts value length ↔ -(length : Int) ≤ index := by
      constructor
      · rintro (⟨other, same, reaches⟩ | ⟨number, rfl, _⟩)
        · cases indexed.symm.trans same
          exact reaches
        · cases indexed
      · intro reaches
        exact Or.inl ⟨index, indexed, reaches⟩
    rw [lessThan_index indexed, reach, placeOf, indexed]
    show (if decide (index < length) = true then _ else _) = _ ↔ _
    simp only [decide_eq_true_eq]
    by_cases below : index < length
    · rw [if_pos below, if_pos below]
      by_cases reaches : -(length : Int) ≤ index
      · rw [position_index unfit indexed below reaches]
        exact ⟨fun selected => ⟨reaches, selected⟩, fun selected => selected.2⟩
      · have raises : value.position unfit length =
            .error (if -2 ^ 63 ≤ index ∧ index < 2 ^ 63 then .indexError else unfit) := by
          rw [position, indexed]
          dsimp only
          rw [if_neg (by omega), if_neg (by omega)]
        rw [raises]
        constructor
        · intro impossible
          cases impossible
        · rintro ⟨impossible, _⟩
          exact absurd impossible reaches
    · rw [if_neg below, if_neg below]
      exact ⟨fun selected => ⟨by omega, selected⟩, fun selected => selected.2⟩
  | none =>
    have place : placeOf value length = .none := by
      rw [placeOf, indexed]
    have raises : value.position unfit length = .error .typeError := by
      rw [position, indexed]
    rw [place, raises]
    cases value with
    | bool | int => cases indexed
    | float number =>
      obtain ⟨inside, compared, below⟩ := lessThan_float number length
      rw [compared]
      show (if inside = true then _ else _) = _ ↔ _
      by_cases less : number.Below length
      · rw [if_pos (below.mpr less)]
        constructor
        · intro impossible
          cases impossible
        · rintro ⟨⟨index, impossible, _⟩ | ⟨other, same, above⟩, _⟩
          · cases impossible
          · cases same
            exact absurd less above
      · rw [if_neg (fun inside => less (below.mp inside))]
        exact ⟨fun selected => ⟨Or.inr ⟨number, rfl, less⟩, selected⟩, fun selected => selected.2⟩
    | _ =>
      constructor
      · intro impossible
        cases impossible
      · rintro ⟨⟨index, impossible, _⟩ | ⟨number, impossible, _⟩, _⟩ <;> cases impossible

end PyValue
end Crashomon.Python
