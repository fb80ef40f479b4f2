import Crashomon.Base.PyValue

/-! The decoder behind json.loads. It takes NaN and the infinities for numbers, lets lone
surrogates through, and gives up on containers that nest too deep. -/

namespace Crashomon.Python.Json
open Python

inductive JsonError where
  /-- JSONDecodeError, or the ValueError of an integer with too many digits. -/
  | invalid
  /-- RecursionError at an object or an array. -/
  | tooDeep (container : Text)
  | exhausted
  deriving DecidableEq, Repr

def isBlank (character : Char) : Bool :=
  character == ' ' || character == '\t' || character == '\n' || character == '\r'

def skipBlanks (text : Text) : Text := text.dropWhile isBlank

section Strings

def simpleEscape : Char → Option Char
  | '"' => some '"'
  | '\\' => some '\\'
  | '/' => some '/'
  | 'b' => some '\x08'
  | 'f' => some '\x0C'
  | 'n' => some '\n'
  | 'r' => some '\r'
  | 't' => some '\t'
  | _ => none

/-- The four digits of `\uXXXX`. -/
def codeUnit (digits : Text) : Option PyChar :=
  if digits.all isHexDigit then
    let value := natOfDigits 16 digits
    if 0xD800 ≤ value ∧ value < 0xE000 then some (.surrogate (Fin.ofNat 0x800 (value - 0xD800)))
    else some (.scalar (Char.ofNat value))
  else none

/-- A high surrogate and a low one after it are one character. Both stand as escapes, since
text has no surrogates. -/
def joinUnit : PyChar → PyStr → PyStr
  | .surrogate high, .surrogate low :: rest =>
    if high.val < 0x400 ∧ 0x400 ≤ low.val then
      .scalar (Char.ofNat (0x10000 + high.val * 0x400 + (low.val - 0x400))) :: rest
    else .surrogate high :: .surrogate low :: rest
  | first, rest => first :: rest

/-- What follows the opening quote of a string. -/
def scanString : Text → Except JsonError (PyStr × Text)
  | [] => .error .invalid
  | '"' :: rest => .ok ([], rest)
  | '\\' :: 'u' :: a :: b :: c :: d :: rest =>
    match codeUnit [a, b, c, d] with
    | some first => (scanString rest).map fun (text, rest) => (joinUnit first text, rest)
    | none => .error .invalid
  | '\\' :: mark :: rest =>
    match simpleEscape mark with
    | some first => (scanString rest).map fun (text, rest) => (.scalar first :: text, rest)
    | none => .error .invalid
  | first :: rest =>
    if first.toNat < 0x20 then .error .invalid
    else (scanString rest).map fun (text, rest) => (.scalar first :: text, rest)

end Strings

section Numbers

def isDigit (character : Char) : Bool := '0' ≤ character && character ≤ '9'

def scanSign : Text → Text × Text
  | '-' :: rest => (['-'], rest)
  | text => ([], text)

/-- No digit follows a leading zero. -/
def scanWhole : Text → Text × Text
  | '0' :: rest => (['0'], rest)
  | text => (text.takeWhile isDigit, text.dropWhile isDigit)

def scanFraction : Text → Text × Text
  | '.' :: rest =>
    if rest.takeWhile isDigit = [] then ([], '.' :: rest) else ('.' :: rest.takeWhile isDigit, rest.dropWhile isDigit)
  | text => ([], text)

def scanExponentSign : Text → Text × Text
  | '-' :: rest => (['-'], rest)
  | '+' :: rest => (['+'], rest)
  | text => ([], text)

/-- An exponent without digits is left where it is. -/
def scanExponent : Text → Text × Text
  | mark :: text =>
    let (sign, rest) := scanExponentSign text
    if (mark = 'e' ∨ mark = 'E') ∧ rest.takeWhile isDigit ≠ [] then
      (mark :: sign ++ rest.takeWhile isDigit, rest.dropWhile isDigit)
    else ([], mark :: text)
  | [] => ([], [])

def scanNumber (interpreter : Interpreter) (text : Text) : Except JsonError (PyValue × Text) :=
  let (sign, unsigned) := scanSign text
  let (whole, afterWhole) := scanWhole unsigned
  let (fraction, afterFraction) := scanFraction afterWhole
  let (exponent, rest) := scanExponent afterFraction
  if whole = [] then .error .invalid
  else if fraction = [] ∧ exponent = [] then
    if maxStrDigits < whole.length then .error .invalid
    else
      let magnitude : Int := natOfDigits 10 whole
      .ok (.int (if sign = [] then magnitude else -magnitude), rest)
  else .ok (.float (interpreter.toFloat (sign ++ whole ++ fraction ++ exponent)), rest)

end Numbers

def constants : List (Text × PyValue) :=
  [("null".toList, .none), ("true".toList, .bool true), ("false".toList, .bool false), ("NaN".toList, .float .nan),
   ("Infinity".toList, .float (.infinite false)), ("-Infinity".toList, .float (.infinite true))]

def scanAtom (interpreter : Interpreter) (text : Text) : Except JsonError (PyValue × Text) :=
  match constants.find? fun constant => constant.1.isPrefixOf text with
  | some (word, value) => .ok (value, text.drop word.length)
  | none => scanNumber interpreter text

mutual

/-- `scan_once`; that many containers may still be entered. -/
def scanOnce (interpreter : Interpreter) : (fuel depth : Nat) → Text → Except JsonError (PyValue × Text)
  | 0, _, _ => .error .exhausted
  | fuel + 1, depth, text =>
    match text, depth with
    | '"' :: rest, _ => (scanString rest).map fun (text, rest) => (.str text, rest)
    | '{' :: _, 0 => .error (.tooDeep "object".toList)
    | '{' :: rest, depth + 1 =>
      match skipBlanks rest with
      | '}' :: rest => .ok (.dict [], rest)
      | rest => scanMembers interpreter fuel depth rest []
    | '[' :: _, 0 => .error (.tooDeep "array".toList)
    | '[' :: rest, depth + 1 =>
      match skipBlanks rest with
      | ']' :: rest => .ok (.list [], rest)
      | rest => scanElements interpreter fuel depth rest []
    | text, _ => scanAtom interpreter text

/-- The members of an object from a name on. -/
def scanMembers (interpreter : Interpreter) : (fuel depth : Nat) → Text → Fields → Except JsonError (PyValue × Text)
  | 0, _, _, _ => .error .exhausted
  | fuel + 1, depth, text, entries =>
    match text with
    | '"' :: rest => do
      let (name, rest) ← scanString rest
      match skipBlanks rest with
      | ':' :: rest => do
        let (value, rest) ← scanOnce interpreter fuel depth (skipBlanks rest)
        match skipBlanks rest with
        | '}' :: rest => .ok (.dict (dictSet entries name value), rest)
        | ',' :: rest => scanMembers interpreter fuel depth (skipBlanks rest) (dictSet entries name value)
        | _ => .error .invalid
      | _ => .error .invalid
    | _ => .error .invalid

def scanElements (interpreter : Interpreter) : (fuel depth : Nat) → Text → List PyValue → Except JsonError (PyValue × Text)
  | 0, _, _, _ => .error .exhausted
  | fuel + 1, depth, text, items => do
    let (value, rest) ← scanOnce interpreter fuel depth text
    match skipBlanks rest with
    | ']' :: rest => .ok (.list (items ++ [value]), rest)
    | ',' :: rest => scanElements interpreter fuel depth (skipBlanks rest) (items ++ [value])
    | _ => .error .invalid

end

/-- `json.loads(text)` -/
def loads (interpreter : Interpreter) (text : Text) : Except JsonError PyValue :=
  if text.head? = some '\uFEFF' then .error .invalid
  else do
    let (value, rest) ← scanOnce interpreter (2 * text.length + 1) interpreter.maxDepth (skipBlanks text)
    if skipBlanks rest = [] then .ok value else .error .invalid

/-! What is read gets shorter, so that the fuel always suffices. -/

/-- A scan that succeeds takes something, and one that fails has not run out of fuel. -/
def Settled (text : Text) (outcome : Except JsonError (α × Text)) : Prop :=
  match outcome with
  | .ok (_, rest) => rest.length < text.length
  | .error error => error ≠ .exhausted

theorem Settled.map {text : Text} {outcome : Except JsonError (α × Text)} (settled : Settled text outcome) (make : α → β) :
    Settled text (outcome.map fun (value, rest) => (make value, rest)) := by
  cases outcome with
  | ok result => exact settled
  | error error => exact settled

theorem Settled.longer {shorter text : Text} {outcome : Except JsonError (α × Text)} (settled : Settled shorter outcome)
    (longer : shorter.length ≤ text.length) : Settled text outcome := by
  cases outcome with
  | ok result => exact Nat.lt_of_lt_of_le settled longer
  | error error => exact settled

theorem Settled.bind {inner text : Text} {outcome : Except JsonError (α × Text)}
    {next : α × Text → Except JsonError (β × Text)} (settled : Settled inner outcome)
    (resume : ∀ value rest, rest.length < inner.length → Settled text (next (value, rest))) :
    Settled text (outcome >>= next) := by
  cases outcome with
  | ok result => exact resume result.1 result.2 settled
  | error error => exact settled

theorem settled_invalid (text : Text) : Settled text (.error .invalid : Except JsonError (α × Text)) := by
  intro same
  cases same

theorem skipBlanks_length (text : Text) : (skipBlanks text).length ≤ text.length :=
  (List.dropWhile_suffix _).length_le

theorem scanString_settled (text : Text) : Settled text (scanString text) := by
  fun_induction scanString text with
  | case1 => exact settled_invalid _
  | case2 rest => exact Nat.lt_succ_self _
  | case3 a b c d rest first unit ih =>
    apply (ih.map (joinUnit first)).longer
    simp only [List.length_cons]
    omega
  | case4 => exact settled_invalid _
  | case5 mark rest _ first escape ih =>
    apply (ih.map (PyChar.scalar first :: ·)).longer
    simp only [List.length_cons]
    omega
  | case6 => exact settled_invalid _
  | case7 => exact settled_invalid _
  | case8 first rest _ _ _ visible ih =>
    apply (ih.map (PyChar.scalar first :: ·)).longer
    exact Nat.le_succ _

theorem scanSign_append (text : Text) : (scanSign text).1 ++ (scanSign text).2 = text := by
  unfold scanSign
  split <;> rfl

theorem scanWhole_append (text : Text) : (scanWhole text).1 ++ (scanWhole text).2 = text := by
  unfold scanWhole
  split
  next => rfl
  next => exact List.takeWhile_append_dropWhile

theorem scanFraction_append (text : Text) : (scanFraction text).1 ++ (scanFraction text).2 = text := by
  unfold scanFraction
  split
  next rest =>
    split
    next => rfl
    next => exact congrArg ('.' :: ·) List.takeWhile_append_dropWhile
  next => rfl

theorem scanExponentSign_append (text : Text) : (scanExponentSign text).1 ++ (scanExponentSign text).2 = text := by
  unfold scanExponentSign
  split <;> rfl

theorem scanExponent_append (text : Text) : (scanExponent text).1 ++ (scanExponent text).2 = text := by
  unfold scanExponent
  split
  next mark text =>
    dsimp only
    split
    next =>
      rw [List.cons_append, List.cons_append, List.append_assoc, List.takeWhile_append_dropWhile, scanExponentSign_append]
    next => rfl
  next => rfl

theorem scanNumber_settled (interpreter : Interpreter) (text : Text) : Settled text (scanNumber interpreter text) := by
  have sign := congrArg List.length (scanSign_append text)
  have whole := congrArg List.length (scanWhole_append (scanSign text).2)
  have fraction := congrArg List.length (scanFraction_append (scanWhole (scanSign text).2).2)
  have exponent := congrArg List.length (scanExponent_append (scanFraction (scanWhole (scanSign text).2).2).2)
  simp only [List.length_append] at sign whole fraction exponent
  unfold scanNumber
  dsimp only
  split
  next => exact settled_invalid text
  next digits =>
    have some_digit : 0 < (scanWhole (scanSign text).2).1.length := List.length_pos_iff.mpr digits
    have shorter : (scanExponent (scanFraction (scanWhole (scanSign text).2).2).2).2.length < text.length := by omega
    split
    next =>
      split
      next => exact settled_invalid text
      next => exact shorter
    next => exact shorter

theorem scanAtom_settled (interpreter : Interpreter) (text : Text) : Settled text (scanAtom interpreter text) := by
  have nonempty : ∀ constant ∈ constants, constant.1 ≠ [] := by
    simp [constants]
  unfold scanAtom
  split
  next word value found =>
    have front : word <+: text := List.isPrefixOf_iff_prefix.mp (List.find?_eq_some_iff_append.mp found).1
    have word_length : 0 < word.length := List.length_pos_iff.mpr (nonempty _ (List.mem_of_find?_eq_some found))
    have text_length := front.length_le
    show (text.drop word.length).length < text.length
    rw [List.length_drop]
    omega
  next => exact scanNumber_settled interpreter text

section Fuel
variable {interpreter : Interpreter} {fuel : Nat}

def OnceSettled (interpreter : Interpreter) (fuel : Nat) : Prop :=
  ∀ depth text, 2 * text.length < fuel → Settled text (scanOnce interpreter fuel depth text)

def MembersSettled (interpreter : Interpreter) (fuel : Nat) : Prop :=
  ∀ depth text entries, 2 * text.length + 1 < fuel → Settled text (scanMembers interpreter fuel depth text entries)

def ElementsSettled (interpreter : Interpreter) (fuel : Nat) : Prop :=
  ∀ depth text items, 2 * text.length + 1 < fuel → Settled text (scanElements interpreter fuel depth text items)

theorem scanOnce_settled (members : MembersSettled interpreter fuel) (elements : ElementsSettled interpreter fuel) :
    OnceSettled interpreter (fuel + 1) := by
  intro depth text enough
  unfold scanOnce
  dsimp only
  split
  next rest => exact ((scanString_settled rest).map PyValue.str).longer (Nat.le_succ _)
  next => exact fun same => nomatch same
  next rest depth =>
    have blanks := skipBlanks_length rest
    rw [List.length_cons] at enough
    split
    next after closed =>
      rw [closed, List.length_cons] at blanks
      show after.length < rest.length + 1
      omega
    next =>
      apply (members depth (skipBlanks rest) [] (by omega)).longer
      rw [List.length_cons]
      omega
  next => exact fun same => nomatch same
  next rest depth =>
    have blanks := skipBlanks_length rest
    rw [List.length_cons] at enough
    split
    next after closed =>
      rw [closed, List.length_cons] at blanks
      show after.length < rest.length + 1
      omega
    next =>
      apply (elements depth (skipBlanks rest) [] (by omega)).longer
      rw [List.length_cons]
      omega
  next => exact scanAtom_settled interpreter text

theorem scanMembers_settled (once : OnceSettled interpreter fuel) (members : MembersSettled interpreter fuel) :
    MembersSettled interpreter (fuel + 1) := by
  intro depth text entries enough
  unfold scanMembers
  dsimp only
  split
  next rest =>
    rw [List.length_cons] at enough
    apply (scanString_settled rest).bind
    intro name afterName nameShorter
    have blanks := skipBlanks_length afterName
    dsimp only
    split
    next afterColon colon =>
      rw [colon, List.length_cons] at blanks
      have colonBlanks := skipBlanks_length afterColon
      apply (once depth (skipBlanks afterColon) (by omega)).bind
      intro value afterValue valueShorter
      have valueBlanks := skipBlanks_length afterValue
      dsimp only
      split
      next after closed =>
        rw [closed, List.length_cons] at valueBlanks
        show after.length < rest.length + 1
        omega
      next afterComma comma =>
        rw [comma, List.length_cons] at valueBlanks
        have commaBlanks := skipBlanks_length afterComma
        apply (members depth (skipBlanks afterComma) (dictSet entries name value) (by omega)).longer
        rw [List.length_cons]
        omega
      next => exact settled_invalid _
    next => exact settled_invalid _
  next => exact settled_invalid text

theorem scanElements_settled (once : OnceSettled interpreter fuel) (elements : ElementsSettled interpreter fuel) :
    ElementsSettled interpreter (fuel + 1) := by
  intro depth text items enough
  unfold scanElements
  apply (once depth text (by omega)).bind
  intro value afterValue valueShorter
  have valueBlanks := skipBlanks_length afterValue
  dsimp only
  split
  next after closed =>
    rw [closed, List.length_cons] at valueBlanks
    show after.length < text.length
    omega
  next afterComma comma =>
    rw [comma, List.length_cons] at valueBlanks
    have commaBlanks := skipBlanks_length afterComma
    apply (elements depth (skipBlanks afterComma) (items ++ [value]) (by omega)).longer
    omega
  next => exact settled_invalid text

theorem scan_settled (interpreter : Interpreter) (fuel : Nat) :
    OnceSettled interpreter fuel ∧ MembersSettled interpreter fuel ∧ ElementsSettled interpreter fuel := by
  induction fuel with
  | zero =>
    have never {count : Nat} (enough : count < 0) : False := Nat.not_lt_zero count enough
    exact ⟨fun _ _ enough => (never enough).elim, fun _ _ _ enough => (never enough).elim,
      fun _ _ _ enough => (never enough).elim⟩
  | succ fuel ih =>
    obtain ⟨once, members, elements⟩ := ih
    exact ⟨scanOnce_settled members elements, scanMembers_settled once members, scanElements_settled once elements⟩

end Fuel

theorem loads_not_exhausted (interpreter : Interpreter) (text : Text) : loads interpreter text ≠ .error .exhausted := by
  have enough : 2 * (skipBlanks text).length < 2 * text.length + 1 := by
    have blanks := skipBlanks_length text
    omega
  have settled := (scan_settled interpreter (2 * text.length + 1)).1 interpreter.maxDepth (skipBlanks text) enough
  unfold loads
  split
  next => exact fun same => nomatch same
  next =>
    cases scanned : scanOnce interpreter (2 * text.length + 1) interpreter.maxDepth (skipBlanks text) with
    | ok result =>
      show (if skipBlanks result.2 = [] then _ else _) ≠ _
      split <;> exact fun same => nomatch same
    | error error =>
      rw [scanned] at settled
      intro same
      cases same
      exact settled rfl

end Crashomon.Python.Json
