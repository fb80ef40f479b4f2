import Crashomon.Base.Bytes
import Crashomon.Base.Raising
import Crashomon.Base.Text

/-! What the Python programs take from their standard library: exceptions, the
struct module, the decoding of UTF-8 and UTF-16, dictionaries. -/

namespace Crashomon.Python
open Bytes

inductive PyException where
  | structError
  | valueError (message : String)
  | osError (message : String)
  deriving DecidableEq, Repr

abbrev Raises (α : Type) := Except PyException α

/-- An exception by its class; a handler of RuntimeError prints the message. -/
inductive Raised where
  | runtimeError (message : Text)
  | attributeError
  | indexError
  | keyError
  | osError
  | overflowError
  | structError
  | typeError
  | unicodeError
  | valueError
  deriving DecidableEq, Repr

@[simp] theorem ok_bind (value : α) (next : α → Raises β) : ((.ok value : Raises α) >>= next) = next value := rfl

/-- `struct.unpack_from("<I", data, off)`. -/
def unpackFrom (data : Buffer) (off : Nat) : Raises Nat :=
  if off + 4 ≤ data.length then .ok (word data off) else .error .structError

/-- One field of `struct.unpack_from`, `width` bytes of it. -/
def unpackUnsigned (data : Buffer) (off width : Nat) : Raises Nat :=
  if off + width ≤ data.length then .ok (unsignedAt data off width) else .error .structError

/-- `struct.pack_into("<I", data, off, value)`. -/
def packInto (data : Buffer) (off value : Nat) : Raises Buffer :=
  if off + 4 ≤ data.length ∧ value < 2 ^ 32 then .ok (overwrite data off (le32 value)) else .error .structError

theorem unpackFrom_inside {data : Buffer} {off : Nat} (inside : off + 4 ≤ data.length) :
    unpackFrom data off = .ok (word data off) :=
  if_pos inside

theorem unpackUnsigned_inside {data : Buffer} {off width : Nat} (inside : off + width ≤ data.length) :
    unpackUnsigned data off width = .ok (unsignedAt data off width) :=
  if_pos inside

theorem inside_of_unpackUnsigned {data : Buffer} {off width value : Nat} (read : unpackUnsigned data off width = .ok value) :
    off + width ≤ data.length := by
  unfold unpackUnsigned at read
  split at read
  next inside => exact inside
  next => cases read

theorem packInto_inside {data : Buffer} {off value : Nat} (inside : off + 4 ≤ data.length) (small : value < 2 ^ 32) :
    packInto data off value = .ok (overwrite data off (le32 value)) :=
  if_pos ⟨inside, small⟩

theorem overwrite_of_packInto {data packed : Buffer} {off value : Nat} (ran : packInto data off value = .ok packed) :
    packed = overwrite data off (le32 value) := by
  unfold packInto at ran
  split at ran
  next => exact (Except.ok.inj ran).symm
  next => cases ran

/-- `bytes.decode("utf-16-le", errors="replace")`. A lone surrogate is replaced
by itself; a high one at the very end takes a stray last byte with it. -/
def decodeUtf16le : List UInt8 → Text
  | [] => []
  | [_] => ['\uFFFD']
  | lo :: hi :: rest =>
    let ch := lo.toNat ||| hi.toNat <<< 8
    if ch < 0xD800 ∨ 0xE000 ≤ ch then Char.ofNat ch :: decodeUtf16le rest
    else if 0xDC00 ≤ ch then '\uFFFD' :: decodeUtf16le rest
    else match rest with
      | lo2 :: hi2 :: later =>
        let low := lo2.toNat ||| hi2.toNat <<< 8
        if 0xDC00 ≤ low ∧ low < 0xE000 then
          Char.ofNat (0x10000 + (ch - 0xD800) * 0x400 + (low - 0xDC00)) :: decodeUtf16le later
        else '\uFFFD' :: decodeUtf16le (lo2 :: hi2 :: later)
      | _ => ['\uFFFD']

theorem decodeUtf16le_basic {lo hi : UInt8} {rest : List UInt8} (basic : lo.toNat ||| hi.toNat <<< 8 < 0xD800) :
    decodeUtf16le (lo :: hi :: rest) = Char.ofNat (lo.toNat ||| hi.toNat <<< 8) :: decodeUtf16le rest := by
  match rest with
  | [] | [_] | _ :: _ :: _ => simp only [decodeUtf16le, basic, true_or, if_true]

def IsContinuation (byte : UInt8) : Prop := 0x80 ≤ byte.toNat ∧ byte.toNat < 0xC0

instance (byte : UInt8) : Decidable (IsContinuation byte) := inferInstanceAs (Decidable (_ ∧ _))

/-- The second bytes that exclude overlong forms, surrogates and values past the last code point. -/
def IsSecond (lead second : UInt8) : Prop :=
  IsContinuation second ∧ (lead.toNat = 0xE0 → 0xA0 ≤ second.toNat) ∧ (lead.toNat = 0xED → second.toNat < 0xA0) ∧
    (lead.toNat = 0xF0 → 0x90 ≤ second.toNat) ∧ (lead.toNat = 0xF4 → second.toNat < 0x90)

instance (lead second : UInt8) : Decidable (IsSecond lead second) := inferInstanceAs (Decidable (_ ∧ _ ∧ _ ∧ _ ∧ _))

def tailBits (byte : UInt8) : Nat := byte.toNat - 0x80

/-- The character that begins with `lead` and the number of bytes after it that
belong to it. A malformed or cut-off character is replaced as far as it is valid. -/
def decodeChar (lead : UInt8) (rest : List UInt8) : Char × Nat :=
  let bits := lead.toNat
  if bits < 0x80 then (Char.ofNat bits, 0)
  else if bits < 0xC2 ∨ 0xF5 ≤ bits then ('\uFFFD', 0)
  else match rest with
    | [] => ('\uFFFD', 0)
    | first :: rest =>
      if ¬ IsSecond lead first then ('\uFFFD', 0)
      else if bits < 0xE0 then (Char.ofNat ((bits - 0xC0) * 64 + tailBits first), 1)
      else match rest with
        | [] => ('\uFFFD', 1)
        | second :: rest =>
          if ¬ IsContinuation second then ('\uFFFD', 1)
          else if bits < 0xF0 then (Char.ofNat ((bits - 0xE0) * 4096 + tailBits first * 64 + tailBits second), 2)
          else match rest with
            | [] => ('\uFFFD', 2)
            | third :: _ =>
              if ¬ IsContinuation third then ('\uFFFD', 2)
              else (Char.ofNat ((bits - 0xF0) * 262144 + tailBits first * 4096 + tailBits second * 64 + tailBits third), 3)

def decodeUtf8From : (fuel : Nat) → List UInt8 → Text
  | 0, _ => []
  | _, [] => []
  | fuel + 1, lead :: rest =>
    (decodeChar lead rest).1 :: decodeUtf8From fuel (rest.drop (decodeChar lead rest).2)

/-- `bytes.decode("utf-8", errors="replace")`. Each character takes at least one byte. -/
def decodeUtf8 (bytes : List UInt8) : Text := decodeUtf8From bytes.length bytes

theorem toNat_ofNat_valid {value : Nat} (valid : value.isValidChar) : (Char.ofNat value).toNat = value := by
  unfold Char.ofNat
  rw [dif_pos valid]
  rfl

theorem decodeChar_small {lead : UInt8} {rest : List UInt8} (small : (decodeChar lead rest).1.toNat < 0x80) :
    lead.toNat < 0x80 := by
  have replaced : ¬ '\uFFFD'.toNat < 0x80 := by decide
  have wide {value : Nat} (large : 0x80 ≤ value) (valid : value < 0xD800 ∨ 0xDFFF < value ∧ value < 0x110000) :
      ¬ (Char.ofNat value).toNat < 0x80 := by
    rw [toNat_ofNat_valid valid]
    exact Nat.not_lt.mpr large
  unfold decodeChar at small
  simp only at small
  split at small
  next ascii => exact ascii
  next high =>
    exfalso
    split at small
    next => exact replaced small
    next leads =>
      split at small
      next => exact replaced small
      next first rest =>
        split at small
        next => exact replaced small
        next seconds =>
          obtain ⟨⟨low, top⟩, e0, ed, f0, f4⟩ := not_not.mp seconds
          split at small
          next two =>
            dsimp only at small
            refine wide ?_ ?_ small <;> unfold tailBits <;> omega
          next three =>
            split at small
            next => exact replaced small
            next second rest =>
              split at small
              next => exact replaced small
              next thirds =>
                obtain ⟨low', top'⟩ := not_not.mp thirds
                split at small
                next =>
                  dsimp only at small
                  refine wide ?_ ?_ small <;> unfold tailBits <;> omega
                next four =>
                  split at small
                  next => exact replaced small
                  next third rest =>
                    split at small
                    next => exact replaced small
                    next fourths =>
                      obtain ⟨low'', top''⟩ := not_not.mp fourths
                      dsimp only at small
                      refine wide ?_ ?_ small <;> unfold tailBits <;> omega

theorem decodeChar_ascii {lead : UInt8} (small : lead.toNat < 0x80) (rest : List UInt8) :
    decodeChar lead rest = (Char.ofNat lead.toNat, 0) := by
  unfold decodeChar
  exact if_pos small

private theorem decodeUtf8From_eq_iff {text : Text} (plain : ∀ character ∈ text, character.toNat < 0x80) :
    ∀ {fuel : Nat} {bytes : List UInt8}, bytes.length ≤ fuel →
      (decodeUtf8From fuel bytes = text ↔ bytes = text.map fun character => UInt8.ofNat character.toNat) := by
  induction text with
  | nil =>
    intro fuel bytes enough
    match fuel, bytes with
    | 0, [] | _ + 1, [] => simp [decodeUtf8From]
    | 0, _ :: _ => simp at enough
    | _ + 1, _ :: _ => simp [decodeUtf8From]
  | cons character text ih =>
    intro fuel bytes enough
    obtain ⟨first, later⟩ := List.forall_mem_cons.mp plain
    match fuel, bytes with
    | 0, [] | _ + 1, [] => simp [decodeUtf8From]
    | 0, _ :: _ => simp at enough
    | fuel + 1, lead :: rest =>
      rw [decodeUtf8From, List.map_cons, List.cons.injEq, List.cons.injEq]
      constructor
      · intro ⟨same, others⟩
        have small : lead.toNat < 0x80 := decodeChar_small (same ▸ first)
        rw [decodeChar_ascii small] at same others
        have valid : lead.toNat.isValidChar := Or.inl (by omega)
        refine ⟨?_, (ih later (Nat.le_of_succ_le_succ enough)).mp others⟩
        rw [← same, toNat_ofNat_valid valid, UInt8.ofNat_toNat]
      · intro ⟨same, others⟩
        have value : lead.toNat = character.toNat := by
          rw [same, UInt8.toNat_ofNat', Nat.mod_eq_of_lt (by omega)]
        rw [decodeChar_ascii (value ▸ first), value, Char.ofNat_toNat]
        exact ⟨rfl, (ih later (Nat.le_of_succ_le_succ enough)).mpr others⟩

/-- A byte string decodes to a given ASCII text only where it is that text. -/
theorem decodeUtf8_eq_iff {text : Text} (plain : text.all (·.toNat < 0x80)) (bytes : List UInt8) :
    decodeUtf8 bytes = text ↔ bytes = text.map fun character => UInt8.ofNat character.toNat :=
  decodeUtf8From_eq_iff (fun character member => of_decide_eq_true (List.all_eq_true.mp plain character member))
    (Nat.le_refl _)

def dictSet [DecidableEq α] : List (α × β) → α → β → List (α × β)
  | [], key, value => [(key, value)]
  | (name, old) :: dict, key, value =>
    if name = key then (key, value) :: dict else (name, old) :: dictSet dict key value

theorem lookup_dictSet [BEq α] [LawfulBEq α] [DecidableEq α] (dict : List (α × β)) (key other : α) (value : β) :
    (dictSet dict key value).lookup other = if other = key then some value else dict.lookup other := by
  induction dict with
  | nil => by_cases found : other = key <;> simp [dictSet, found]
  | cons entry dict ih =>
    obtain ⟨name, old⟩ := entry
    rw [dictSet]
    by_cases found : other = name
    · subst found
      split
      next here => simp [here]
      next => simp
    · have differs : (other == name) = false := beq_false_of_ne found
      split
      next here => simp [List.lookup_cons, differs, ← here, found]
      next elsewhere => simp [List.lookup_cons, differs, ih]

end Crashomon.Python
