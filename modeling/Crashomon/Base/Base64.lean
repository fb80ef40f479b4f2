import Crashomon.Base.Text

/-! Base64 with the standard alphabet: the encoding with its padding, and the decoder of Python's
binascii, which passes over characters that are not in the alphabet. -/

namespace Crashomon.Base64

def alphabet : Text := "ABCDEFGHIJKLMNOPQRSTUVWXYZabcdefghijklmnopqrstuvwxyz0123456789+/".toList

def digit (bits : Nat) : Char := alphabet.getD bits 'A'

def sextet (character : Char) : Option Nat :=
  if alphabet.idxOf character < 64 then some (alphabet.idxOf character) else none

def encode : List UInt8 → Text
  | [] => []
  | [a] => [digit (a.toNat / 4), digit (a.toNat % 4 * 16), '=', '=']
  | [a, b] => [digit (a.toNat / 4), digit (a.toNat % 4 * 16 + b.toNat / 16), digit (b.toNat % 16 * 4), '=']
  | a :: b :: c :: rest =>
    digit (a.toNat / 4) :: digit (a.toNat % 4 * 16 + b.toNat / 16) :: digit (b.toNat % 16 * 4 + c.toNat / 64) :: digit (c.toNat % 64) ::
      encode rest

/-- The loop of `a2b_base64`: the place in a group of four, the bits left over and the padding seen since the last digit. -/
def decodeFrom : Text → (quadPos leftchar pads : Nat) → Option (List UInt8)
  | [], quadPos, _, _ => if quadPos = 0 then some [] else none
  | character :: rest, quadPos, leftchar, pads =>
    if character = '=' then
      if quadPos < 2 then decodeFrom rest quadPos leftchar pads
      else if 4 ≤ quadPos + (pads + 1) then some []
      else decodeFrom rest quadPos leftchar (pads + 1)
    else match sextet character with
      | none => decodeFrom rest quadPos leftchar pads
      | some bits =>
        match quadPos with
        | 0 => decodeFrom rest 1 bits 0
        | 1 => (decodeFrom rest 2 (bits % 16) 0).map (UInt8.ofNat (leftchar * 4 + bits / 16) :: ·)
        | 2 => (decodeFrom rest 3 (bits % 4) 0).map (UInt8.ofNat (leftchar * 16 + bits / 4) :: ·)
        | _ => (decodeFrom rest 0 0 0).map (UInt8.ofNat (leftchar * 64 + bits) :: ·)

/-- `base64.b64decode(text)`; nothing where it raises. -/
def b64decode (text : Text) : Option (List UInt8) :=
  if text.all (·.toNat < 0x80) then decodeFrom text 0 0 0 else none

section RoundTrip
variable {bits leftchar pads : Nat} {rest : Text}

attribute [local simp] encode decodeFrom

theorem digit_facts : ∀ bits < 64, digit bits ≠ '=' ∧ sextet (digit bits) = some bits ∧ (digit bits).toNat < 0x80 := by decide +kernel

theorem decodeFrom_first (small : bits < 64) : decodeFrom (digit bits :: rest) 0 leftchar pads = decodeFrom rest 1 bits 0 := by
  obtain ⟨plain, value, _⟩ := digit_facts bits small
  simp only [decodeFrom, if_neg plain, value]

theorem decodeFrom_second (small : bits < 64) : decodeFrom (digit bits :: rest) 1 leftchar pads =
    (decodeFrom rest 2 (bits % 16) 0).map (UInt8.ofNat (leftchar * 4 + bits / 16) :: ·) := by
  obtain ⟨plain, value, _⟩ := digit_facts bits small
  simp only [decodeFrom, if_neg plain, value]

theorem decodeFrom_third (small : bits < 64) : decodeFrom (digit bits :: rest) 2 leftchar pads =
    (decodeFrom rest 3 (bits % 4) 0).map (UInt8.ofNat (leftchar * 16 + bits / 4) :: ·) := by
  obtain ⟨plain, value, _⟩ := digit_facts bits small
  simp only [decodeFrom, if_neg plain, value]

theorem decodeFrom_fourth (small : bits < 64) : decodeFrom (digit bits :: rest) 3 leftchar pads =
    (decodeFrom rest 0 0 0).map (UInt8.ofNat (leftchar * 64 + bits) :: ·) := by
  obtain ⟨plain, value, _⟩ := digit_facts bits small
  simp only [decodeFrom, if_neg plain, value]

theorem byte_of_bits {byte : UInt8} {value : Nat} (same : value = byte.toNat) : UInt8.ofNat value = byte := by
  rw [same, UInt8.ofNat_toNat]

theorem decodeFrom_encode (bytes : List UInt8) : decodeFrom (encode bytes) 0 0 0 = some bytes := by
  induction bytes using encode.induct with
  | case1 => rfl
  | case2 a =>
    have top := a.toNat_lt
    rw [encode, decodeFrom_first (by omega), decodeFrom_second (by omega), @byte_of_bits a _ (by omega)]
    rfl
  | case3 a b =>
    have top := a.toNat_lt
    have middle := b.toNat_lt
    rw [encode, decodeFrom_first (by omega), decodeFrom_second (by omega), decodeFrom_third (by omega),
      @byte_of_bits a _ (by omega), @byte_of_bits b _ (by omega)]
    rfl
  | case4 a b c rest ih =>
    have top := a.toNat_lt
    have middle := b.toNat_lt
    have low := c.toNat_lt
    rw [encode, decodeFrom_first (by omega), decodeFrom_second (by omega), decodeFrom_third (by omega), decodeFrom_fourth (by omega),
      @byte_of_bits a _ (by omega), @byte_of_bits b _ (by omega), @byte_of_bits c _ (by omega), ih]
    rfl

theorem encode_ascii (bytes : List UInt8) : ∀ character ∈ encode bytes, character.toNat < 0x80 := by
  have pad : '='.toNat < 0x80 := by decide
  induction bytes using encode.induct with
  | case1 => exact List.forall_mem_nil _
  | case2 a =>
    have top := a.toNat_lt
    simp only [encode, List.forall_mem_cons]
    exact ⟨(digit_facts _ (by omega)).2.2, (digit_facts _ (by omega)).2.2, pad, pad, List.forall_mem_nil _⟩
  | case3 a b =>
    have top := a.toNat_lt
    have middle := b.toNat_lt
    simp only [encode, List.forall_mem_cons]
    exact ⟨(digit_facts _ (by omega)).2.2, (digit_facts _ (by omega)).2.2, (digit_facts _ (by omega)).2.2, pad, List.forall_mem_nil _⟩
  | case4 a b c rest ih =>
    have top := a.toNat_lt
    have middle := b.toNat_lt
    have low := c.toNat_lt
    simp only [encode, List.forall_mem_cons]
    exact ⟨(digit_facts _ (by omega)).2.2, (digit_facts _ (by omega)).2.2, (digit_facts _ (by omega)).2.2, (digit_facts _ (by omega)).2.2, ih⟩

theorem b64decode_encode (bytes : List UInt8) : b64decode (encode bytes) = some bytes := by
  have all : (encode bytes).all (·.toNat < 0x80) = true :=
    List.all_eq_true.mpr fun character member => decide_eq_true (encode_ascii bytes character member)
  rw [b64decode, if_pos all, decodeFrom_encode]

end RoundTrip

end Crashomon.Base64
