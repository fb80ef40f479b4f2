import Crashomon.Base.Python

/-! Decoding what UTF-16LE encodes gives the text back. -/

namespace Crashomon.Python

/-- The two bytes of a code unit. -/
def unit16 (value : Nat) : List UInt8 := [UInt8.ofNat value, UInt8.ofNat (value / 2 ^ 8)]

def encodeUtf16Char (character : Char) : List UInt8 :=
  if character.toNat < 0x10000 then unit16 character.toNat
  else
    unit16 (0xD800 + (character.toNat - 0x10000) / 0x400) ++ unit16 (0xDC00 + (character.toNat - 0x10000) % 0x400)

def encodeUtf16le (text : Text) : List UInt8 := text.flatMap encodeUtf16Char

theorem unit16_value {value : Nat} (small : value < 0x10000) :
    (UInt8.ofNat value).toNat ||| (UInt8.ofNat (value / 2 ^ 8)).toNat <<< 8 = value := by
  have low : (UInt8.ofNat value).toNat < 2 ^ 8 := UInt8.toNat_lt _
  rw [Nat.or_comm, ← Nat.shiftLeft_add_eq_or_of_lt low, Nat.shiftLeft_eq, UInt8.toNat_ofNat', UInt8.toNat_ofNat']
  omega

theorem decodeUtf16le_unit {value : Nat} (small : value < 0x10000) (basic : value < 0xD800 ∨ 0xE000 ≤ value)
    (rest : List UInt8) : decodeUtf16le (unit16 value ++ rest) = Char.ofNat value :: decodeUtf16le rest := by
  have same := unit16_value small
  match rest with
  | [] | [_] | _ :: _ :: _ => simp only [unit16, List.cons_append, List.nil_append, decodeUtf16le, same, basic, if_true]

theorem decodeUtf16le_pair {high low : Nat} (highRange : 0xD800 ≤ high ∧ high < 0xDC00) (lowRange : 0xDC00 ≤ low ∧ low < 0xE000)
    (rest : List UInt8) : decodeUtf16le (unit16 high ++ (unit16 low ++ rest)) =
      Char.ofNat (0x10000 + (high - 0xD800) * 0x400 + (low - 0xDC00)) :: decodeUtf16le rest := by
  have first := @unit16_value high (by omega)
  have second := @unit16_value low (by omega)
  have surrogate : ¬ (high < 0xD800 ∨ 0xE000 ≤ high) := by omega
  have leading : ¬ 0xDC00 ≤ high := by omega
  simp only [unit16, List.cons_append, List.nil_append, decodeUtf16le, first, second, surrogate, leading, lowRange, and_self,
    if_true, if_false]

theorem decodeUtf16le_char (character : Char) (rest : List UInt8) :
    decodeUtf16le (encodeUtf16Char character ++ rest) = character :: decodeUtf16le rest := by
  have valid : character.toNat < 0xD800 ∨ 0xDFFF < character.toNat ∧ character.toNat < 0x110000 := character.valid
  rw [encodeUtf16Char]
  split
  next small => rw [decodeUtf16le_unit small (by omega), Char.ofNat_toNat]
  next large =>
    have whole : 0x10000 + (0xD800 + (character.toNat - 0x10000) / 0x400 - 0xD800) * 0x400 +
        (0xDC00 + (character.toNat - 0x10000) % 0x400 - 0xDC00) = character.toNat := by omega
    rw [List.append_assoc, decodeUtf16le_pair (by omega) (by omega), whole, Char.ofNat_toNat]

theorem decodeUtf16le_encodeUtf16le (text : Text) : decodeUtf16le (encodeUtf16le text) = text := by
  induction text with
  | nil => rfl
  | cons character text ih =>
    rw [encodeUtf16le, List.flatMap_cons, decodeUtf16le_char]
    exact congrArg (character :: ·) ih

end Crashomon.Python
