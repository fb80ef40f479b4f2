import Crashomon.Base.Python

/-! Decoding what UTF-8 encodes gives the text back. -/

namespace Crashomon.Python

def encodeUtf8 (text : Text) : List UInt8 := text.flatMap String.utf8EncodeChar

private theorem toNat_byte {value : Nat} (small : value < 256) : (UInt8.ofNat value).toNat = value := by
  rw [UInt8.toNat_ofNat', Nat.mod_eq_of_lt small]

private theorem isContinuation_byte (bits : Nat) : IsContinuation (UInt8.ofNat (bits % 0x40 + 0x80)) := by
  unfold IsContinuation
  rw [toNat_byte (by omega)]
  omega

private theorem tailBits_byte (bits : Nat) : tailBits (UInt8.ofNat (bits % 0x40 + 0x80)) = bits % 0x40 := by
  unfold tailBits
  rw [toNat_byte (by omega), Nat.add_sub_cancel]

private theorem ofNat_of_eq {value : Nat} {character : Char} (same : value = character.toNat) : Char.ofNat value = character := by
  rw [same, Char.ofNat_toNat]

/-- The bytes of a character are read as that character, whatever follows them. -/
theorem decodeChar_utf8EncodeChar (character : Char) (rest : List UInt8) :
    ∃ lead tail, String.utf8EncodeChar character = lead :: tail ∧ decodeChar lead (tail ++ rest) = (character, tail.length) := by
  have valid : character.toNat < 0xD800 ∨ 0xDFFF < character.toNat ∧ character.toNat < 0x110000 := character.valid
  have value : character.val.toNat = character.toNat := rfl
  unfold String.utf8EncodeChar
  simp only [value]
  by_cases one : character.toNat ≤ 0x7F
  · refine ⟨_, [], if_pos one, ?_⟩
    have lead := @toNat_byte character.toNat (by omega)
    rw [decodeChar_ascii (by omega), lead, Char.ofNat_toNat]
    rfl
  by_cases two : character.toNat ≤ 0x7FF
  · refine ⟨_, [_], by rw [if_neg one, if_pos two], ?_⟩
    have lead := @toNat_byte (character.toNat / 64 % 0x20 + 0xC0) (by omega)
    have second : IsSecond (UInt8.ofNat (character.toNat / 64 % 0x20 + 0xC0)) (UInt8.ofNat (character.toNat % 0x40 + 0x80)) := by
      refine ⟨isContinuation_byte _, ?_, ?_, ?_, ?_⟩ <;> intro same <;> omega
    simp only [decodeChar, lead, List.cons_append, List.nil_append]
    rw [if_neg (by omega), if_neg (by omega), if_neg (not_not.mpr second), if_pos (by omega), tailBits_byte,
      @ofNat_of_eq _ character (by omega)]
    rfl
  by_cases three : character.toNat ≤ 0xFFFF
  · refine ⟨_, [_, _], by rw [if_neg one, if_neg two, if_pos three], ?_⟩
    have lead := @toNat_byte (character.toNat / 4096 % 0x10 + 0xE0) (by omega)
    have next := @toNat_byte (character.toNat / 64 % 0x40 + 0x80) (by omega)
    have second : IsSecond (UInt8.ofNat (character.toNat / 4096 % 0x10 + 0xE0))
        (UInt8.ofNat (character.toNat / 64 % 0x40 + 0x80)) := by
      refine ⟨isContinuation_byte _, ?_, ?_, ?_, ?_⟩ <;> intro same <;> omega
    simp only [decodeChar, lead, List.cons_append, List.nil_append]
    rw [if_neg (by omega), if_neg (by omega), if_neg (not_not.mpr second), if_neg (by omega),
      if_neg (not_not.mpr (isContinuation_byte _)), if_pos (by omega), tailBits_byte, tailBits_byte, @ofNat_of_eq _ character (by omega)]
    rfl
  · refine ⟨_, [_, _, _], by rw [if_neg one, if_neg two, if_neg three], ?_⟩
    have lead := @toNat_byte (character.toNat / 262144 % 0x08 + 0xF0) (by omega)
    have next := @toNat_byte (character.toNat / 4096 % 0x40 + 0x80) (by omega)
    have second : IsSecond (UInt8.ofNat (character.toNat / 262144 % 0x08 + 0xF0))
        (UInt8.ofNat (character.toNat / 4096 % 0x40 + 0x80)) := by
      refine ⟨isContinuation_byte _, ?_, ?_, ?_, ?_⟩ <;> intro same <;> omega
    simp only [decodeChar, lead, List.cons_append, List.nil_append]
    rw [if_neg (by omega), if_neg (by omega), if_neg (not_not.mpr second), if_neg (by omega),
      if_neg (not_not.mpr (isContinuation_byte _)), if_neg (by omega), if_neg (not_not.mpr (isContinuation_byte _)),
      tailBits_byte, tailBits_byte, tailBits_byte, @ofNat_of_eq _ character (by omega)]
    rfl

private theorem decodeUtf8From_encodeUtf8 (text : Text) :
    ∀ {fuel : Nat}, (encodeUtf8 text).length ≤ fuel → decodeUtf8From fuel (encodeUtf8 text) = text := by
  induction text with
  | nil =>
    intro fuel _
    cases fuel <;> rfl
  | cons character text ih =>
    intro fuel enough
    obtain ⟨lead, tail, bytes, read⟩ := decodeChar_utf8EncodeChar character (encodeUtf8 text)
    have whole : encodeUtf8 (character :: text) = lead :: (tail ++ encodeUtf8 text) := by
      rw [encodeUtf8, List.flatMap_cons, bytes, List.cons_append]
      rfl
    rw [whole] at enough ⊢
    cases fuel with
    | zero => exact absurd enough (Nat.not_succ_le_zero _)
    | succ fuel =>
      rw [decodeUtf8From, read, List.drop_left]
      rw [ih]
      rw [List.length_cons, List.length_append] at enough
      omega

theorem decodeUtf8_encodeUtf8 (text : Text) : decodeUtf8 (encodeUtf8 text) = text :=
  decodeUtf8From_encodeUtf8 text (Nat.le_refl _)

theorem encodeUtf8_injective {first second : Text} (same : encodeUtf8 first = encodeUtf8 second) : first = second := by
  rw [← decodeUtf8_encodeUtf8 first, same, decodeUtf8_encodeUtf8]

end Crashomon.Python
