import Crashomon.Base.Utf8
import Crashomon.Web.Auth

/-! The Basic scheme over all texts. Encoding and decoding are inverse, so the check is right wherever it
compares; but the comparison takes ASCII alone, and both sides are any text. -/

namespace Crashomon.Proofs.BasicAuth
open Python Web.Auth

/-- The header of RFC 7617 for a user and a password in UTF-8. -/
def basicHeader (user password : Text) : Text := "Basic ".toList ++ Base64.encode (encodeUtf8 (user ++ ':' :: password))

/-- The bytes of the credentials in a header. -/
def payload (header : Text) : Option (List UInt8) :=
  if "Basic ".toList <+: header then Base64.b64decode (header.drop 6) else none

/-- The check returns; it accepts the header of the configured credentials, and refuses that of all others. -/
def Answers (header user password : Text) : Prop :=
  ∃ result, checkBasic header user password = .ok result ∧ (header = basicHeader user password → result = true) ∧
    ∀ otherUser otherPassword, ':' ∉ otherUser → (otherUser, otherPassword) ≠ (user, password) →
      header = basicHeader otherUser otherPassword → result = false

/-- Where credentials with a colon are decoded from the header, they and the configured ones are ASCII. -/
def Comparable (header user password : Text) : Prop :=
  ∀ bytes, payload header = some bytes → ':' ∈ decodeUtf8 bytes → IsAscii user ∧ IsAscii password ∧ ∀ byte ∈ bytes, byte.toNat < 0x80

section Decoding

theorem isAscii_decodeUtf8_iff (bytes : List UInt8) : IsAscii (decodeUtf8 bytes) ↔ ∀ byte ∈ bytes, byte.toNat < 0x80 := by
  have valid (byte : UInt8) (small : byte.toNat < 0x80) : (Char.ofNat byte.toNat).toNat = byte.toNat :=
    toNat_ofNat_valid (Or.inl (by omega))
  constructor
  · intro ascii byte member
    have plain : (decodeUtf8 bytes).all (·.toNat < 0x80) = true :=
      List.all_eq_true.mpr fun character inside => decide_eq_true (ascii character inside)
    rw [(decodeUtf8_eq_iff plain bytes).mp rfl] at member
    obtain ⟨character, inside, rfl⟩ := List.mem_map.mp member
    have small := ascii character inside
    rw [UInt8.toNat_ofNat', Nat.mod_eq_of_lt (by omega)]
    exact small
  · intro small
    have plain : (bytes.map fun byte => Char.ofNat byte.toNat).all (·.toNat < 0x80) = true := by
      apply List.all_eq_true.mpr
      intro character inside
      obtain ⟨byte, member, rfl⟩ := List.mem_map.mp inside
      rw [valid byte (small byte member)]
      exact decide_eq_true (small byte member)
    have back : bytes = (bytes.map fun byte => Char.ofNat byte.toNat).map fun character => UInt8.ofNat character.toNat := by
      rw [List.map_map]
      refine (List.map_id bytes).symm.trans (List.map_congr_left fun byte member => ?_)
      simp only [Function.comp_apply, valid byte (small byte member), UInt8.ofNat_toNat, id_eq]
    rw [(decodeUtf8_eq_iff plain bytes).mpr back]
    intro character inside
    exact of_decide_eq_true (List.all_eq_true.mp plain character inside)

theorem payload_basicHeader (user password : Text) : payload (basicHeader user password) = some (encodeUtf8 (user ++ ':' :: password)) := by
  unfold payload basicHeader
  rw [if_pos (List.prefix_append _ _)]
  exact Base64.b64decode_encode _

/-- The first colon ends the user. -/
theorem split_at_colon {user password : Text} (plain : ':' ∉ user) :
    (user ++ ':' :: password).take ((user ++ ':' :: password).idxOf ':') = user ∧
      (user ++ ':' :: password).drop ((user ++ ':' :: password).idxOf ':' + 1) = password := by
  have colon : (user ++ ':' :: password).idxOf ':' = user.length := by
    rw [List.idxOf_append_of_notMem plain, List.idxOf_cons_self, Nat.add_zero]
  rw [colon]
  exact ⟨List.take_left, by rw [← List.drop_drop, List.drop_left]; rfl⟩

theorem join_at_colon {decoded : Text} (present : ':' ∈ decoded) :
    decoded = decoded.take (decoded.idxOf ':') ++ ':' :: decoded.drop (decoded.idxOf ':' + 1) := by
  have inside := List.idxOf_lt_length_of_mem present
  have last : decoded.drop (decoded.idxOf ':') = ':' :: decoded.drop (decoded.idxOf ':' + 1) := by
    rw [List.drop_eq_getElem_cons inside, List.getElem_idxOf inside]
  rw [← last, List.take_append_drop]

end Decoding

section Check
variable {header user password : Text}

theorem checkBasic_refused (nothing : payload header = none) : checkBasic header user password = .ok false := by
  unfold payload at nothing
  unfold checkBasic
  by_cases scheme : "Basic ".toList <+: header
  · rw [if_pos scheme] at nothing
    rw [if_neg (not_not.mpr scheme), nothing]
  · exact if_pos scheme

theorem checkBasic_decoded {bytes : List UInt8} (decoded : payload header = some bytes) : checkBasic header user password =
    if ':' ∉ decodeUtf8 bytes then .ok false
    else compareDigest ((decodeUtf8 bytes).take ((decodeUtf8 bytes).idxOf ':')) user >>= fun userOk =>
      compareDigest ((decodeUtf8 bytes).drop ((decodeUtf8 bytes).idxOf ':' + 1)) password >>= fun passOk => .ok (userOk && passOk) := by
  unfold payload at decoded
  split at decoded
  next scheme =>
    rw [checkBasic, if_neg (not_not.mpr scheme), decoded]
  next => cases decoded

theorem compareDigest_ok {first second : Text} {result : Bool} (compared : compareDigest first second = .ok result) :
    IsAscii first ∧ IsAscii second := by
  unfold compareDigest at compared
  split at compared
  next ascii => exact ascii
  next => cases compared

/-- Nothing but the decoding of a header tells whose credentials it was built from. -/
theorem credentials_of_header {otherUser otherPassword : Text} {bytes : List UInt8} (plain : ':' ∉ otherUser)
    (decoded : payload header = some bytes) (built : header = basicHeader otherUser otherPassword) :
    ':' ∈ decodeUtf8 bytes ∧ (decodeUtf8 bytes).take ((decodeUtf8 bytes).idxOf ':') = otherUser ∧
      (decodeUtf8 bytes).drop ((decodeUtf8 bytes).idxOf ':' + 1) = otherPassword := by
  rw [built, payload_basicHeader] at decoded
  cases decoded
  rw [decodeUtf8_encodeUtf8]
  exact ⟨by simp, split_at_colon plain⟩

end Check

/-- For every header and configured credentials the check is right, without an exception, exactly where it compares ASCII. -/
theorem answers_iff_comparable (header user password : Text) (plain : ':' ∉ user) :
    Answers header user password ↔ Comparable header user password := by
  cases decoded : payload header with
  | none =>
    have unbuilt (otherUser otherPassword : Text) : header ≠ basicHeader otherUser otherPassword := by
      intro built
      rw [built, payload_basicHeader] at decoded
      cases decoded
    refine iff_of_true ⟨false, checkBasic_refused decoded, fun built => absurd built (unbuilt _ _), fun _ _ _ _ _ => rfl⟩ ?_
    intro bytes given
    cases decoded.symm.trans given
  | some bytes =>
    have ran := @checkBasic_decoded header user password bytes decoded
    by_cases present : ':' ∈ decodeUtf8 bytes
    · rw [if_neg (not_not.mpr present)] at ran
      have joined := join_at_colon present
      constructor
      · rintro ⟨result, checked, _⟩
        rw [ran] at checked
        obtain ⟨userOk, first, checked⟩ := Raising.bind_ok.mp checked
        obtain ⟨passOk, second, _⟩ := Raising.bind_ok.mp checked
        obtain ⟨front, userAscii⟩ := compareDigest_ok first
        obtain ⟨back, passwordAscii⟩ := compareDigest_ok second
        intro others given _
        cases decoded.symm.trans given
        refine ⟨userAscii, passwordAscii, (isAscii_decodeUtf8_iff bytes).mp ?_⟩
        rw [joined]
        exact List.forall_mem_append.mpr ⟨front, List.forall_mem_cons.mpr ⟨by decide, back⟩⟩
      · intro comparable
        obtain ⟨userAscii, passwordAscii, small⟩ := comparable bytes decoded present
        have ascii := (isAscii_decodeUtf8_iff bytes).mpr small
        have front : IsAscii ((decodeUtf8 bytes).take ((decodeUtf8 bytes).idxOf ':')) := fun character member =>
          ascii character (List.mem_of_mem_take member)
        have back : IsAscii ((decodeUtf8 bytes).drop ((decodeUtf8 bytes).idxOf ':' + 1)) := fun character member =>
          ascii character (List.mem_of_mem_drop member)
        rw [compareDigest, if_pos ⟨front, userAscii⟩, compareDigest, if_pos ⟨back, passwordAscii⟩, Raising.value_bind,
          Raising.value_bind] at ran
        refine ⟨_, ran, fun built => ?_, fun otherUser otherPassword otherPlain differs built => ?_⟩
        · obtain ⟨_, sameUser, samePassword⟩ := credentials_of_header plain decoded built
          simp [sameUser, samePassword]
        · obtain ⟨_, sameUser, samePassword⟩ := credentials_of_header otherPlain decoded built
          rw [sameUser, samePassword]
          simpa [Prod.mk.injEq] using differs
    · rw [if_pos present] at ran
      refine iff_of_true ⟨false, ran, fun built => ?_, fun _ _ _ _ _ => rfl⟩ ?_
      · exact absurd (credentials_of_header plain decoded built).1 present
      · intro others given colon
        cases decoded.symm.trans given
        exact absurd colon present

theorem admin_answered : Answers (basicHeader "admin".toList "hunter2".toList) "admin".toList "hunter2".toList := by
  apply (answers_iff_comparable _ _ _ (by decide)).mpr
  intro bytes given _
  rw [payload_basicHeader] at given
  cases given
  exact ⟨by decide, by decide, (isAscii_decodeUtf8_iff _).mp (by decide)⟩

/-- A visitor whose password is not ASCII meets an exception, as does everyone where the configured one is not. -/
theorem accents_raise :
    checkBasic (basicHeader "admin".toList "hünter".toList) "admin".toList "hunter2".toList = .error .typeError ∧
    checkBasic (basicHeader "admin".toList "hünter".toList) "admin".toList "hünter".toList = .error .typeError ∧
    ¬ ∀ header user password, user ≠ [] → password ≠ [] → ':' ∉ user → Answers header user password := by
  have raised : checkBasic (basicHeader "admin".toList "hünter".toList) "admin".toList "hünter".toList = .error .typeError := by
    decide +kernel
  refine ⟨by decide +kernel, raised, fun all => ?_⟩
  obtain ⟨result, checked, _⟩ := all (basicHeader "admin".toList "hünter".toList) "admin".toList "hünter".toList (by decide) (by decide) (by decide)
  cases raised.symm.trans checked

end Crashomon.Proofs.BasicAuth
