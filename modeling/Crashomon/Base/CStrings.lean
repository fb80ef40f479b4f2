import Crashomon.Base.Memory
import Crashomon.Base.Text

/-! Text that ends at a NUL, read from checked memory one byte after the other. -/

namespace Crashomon.CStrings
open Bytes Memory

def strnlen (buf : Buffer) : (off limit : Nat) → Checked Nat
  | _, 0 => .ok 0
  | off, limit + 1 => do
    let byte ← loadByte buf off
    if byte = 0 then .ok 0
    else do
      let rest ← strnlen buf (off + 1) limit
      .ok (rest + 1)

/-- `strcmp(text, word) == 0`. Reading ends at the first difference, or at the NUL of both. -/
def equals (buf : Buffer) : (off : Nat) → (word : ByteString) → Checked Bool
  | off, [] => do
    let byte ← loadByte buf off
    .ok (byte = 0)
  | off, character :: word => do
    let byte ← loadByte buf off
    if byte = character then equals buf (off + 1) word else .ok false

variable {before text rest : Buffer} {word : ByteString}

theorem loadByte_at (before : Buffer) (byte : UInt8) (rest : Buffer) : loadByte (before ++ byte :: rest) before.length = .ok byte := by
  rw [loadByte_ok, List.getElem?_append_right (Nat.le_refl _), Nat.sub_self]
  rfl

theorem load_at (before bytes rest : Buffer) : load (before ++ (bytes ++ rest)) before.length bytes.length = .ok bytes := by
  have inside : before.length + bytes.length ≤ (before ++ (bytes ++ rest)).length := by
    rw [List.length_append, List.length_append]
    omega
  rw [load_inside inside, slice, List.drop_left, List.take_left]

/-- The memory from the second byte on. -/
theorem next_byte (before : Buffer) (byte : UInt8) (rest : Buffer) :
    before ++ byte :: rest = before ++ [byte] ++ rest ∧ before.length + 1 = (before ++ [byte]).length := by
  rw [List.append_assoc, List.length_append]
  exact ⟨rfl, rfl⟩

theorem strnlen_text (plain : 0 ∉ text) (before rest : Buffer) (nuls : Nat) :
    strnlen (before ++ (text ++ (List.replicate nuls 0 ++ rest))) before.length (text.length + nuls) = .ok text.length := by
  induction text generalizing before with
  | nil =>
    rw [List.length_nil, Nat.zero_add]
    cases nuls with
    | zero => rfl
    | succ nuls =>
      rw [strnlen, List.replicate_succ, List.nil_append, List.cons_append, loadByte_at, ok_bind, if_pos rfl]
  | cons byte text ih =>
    have first : byte ≠ 0 := Ne.symm (List.ne_of_not_mem_cons plain)
    obtain ⟨memory, place⟩ := next_byte before byte (text ++ (List.replicate nuls 0 ++ rest))
    rw [List.length_cons, Nat.add_right_comm, strnlen, List.cons_append, loadByte_at, ok_bind, if_neg first, memory, place,
      ih (List.not_mem_of_not_mem_cons plain), ok_bind]

theorem equals_text (plain : 0 ∉ text) (clean : 0 ∉ word) (before rest : Buffer) :
    equals (before ++ (text ++ 0 :: rest)) before.length word = .ok (decide (text = word)) := by
  induction word generalizing before text with
  | nil =>
    cases text with
    | nil => rw [equals, List.nil_append, loadByte_at, ok_bind, decide_eq_true rfl, decide_eq_true rfl]
    | cons byte text =>
      have first : byte ≠ 0 := Ne.symm (List.ne_of_not_mem_cons plain)
      rw [equals, List.cons_append, loadByte_at, ok_bind, decide_eq_false first, decide_eq_false (List.cons_ne_nil byte text)]
  | cons character word ih =>
    have wanted : (0 : UInt8) ≠ character := List.ne_of_not_mem_cons clean
    cases text with
    | nil =>
      rw [equals, List.nil_append, loadByte_at, ok_bind, if_neg wanted, decide_eq_false (List.cons_ne_nil character word).symm]
    | cons byte text =>
      rw [equals, List.cons_append, loadByte_at, ok_bind]
      by_cases same : byte = character
      · obtain ⟨memory, place⟩ := next_byte before byte (text ++ 0 :: rest)
        rw [if_pos same, memory, place, ih (List.not_mem_of_not_mem_cons plain) (List.not_mem_of_not_mem_cons clean), same]
        simp
      · have other : byte :: text ≠ character :: word := fun equal => same (List.head_eq_of_cons_eq equal)
        rw [if_neg same, decide_eq_false other]

end Crashomon.CStrings
