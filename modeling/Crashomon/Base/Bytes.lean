import Mathlib.Algebra.Order.Ring.Nat
import Mathlib.Data.List.Basic
import Mathlib.Data.List.TakeDrop

/-! Byte buffers: ranges, little-endian 32-bit words and overwriting. Offsets
are natural numbers; only `u32` wraps, so a sum that a program forms in a 32-bit
register is visibly different from the exact one. -/

namespace Crashomon.Bytes

abbrev Buffer := List UInt8

/-- The value an unsigned 32-bit register holds for an exact result. -/
def u32 (value : Nat) : Nat := value % 2 ^ 32

theorem u32_of_lt {value : Nat} (small : value < 2 ^ 32) : u32 value = value :=
  Nat.mod_eq_of_lt small

theorem u32_lt (value : Nat) : u32 value < 2 ^ 32 := Nat.mod_lt _ (by decide)

theorem u32_le (value : Nat) : u32 value ≤ value := Nat.mod_le _ _

def InRange (k start length : Nat) : Prop := start ≤ k ∧ k < start + length

/-- The two ranges share no position. An empty range is apart from every other. -/
def Apart (start length other size : Nat) : Prop := ∀ k, InRange k start length → ¬ InRange k other size

theorem apart_iff {start length other size : Nat} :
    Apart start length other size ↔ length = 0 ∨ size = 0 ∨ start + length ≤ other ∨ other + size ≤ start := by
  constructor
  · intro apart
    have first := apart start
    have second := apart other
    unfold InRange at first second
    omega
  · intro separate k within shared
    unfold InRange at within shared
    omega

instance (start length other size : Nat) : Decidable (Apart start length other size) :=
  decidable_of_iff _ apart_iff.symm

/-- The bytes of a range, clipped to the end of the buffer. -/
def slice (buf : Buffer) (offset length : Nat) : List UInt8 := (buf.drop offset).take length

theorem length_slice {buf : Buffer} {offset length : Nat} (inside : offset + length ≤ buf.length) :
    (slice buf offset length).length = length := by
  simp only [slice, List.length_take, List.length_drop]
  omega

theorem getElem?_slice (buf : Buffer) (offset length i : Nat) :
    (slice buf offset length)[i]? = if i < length then buf[offset + i]? else none := by
  simp only [slice, List.getElem?_take, List.getElem?_drop]

theorem slice_congr {first second : Buffer} {offset length : Nat}
    (same : ∀ i, offset ≤ i → i < offset + length → first[i]? = second[i]?) :
    slice first offset length = slice second offset length := by
  apply List.ext_getElem?
  intro i
  rw [getElem?_slice, getElem?_slice]
  split
  next inside => exact same _ (by omega) (by omega)
  next => rfl

def leValue : List UInt8 → Nat
  | [] => 0
  | byte :: rest => byte.toNat + 256 * leValue rest

/-- The unsigned value of `width` bytes at an offset, as far as the buffer has them. -/
def unsignedAt (buf : Buffer) (offset width : Nat) : Nat := leValue (slice buf offset width)

def le32 (value : Nat) : List UInt8 :=
  [UInt8.ofNat value, UInt8.ofNat (value / 2 ^ 8), UInt8.ofNat (value / 2 ^ 16), UInt8.ofNat (value / 2 ^ 24)]

@[simp] theorem length_le32 (value : Nat) : (le32 value).length = 4 := rfl

theorem leValue_le32 {value : Nat} (small : value < 2 ^ 32) : leValue (le32 value) = value := by
  simp only [le32, leValue, UInt8.toNat_ofNat']
  omega

theorem leValue_lt (bytes : List UInt8) : leValue bytes < 256 ^ bytes.length := by
  induction bytes with
  | nil => simp [leValue]
  | cons byte rest ih =>
    have small := byte.toNat_lt
    simp only [leValue, List.length_cons, Nat.pow_succ]
    omega

/-- The little-endian word at an offset; meaningful when its four bytes are in the buffer. -/
def word (buf : Buffer) (offset : Nat) : Nat := leValue (slice buf offset 4)

theorem word_lt (buf : Buffer) (offset : Nat) : word buf offset < 2 ^ 32 := by
  have bound := leValue_lt (slice buf offset 4)
  have short : (slice buf offset 4).length ≤ 4 := by simp only [slice, List.length_take]; omega
  calc word buf offset < 256 ^ (slice buf offset 4).length := bound
    _ ≤ 256 ^ 4 := Nat.pow_le_pow_right (by decide) short
    _ = 2 ^ 32 := by decide

theorem word_congr {first second : Buffer} {offset : Nat}
    (same : ∀ i, offset ≤ i → i < offset + 4 → first[i]? = second[i]?) :
    word first offset = word second offset :=
  congrArg leValue (slice_congr same)

/-- Replace the range that starts at `offset` and is as long as `bytes`. Past the
end of the buffer this grows it, as assigning to a slice does in some languages. -/
def overwrite (buf : Buffer) (offset : Nat) (bytes : List UInt8) : Buffer :=
  buf.take offset ++ bytes ++ buf.drop (offset + bytes.length)

variable {buf : Buffer} {offset : Nat} {bytes : List UInt8}

theorem length_overwrite (inside : offset + bytes.length ≤ buf.length) :
    (overwrite buf offset bytes).length = buf.length := by
  simp only [overwrite, List.length_append, List.length_take, List.length_drop]
  omega

theorem getElem?_overwrite_inside (inside : offset + bytes.length ≤ buf.length) {i : Nat}
    (after : offset ≤ i) (before : i < offset + bytes.length) :
    (overwrite buf offset bytes)[i]? = bytes[i - offset]? := by
  have front : (buf.take offset).length = offset := by simp only [List.length_take]; omega
  rw [overwrite, List.getElem?_append_left (by simp only [List.length_append, front]; omega),
    List.getElem?_append_right (by omega), front]

theorem getElem?_overwrite_outside (inside : offset + bytes.length ≤ buf.length) {i : Nat}
    (outside : i < offset ∨ offset + bytes.length ≤ i) :
    (overwrite buf offset bytes)[i]? = buf[i]? := by
  have front : (buf.take offset).length = offset := by simp only [List.length_take]; omega
  rcases outside with before | after
  · rw [overwrite, List.append_assoc, List.getElem?_append_left (by omega), List.getElem?_take_of_lt before]
  · rw [overwrite, List.getElem?_append_right (by simp only [List.length_append, front]; omega),
      List.getElem?_drop, List.length_append, front]
    congr 1
    omega

theorem slice_overwrite_self (inside : offset + bytes.length ≤ buf.length) :
    slice (overwrite buf offset bytes) offset bytes.length = bytes := by
  apply List.ext_getElem?
  intro i
  rw [getElem?_slice]
  split
  next within => rw [getElem?_overwrite_inside inside (by omega) (by omega), Nat.add_sub_cancel_left]
  next beyond => exact (List.getElem?_eq_none (by omega)).symm

theorem slice_overwrite_disjoint (inside : offset + bytes.length ≤ buf.length) {other length : Nat}
    (apart : other + length ≤ offset ∨ offset + bytes.length ≤ other) :
    slice (overwrite buf offset bytes) other length = slice buf other length :=
  slice_congr fun i _ _ => getElem?_overwrite_outside inside (by omega)

theorem word_overwrite_self (inside : offset + 4 ≤ buf.length) {value : Nat} (small : value < 2 ^ 32) :
    word (overwrite buf offset (le32 value)) offset = value := by
  have written : slice (overwrite buf offset (le32 value)) offset 4 = le32 value := slice_overwrite_self inside
  rw [word, written, leValue_le32 small]

theorem word_overwrite_disjoint (inside : offset + bytes.length ≤ buf.length) {other : Nat}
    (apart : other + 4 ≤ offset ∨ offset + bytes.length ≤ other) :
    word (overwrite buf offset bytes) other = word buf other :=
  congrArg leValue (slice_overwrite_disjoint inside apart)

end Crashomon.Bytes
