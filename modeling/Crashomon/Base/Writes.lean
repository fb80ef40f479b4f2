import Crashomon.Base.Bytes

/-! Runs of writes into one buffer. Where writes overlap, the last one decides. -/

namespace Crashomon.Bytes

structure Write where
  offset : Nat
  bytes : List UInt8
  deriving DecidableEq, Repr

def Write.Inside (write : Write) (length : Nat) : Prop := write.offset + write.bytes.length ≤ length

instance (write : Write) (length : Nat) : Decidable (write.Inside length) := inferInstanceAs (Decidable (_ ≤ _))

def applyWrites (buf : Buffer) (writes : List Write) : Buffer :=
  writes.foldl (fun buf write => overwrite buf write.offset write.bytes) buf

/-- The byte that a write puts at an index. -/
def Write.byteAt (write : Write) (k : Nat) : Option UInt8 :=
  if write.offset ≤ k then write.bytes[k - write.offset]? else none

/-- The byte that the last of the writes to an index puts there. -/
def lastByte : List Write → (k : Nat) → Option UInt8
  | [], _ => none
  | write :: writes, k => (lastByte writes k).or (write.byteAt k)

/-- The bytes are left at their offset by the writes. -/
def Left (writes : List Write) (offset : Nat) (bytes : List UInt8) : Prop :=
  ∀ i < bytes.length, lastByte writes (offset + i) = bytes[i]?

instance (writes : List Write) (offset : Nat) (bytes : List UInt8) : Decidable (Left writes offset bytes) :=
  inferInstanceAs (Decidable (∀ i < bytes.length, _))

section Writes
variable {buf : Buffer} {write : Write} {writes : List Write} {offset k : Nat} {bytes : List UInt8}

theorem getElem?_overwrite (inside : write.Inside buf.length) (k : Nat) :
    (overwrite buf write.offset write.bytes)[k]? = (write.byteAt k).or buf[k]? := by
  unfold Write.byteAt
  by_cases after : write.offset ≤ k
  · rw [if_pos after]
    by_cases before : k < write.offset + write.bytes.length
    · have held : k - write.offset < write.bytes.length := by omega
      rw [getElem?_overwrite_inside inside after before, List.getElem?_eq_getElem held, Option.some_or]
    · have beyond : write.bytes[k - write.offset]? = none := List.getElem?_eq_none (by omega)
      rw [getElem?_overwrite_outside inside (Or.inr (by omega)), beyond, Option.none_or]
  · rw [if_neg after, getElem?_overwrite_outside inside (Or.inl (by omega)), Option.none_or]

theorem applyWrites_append (buf : Buffer) (writes later : List Write) :
    applyWrites buf (writes ++ later) = applyWrites (applyWrites buf writes) later := List.foldl_append

theorem length_applyWrites (inside : ∀ write ∈ writes, write.Inside buf.length) : (applyWrites buf writes).length = buf.length := by
  induction writes generalizing buf with
  | nil => rfl
  | cons write writes ih =>
    obtain ⟨first, later⟩ := List.forall_mem_cons.mp inside
    have kept := length_overwrite first
    rw [applyWrites, List.foldl_cons, ← kept]
    exact ih (kept ▸ later)

theorem getElem?_applyWrites (inside : ∀ write ∈ writes, write.Inside buf.length) (k : Nat) :
    (applyWrites buf writes)[k]? = (lastByte writes k).or buf[k]? := by
  induction writes generalizing buf with
  | nil => rfl
  | cons write writes ih =>
    obtain ⟨first, later⟩ := List.forall_mem_cons.mp inside
    have kept := length_overwrite first
    rw [applyWrites, List.foldl_cons, lastByte, Option.or_assoc, ← getElem?_overwrite first]
    exact ih (kept ▸ later)

theorem lastByte_isSome (member : write ∈ writes) (after : write.offset ≤ k) (before : k < write.offset + write.bytes.length) :
    (lastByte writes k).isSome := by
  induction writes with
  | nil => exact absurd member List.not_mem_nil
  | cons other writes ih =>
    rw [lastByte, Option.isSome_or, Bool.or_eq_true]
    rcases List.mem_cons.mp member with rfl | later
    · right
      rw [Write.byteAt, if_pos after, List.getElem?_eq_getElem (by omega), Option.isSome_some]
    · exact Or.inl (ih later)

/-- What a run of writes leaves at some offset, where each of the bytes there is written. -/
theorem slice_applyWrites_iff (inside : ∀ write ∈ writes, write.Inside buf.length)
    (written : ∀ i < bytes.length, (lastByte writes (offset + i)).isSome) :
    slice (applyWrites buf writes) offset bytes.length = bytes ↔ Left writes offset bytes := by
  have read (i : Nat) (within : i < bytes.length) :
      (slice (applyWrites buf writes) offset bytes.length)[i]? = lastByte writes (offset + i) := by
    obtain ⟨byte, last⟩ := Option.isSome_iff_exists.mp (written i within)
    rw [getElem?_slice, if_pos within, getElem?_applyWrites inside, last, Option.some_or]
  constructor
  · intro same i within
    rw [← read i within, same]
  · intro left
    apply List.ext_getElem?
    intro i
    by_cases within : i < bytes.length
    · rw [read i within, left i within]
    · rw [getElem?_slice, if_neg within, List.getElem?_eq_none (by omega)]

end Writes

end Crashomon.Bytes
