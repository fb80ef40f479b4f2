import Crashomon.Daemon.MinidumpPatcher

/-! What each function of the patcher does, in closed form. The guarded word
accesses never fault, so only the units of a name and the copy of a build ID
can leave the buffer. -/

namespace Crashomon.Proofs.PatcherSteps
open Bytes Memory Daemon.MinidumpPatcher

def getU32 (buf : Buffer) (off : Nat) : Nat := if off + 4 > buf.length then 0 else word buf off

theorem readU32_eq (buf : Buffer) (off : Nat) : readU32 buf off = .ok (getU32 buf off) := by
  unfold readU32 getU32
  split
  next => rfl
  next inside => rw [load_inside (by omega)]; rfl

theorem getU32_inside {buf : Buffer} {off : Nat} (inside : off + 4 ≤ buf.length) : getU32 buf off = word buf off :=
  if_neg (by omega)

theorem getU32_lt (buf : Buffer) (off : Nat) : getU32 buf off < 2 ^ 32 := by
  unfold getU32
  split
  next => decide
  next => exact word_lt buf off

theorem inside_of_getU32_ne_zero {buf : Buffer} {off : Nat} (nonzero : getU32 buf off ≠ 0) : off + 4 ≤ buf.length := by
  unfold getU32 at nonzero
  split at nonzero
  next => exact absurd rfl nonzero
  next => omega

theorem writeU32_inside {buf : Buffer} {off val : Nat} (inside : off + 4 ≤ buf.length) :
    writeU32 buf off val = .ok (overwrite buf off (le32 val)) := by
  rw [writeU32, if_neg (by omega), store_inside inside]

theorem writeU32_outside {buf : Buffer} {off val : Nat} (outside : buf.length < off + 4) :
    writeU32 buf off val = .ok buf :=
  if_pos outside

theorem safe_writeU32 (buf : Buffer) (off val : Nat) :
    ∃ next, writeU32 buf off val = .ok next ∧ next.length = buf.length := by
  by_cases inside : off + 4 ≤ buf.length
  · exact ⟨_, writeU32_inside inside, length_overwrite inside⟩
  · exact ⟨buf, writeU32_outside (by omega), rfl⟩

/-- The characters the ASCII fast path keeps of a run of UTF-16LE bytes. -/
def asciiUnits : List UInt8 → Text
  | lo :: hi :: rest =>
    let ch := lo.toNat ||| hi.toNat <<< 8
    (if ch < 128 ∧ ch ≠ 0 then [Char.ofNat ch] else []) ++ asciiUnits rest
  | _ => []

private theorem slice_two {buf : Buffer} {off length : Nat} (inside : off + 1 < buf.length) :
    slice buf off (length + 2) = buf[off] :: buf[off + 1] :: slice buf (off + 2) length := by
  have first : buf.drop off = buf[off] :: buf.drop (off + 1) := List.drop_eq_getElem_cons (by omega)
  have second : buf.drop (off + 1) = buf[off + 1] :: buf.drop (off + 2) := List.drop_eq_getElem_cons inside
  rw [slice, first, second, List.take_succ_cons, List.take_succ_cons, slice]

/-- Where no index wraps, the loop decodes exactly the bytes of the name. -/
theorem readModuleNameUnits_eq {buf : Buffer} {rva units i : Nat} {path : Text}
    (small : rva + 4 + i + 2 * units ≤ 2 ^ 32) (inside : rva + 4 + i + 2 * units ≤ buf.length) :
    readModuleNameUnits buf rva units i path =
      .ok (path ++ asciiUnits (slice buf (rva + 4 + i) (2 * units))) := by
  induction units generalizing i path with
  | zero => simp [readModuleNameUnits, slice, asciiUnits]
  | succ units ih =>
    have split : slice buf (rva + 4 + i) (2 * (units + 1)) =
        buf[rva + 4 + i] :: buf[rva + 4 + i + 1] :: slice buf (rva + 4 + (i + 2)) (2 * units) :=
      slice_two (by omega)
    rw [readModuleNameUnits, u32_of_lt (by omega), u32_of_lt (by omega), loadByte_inside (by omega),
      loadByte_inside (by omega), ok_bind, ok_bind, ih (by omega) (by omega), split, asciiUnits]
    split
    next => simp
    next => simp

theorem safe_readModuleNameUnits {buf : Buffer} {rva units i : Nat} {path : Text} :
    Safe (readModuleNameUnits buf rva units i path) ↔ ∀ j < 2 * units, u32 (rva + 4 + i + j) < buf.length := by
  induction units generalizing i path with
  | zero => simp [readModuleNameUnits]
  | succ units ih =>
    rw [readModuleNameUnits, safe_bind]
    constructor
    · rintro ⟨lo, first, rest⟩ j inside
      obtain ⟨hi, second, rest⟩ := safe_bind.mp rest
      have rest := ih.mp rest
      match j with
      | 0 => exact safe_loadByte.mp ⟨lo, first⟩
      | 1 => exact safe_loadByte.mp ⟨hi, second⟩
      | j + 2 =>
        have later := rest j (by omega)
        rwa [show rva + 4 + (i + 2) + j = rva + 4 + i + (j + 2) by omega] at later
    · intro inside
      obtain ⟨lo, first⟩ := safe_loadByte.mpr (inside 0 (by omega))
      obtain ⟨hi, second⟩ := safe_loadByte.mpr (inside 1 (by omega))
      refine ⟨lo, first, safe_bind.mpr ⟨hi, second, ih.mpr fun j within => ?_⟩⟩
      have later := inside (j + 2) (by omega)
      rwa [show rva + 4 + i + (j + 2) = rva + 4 + (i + 2) + j by omega] at later

structure NameRead (buf : Buffer) (rva : Nat) : Prop where
  present : rva ≠ 0
  header : u32 (rva + 4) ≤ buf.length
  nonempty : getU32 buf rva ≠ 0
  even : getU32 buf rva % 2 = 0
  fits : u32 (rva + 4 + getU32 buf rva) ≤ buf.length

theorem readModuleName_guarded {buf : Buffer} {rva : Nat} (guarded : NameRead buf rva) :
    readModuleName buf rva = readModuleNameUnits buf rva (getU32 buf rva / 2) 0 [] := by
  have first : ¬ (rva = 0 ∨ u32 (rva + 4) > buf.length) := by
    have present := guarded.present
    have header := guarded.header
    omega
  have second : ¬ (getU32 buf rva = 0 ∨ getU32 buf rva % 2 ≠ 0 ∨ u32 (rva + 4 + getU32 buf rva) > buf.length) := by
    have nonempty := guarded.nonempty
    have even := guarded.even
    have fits := guarded.fits
    omega
  rw [readModuleName, if_neg first, readU32_eq, ok_bind, if_neg second]

theorem readModuleName_skipped {buf : Buffer} {rva : Nat} (skipped : ¬ NameRead buf rva) :
    readModuleName buf rva = .ok [] := by
  unfold readModuleName
  split
  next => rfl
  next header =>
    rw [readU32_eq, ok_bind]
    split
    next => rfl
    next body =>
      exact absurd ⟨by omega, by omega, by omega, by omega, by omega⟩ skipped

/-- A name whose guard was formed without wrapping is read from its own bytes. -/
theorem readModuleName_straight {buf : Buffer} {rva : Nat} (guarded : NameRead buf rva)
    (straight : rva + 4 + getU32 buf rva ≤ 2 ^ 32) (inside : rva + 4 + getU32 buf rva ≤ buf.length) :
    readModuleName buf rva = .ok (asciiUnits (slice buf (rva + 4) (getU32 buf rva))) := by
  have even := guarded.even
  have halves : 2 * (getU32 buf rva / 2) = getU32 buf rva := by omega
  rw [readModuleName_guarded guarded, readModuleNameUnits_eq (by omega) (by omega), halves]
  rfl

def nameRva (buf : Buffer) (off : Nat) : Nat := getU32 buf (off + kModNameRvaOff)
def cvSize (buf : Buffer) (off : Nat) : Nat := getU32 buf (off + kModCvDataSizeOff)
def cvRva (buf : Buffer) (off : Nat) : Nat := getU32 buf (off + kModCvRvaOff)

theorem readU32_nameRva (buf : Buffer) (off : Nat) : readU32 buf (off + kModNameRvaOff) = .ok (nameRva buf off) :=
  readU32_eq ..
theorem readU32_cvSize (buf : Buffer) (off : Nat) : readU32 buf (off + kModCvDataSizeOff) = .ok (cvSize buf off) :=
  readU32_eq ..
theorem readU32_cvRva (buf : Buffer) (off : Nat) : readU32 buf (off + kModCvRvaOff) = .ok (cvRva buf off) :=
  readU32_eq ..

/-- The guards on a record's CodeView location, before its name is read. -/
structure Considered (buf : Buffer) (off : Nat) : Prop where
  present : cvRva buf off ≠ 0
  large : 4 + kXorHashSize ≤ cvSize buf off
  fits : u32 (cvRva buf off + cvSize buf off) ≤ buf.length
  unsigned : getU32 buf (cvRva buf off) ≠ kBpElSignature

/-- The build ID that replaces a record of `size` bytes, where there is one. -/
def chosenId (elf : ElfLookup) (path : Text) (size : Nat) : Option (List UInt8) :=
  if path = [] then none
  else if elf path = [] then none
  else if size < u32 (4 + u32 (elf path).length) then none
  else some (elf path)

def replaceRecord (buf : Buffer) (off cv : Nat) (buildId : List UInt8) : Checked (Option Buffer) := do
  let signed ← writeU32 buf cv kBpElSignature
  let named ← store signed (cv + 4) buildId
  let sized ← writeU32 named (off + kModCvDataSizeOff) (u32 (4 + u32 buildId.length))
  .ok (some sized)

theorem patchModule_skipped {elf : ElfLookup} {buf : Buffer} {off : Nat} (skipped : ¬ Considered buf off) :
    patchModule elf buf off = .ok none := by
  rw [patchModule, readU32_nameRva, ok_bind, readU32_cvSize, ok_bind, readU32_cvRva, ok_bind]
  split
  next => rfl
  next location =>
    split
    next => rfl
    next range =>
      rw [readU32_eq, ok_bind]
      split
      next => rfl
      next unsigned =>
        refine absurd ⟨?_, ?_, ?_, unsigned⟩ skipped
        · exact fun absent => location (.inl absent)
        · exact Nat.le_of_not_lt fun small => location (.inr small)
        · exact Nat.le_of_not_lt range

theorem patchModule_considered {elf : ElfLookup} {buf : Buffer} {off : Nat} (considered : Considered buf off) :
    patchModule elf buf off = (readModuleName buf (nameRva buf off) >>= fun path =>
      match chosenId elf path (cvSize buf off) with
      | none => .ok none
      | some buildId => replaceRecord buf off (cvRva buf off) buildId) := by
  have location : ¬ (cvRva buf off = 0 ∨ cvSize buf off < 4 + kXorHashSize) := by
    have present := considered.present
    have large := considered.large
    omega
  rw [patchModule, readU32_nameRva, ok_bind, readU32_cvSize, ok_bind, readU32_cvRva, ok_bind,
    if_neg location, if_neg (Nat.not_lt.mpr considered.fits), readU32_eq, ok_bind, if_neg considered.unsigned]
  congr 1
  funext path
  by_cases unnamed : path = []
  · simp only [chosenId, unnamed, if_true]
  · by_cases absent : elf path = []
    · simp only [chosenId, unnamed, absent, if_true, if_false]
    · by_cases small : cvSize buf off < u32 (4 + u32 (elf path).length)
      · simp only [chosenId, unnamed, absent, small, if_true, if_false]
      · simp only [chosenId, unnamed, absent, small, if_false, replaceRecord]

end Crashomon.Proofs.PatcherSteps
