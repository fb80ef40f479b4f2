import Crashomon.Proofs.PatcherSteps

/-! Memory safety of the patcher. Its guards form 32-bit sums, so a record can
pass them and still reach past the buffer. The run stays inside exactly when no
record it comes to has a sum that wraps in one of the two places that matter:
the end of a name and the end of a CodeView record. -/

namespace Crashomon.Proofs.PatcherBounds
open Bytes Memory Daemon.MinidumpPatcher PatcherSteps

/-- The end of a name that is read was formed without wrapping, unless every
32-bit index is inside the buffer anyway. -/
def NameStraight (buf : Buffer) (rva : Nat) : Prop :=
  NameRead buf rva → buf.length < 2 ^ 32 → rva + 4 + getU32 buf rva < 2 ^ 32

theorem safe_readModuleName {buf : Buffer} {rva : Nat} : Safe (readModuleName buf rva) ↔ NameStraight buf rva := by
  by_cases guarded : NameRead buf rva
  · have header := inside_of_getU32_ne_zero guarded.nonempty
    have even := guarded.even
    have fits := guarded.fits
    rw [readModuleName_guarded guarded, safe_readModuleNameUnits]
    constructor
    · intro inside _ small
      by_contra wraps
      -- The index just past the last byte is among those the wrapped loop reads.
      have beyond := inside (buf.length - (rva + 4)) (by omega)
      rw [u32_of_lt (by omega)] at beyond
      omega
    · intro straight j within
      by_cases small : buf.length < 2 ^ 32
      · have exact_end := straight guarded small
        rw [u32_of_lt exact_end] at fits
        rw [u32_of_lt (by omega)]
        omega
      · have bound := u32_lt (rva + 4 + 0 + j)
        omega
  · rw [readModuleName_skipped guarded]
    exact ⟨fun _ guards => absurd guards guarded, fun _ => ⟨[], rfl⟩⟩

/-- The copied build ID ends inside the buffer: because no guard wrapped, or all the same. -/
def CopyStraight (buf : Buffer) (off : Nat) (buildId : List UInt8) : Prop :=
  (cvRva buf off + cvSize buf off < 2 ^ 32 ∧ 4 + buildId.length < 2 ^ 32) ∨
    cvRva buf off + 4 + buildId.length ≤ buf.length

theorem safe_replaceRecord {buf : Buffer} {off cv : Nat} {buildId : List UInt8} :
    Safe (replaceRecord buf off cv buildId) ↔ cv + 4 + buildId.length ≤ buf.length := by
  obtain ⟨signed, first, same⟩ := safe_writeU32 buf cv kBpElSignature
  rw [replaceRecord, first, ok_bind, safe_bind]
  constructor
  · rintro ⟨named, copied, _⟩
    have inside := safe_store.mp ⟨named, copied⟩
    omega
  · intro inside
    obtain ⟨named, copied⟩ := safe_store.mpr (show cv + 4 + buildId.length ≤ signed.length by omega)
    obtain ⟨sized, last, _⟩ := safe_writeU32 named (off + kModCvDataSizeOff) (u32 (4 + u32 buildId.length))
    exact ⟨named, copied, by rw [last]; simp⟩

theorem chosenId_fits {elf : ElfLookup} {path : Text} {size : Nat} {buildId : List UInt8}
    (chosen : chosenId elf path size = some buildId) : u32 (4 + u32 buildId.length) ≤ size := by
  unfold chosenId at chosen
  split at chosen
  next => cases chosen
  next =>
    split at chosen
    next => cases chosen
    next =>
      split at chosen
      next => cases chosen
      next large =>
        cases chosen
        omega

theorem copy_inside_iff {elf : ElfLookup} {buf : Buffer} {off : Nat} {path : Text} {buildId : List UInt8}
    (considered : Considered buf off) (chosen : chosenId elf path (cvSize buf off) = some buildId) :
    cvRva buf off + 4 + buildId.length ≤ buf.length ↔ CopyStraight buf off buildId := by
  constructor
  · exact Or.inr
  · rintro (⟨range, short⟩ | inside)
    · have fits := considered.fits
      have large := chosenId_fits chosen
      rw [u32_of_lt range] at fits
      rw [u32_of_lt (show buildId.length < 2 ^ 32 by omega), u32_of_lt short] at large
      omega
    · exact inside

/-- No sum wraps on the way through the record at `off`. -/
def RecordStraight (elf : ElfLookup) (buf : Buffer) (off : Nat) : Prop :=
  Considered buf off → NameStraight buf (nameRva buf off) ∧
    ∀ path buildId, readModuleName buf (nameRva buf off) = .ok path →
      chosenId elf path (cvSize buf off) = some buildId → CopyStraight buf off buildId

theorem safe_patchModule {elf : ElfLookup} {buf : Buffer} {off : Nat} :
    Safe (patchModule elf buf off) ↔ RecordStraight elf buf off := by
  by_cases considered : Considered buf off
  · rw [patchModule_considered considered, safe_bind]
    constructor
    · intro ⟨path, named, rest⟩ _
      refine ⟨safe_readModuleName.mp ⟨path, named⟩, fun other buildId again chosen => ?_⟩
      rw [named] at again
      cases again
      rw [chosen] at rest
      exact (copy_inside_iff considered chosen).mp (safe_replaceRecord.mp rest)
    · intro straight
      obtain ⟨name, copy⟩ := straight considered
      obtain ⟨path, named⟩ := safe_readModuleName.mpr name
      refine ⟨path, named, ?_⟩
      cases chosen : chosenId elf path (cvSize buf off) with
      | none => exact ⟨none, rfl⟩
      | some buildId =>
        exact safe_replaceRecord.mpr ((copy_inside_iff considered chosen).mpr (copy path buildId named chosen))
  · rw [patchModule_skipped considered]
    exact ⟨fun _ guards => absurd guards considered, fun _ => ⟨none, rfl⟩⟩

theorem length_replaceRecord {buf next : Buffer} {off cv : Nat} {buildId : List UInt8}
    (replaced : replaceRecord buf off cv buildId = .ok (some next)) : next.length = buf.length := by
  obtain ⟨signed, first, same⟩ := safe_writeU32 buf cv kBpElSignature
  rw [replaceRecord, first, ok_bind] at replaced
  obtain ⟨named, copied, rest⟩ := bind_ok.mp replaced
  have inside := safe_store.mp ⟨named, copied⟩
  rw [store_inside inside] at copied
  cases copied
  obtain ⟨sized, last, kept⟩ :=
    safe_writeU32 (overwrite signed (cv + 4) buildId) (off + kModCvDataSizeOff) (u32 (4 + u32 buildId.length))
  rw [last, ok_bind] at rest
  cases rest
  rw [kept, length_overwrite inside, same]

theorem length_patchModule {elf : ElfLookup} {buf next : Buffer} {off : Nat}
    (patched : patchModule elf buf off = .ok (some next)) : next.length = buf.length := by
  by_cases considered : Considered buf off
  · rw [patchModule_considered considered] at patched
    obtain ⟨path, named, rest⟩ := bind_ok.mp patched
    cases chosen : chosenId elf path (cvSize buf off) with
    | none => simp [chosen] at rest
    | some buildId =>
      rw [chosen] at rest
      exact length_replaceRecord rest
  · rw [patchModule_skipped considered] at patched
    cases patched

theorem length_step {elf : ElfLookup} {buf : Buffer} {off : Nat} {step : Option Buffer}
    (ended : patchModule elf buf off = .ok step) : (step.getD buf).length = buf.length := by
  cases step with
  | none => rfl
  | some next => exact length_patchModule ended

theorem patchModules_step {elf : ElfLookup} {streamRva i patched remaining : Nat} {buf : Buffer} {step : Option Buffer}
    (inside : modOff streamRva i + kModuleSize ≤ buf.length)
    (ended : patchModule elf buf (modOff streamRva i) = .ok step) :
    patchModules elf streamRva (remaining + 1) i buf patched =
      patchModules elf streamRva remaining (i + 1) (step.getD buf) (patched + step.toList.length) := by
  rw [patchModules, if_neg (by omega), ended, ok_bind]
  cases step <;> rfl

theorem patchModules_break {elf : ElfLookup} {streamRva i patched remaining : Nat} {buf : Buffer}
    (outside : buf.length < modOff streamRva i + kModuleSize) :
    patchModules elf streamRva remaining i buf patched = .ok (buf, patched) := by
  cases remaining with
  | zero => rfl
  | succ remaining => rw [patchModules, if_pos outside]

theorem safe_turn {elf : ElfLookup} {streamRva i patched remaining : Nat} {buf : Buffer}
    (inside : modOff streamRva i + kModuleSize ≤ buf.length)
    (safe : Safe (patchModules elf streamRva (remaining + 1) i buf patched)) :
    ∃ step, patchModule elf buf (modOff streamRva i) = .ok step := by
  rw [patchModules, if_neg (by omega)] at safe
  obtain ⟨step, ended, _⟩ := safe_bind.mp safe
  exact ⟨step, ended⟩

/-- The buffer as the loop finds it before record `i + j`, when it is at record `i` now. -/
def Reaches (elf : ElfLookup) (streamRva i : Nat) (buf : Buffer) (patched j : Nat) (before : Buffer) : Prop :=
  ∃ count, patchModules elf streamRva j i buf patched = .ok (before, count)

/-- The loop is safe exactly when every record it comes to is straight in the
buffer that the earlier records leave. -/
theorem safe_patchModules {elf : ElfLookup} {streamRva remaining i patched : Nat} {buf : Buffer} :
    Safe (patchModules elf streamRva remaining i buf patched) ↔
      ∀ j < remaining, modOff streamRva (i + j) + kModuleSize ≤ buf.length →
        ∀ before, Reaches elf streamRva i buf patched j before →
          RecordStraight elf before (modOff streamRva (i + j)) := by
  induction remaining generalizing i buf patched with
  | zero => simp [patchModules]
  | succ remaining ih =>
    by_cases inside : modOff streamRva i + kModuleSize ≤ buf.length
    · constructor
      · intro safe j within bound before ⟨count, reached⟩
        obtain ⟨step, ended⟩ := safe_turn inside safe
        rw [patchModules_step inside ended] at safe
        cases j with
        | zero =>
          cases reached
          exact safe_patchModule.mp ⟨step, ended⟩
        | succ j =>
          rw [patchModules_step inside ended] at reached
          rw [show i + (j + 1) = i + 1 + j by omega] at bound ⊢
          exact ih.mp safe j (by omega) (by rwa [length_step ended]) before ⟨count, reached⟩
      · intro straight
        obtain ⟨step, ended⟩ := safe_patchModule.mpr (straight 0 (by omega) inside buf ⟨patched, rfl⟩)
        rw [Nat.add_zero] at ended
        rw [patchModules_step inside ended]
        refine ih.mpr fun j within bound before ⟨count, reached⟩ => ?_
        rw [length_step ended] at bound
        rw [show i + 1 + j = i + (j + 1) by omega] at bound ⊢
        exact straight (j + 1) (by omega) bound before ⟨count, by rw [patchModules_step inside ended, reached]⟩
    · rw [patchModules_break (by omega)]
      simp only [safe_ok, true_iff]
      intro j within bound
      -- Record offsets only grow, so no later record is inside either.
      unfold modOff at inside bound
      rw [Nat.add_mul] at bound
      omega

/-- The buffer holds a module list at `streamRva` of `count` records that the patcher walks. -/
structure ModuleList (buf : Buffer) (streamRva count : Nat) : Prop where
  header : 32 ≤ buf.length
  signature : getU32 buf 0 = kMdmpSignature
  directory : findModuleStream buf (getU32 buf 12) (getU32 buf 8) 0 = .ok streamRva
  present : streamRva ≠ 0
  fits : u32 (streamRva + 4) ≤ buf.length
  records : getU32 buf streamRva = count
  bounded : count ≤ 4096

theorem findModuleStream_total (buf : Buffer) (dirRva remaining i : Nat) :
    ∃ streamRva, findModuleStream buf dirRva remaining i = .ok streamRva := by
  induction remaining generalizing i with
  | zero => exact ⟨0, rfl⟩
  | succ remaining ih =>
    simp only [findModuleStream, readU32_eq, ok_bind]
    split
    next => exact ⟨0, rfl⟩
    next =>
      split
      next => exact ⟨_, rfl⟩
      next => exact ih (i + 1)

theorem patchLoaded_list {elf : ElfLookup} {buf : Buffer} {streamRva count : Nat}
    (list : ModuleList buf streamRva count) :
    patchLoaded elf buf = (patchModules elf streamRva count 0 buf 0 >>= fun result => .ok (some result)) := by
  have header : ¬ (buf.length < 32 ∨ getU32 buf 0 ≠ kMdmpSignature) := by
    have header := list.header
    have signature := list.signature
    omega
  have stream : ¬ (streamRva = 0 ∨ u32 (streamRva + 4) > buf.length) := by
    have present := list.present
    have fits := list.fits
    omega
  rw [patchLoaded, readU32_eq, ok_bind, if_neg header, readU32_eq, ok_bind, readU32_eq, ok_bind, list.directory,
    ok_bind, if_neg stream, readU32_eq, ok_bind, list.records, if_neg (Nat.not_lt.mpr list.bounded)]

theorem patchLoaded_no_list (elf : ElfLookup) {buf : Buffer}
    (absent : ∀ streamRva count, ¬ ModuleList buf streamRva count) :
    patchLoaded elf buf = .ok none ∨ patchLoaded elf buf = .ok (some (buf, 0)) := by
  obtain ⟨streamRva, found⟩ := findModuleStream_total buf (getU32 buf 12) (getU32 buf 8) 0
  rw [patchLoaded, readU32_eq, ok_bind]
  split
  next => exact .inl rfl
  next header =>
    rw [readU32_eq, ok_bind, readU32_eq, ok_bind, found, ok_bind]
    split
    next => exact .inr rfl
    next stream =>
      rw [readU32_eq, ok_bind]
      split
      next => exact .inr rfl
      next bounded => exact absurd ⟨by omega, by omega, found, by omega, by omega, rfl, by omega⟩ (absent _ _)

/-- Every record of the module list is straight in the buffer the loop has when it comes to it. -/
def Straight (elf : ElfLookup) (buf : Buffer) : Prop :=
  ∀ streamRva count, ModuleList buf streamRva count → ∀ i < count, modOff streamRva i + kModuleSize ≤ buf.length →
    ∀ before, Reaches elf streamRva 0 buf 0 i before → RecordStraight elf before (modOff streamRva i)

theorem safe_patchLoaded {elf : ElfLookup} {buf : Buffer} : Safe (patchLoaded elf buf) ↔ Straight elf buf := by
  by_cases listed : ∃ streamRva count, ModuleList buf streamRva count
  · obtain ⟨streamRva, count, list⟩ := listed
    have unique (other size : Nat) (again : ModuleList buf other size) : other = streamRva ∧ size = count := by
      have same := again.directory
      rw [list.directory] at same
      cases same
      exact ⟨rfl, again.records.symm.trans list.records⟩
    have loop : Safe (patchLoaded elf buf) ↔ Safe (patchModules elf streamRva count 0 buf 0) := by
      rw [patchLoaded_list list, safe_bind]
      exact ⟨fun ⟨result, ended, _⟩ => ⟨result, ended⟩, fun ⟨result, ended⟩ => ⟨result, ended, some result, rfl⟩⟩
    rw [loop, safe_patchModules]
    simp only [Nat.zero_add]
    constructor
    · intro straight other size again i within bound before reached
      obtain ⟨rfl, rfl⟩ := unique other size again
      exact straight i within bound before reached
    · exact fun straight => straight streamRva count list
  · have absent (streamRva count : Nat) : ¬ ModuleList buf streamRva count := fun list => listed ⟨_, _, list⟩
    have vacuous : Straight elf buf := fun streamRva count list => absurd list (absent streamRva count)
    rcases patchLoaded_no_list elf absent with alone | alone
    · rw [alone]
      exact ⟨fun _ => vacuous, fun _ => ⟨_, rfl⟩⟩
    · rw [alone]
      exact ⟨fun _ => vacuous, fun _ => ⟨_, rfl⟩⟩

/-- The patcher stays inside the buffer it loaded exactly when no record makes a
32-bit sum wrap where the access behind it relies on that sum. -/
theorem accesses_inside_iff (elf : ElfLookup) (faults : FileFaults) (path : ByteString) (file : Buffer) :
    Safe (patchMissingBuildIds elf faults path file) ↔
      (faults.opens = true → faults.reads = true → Straight elf file) := by
  rw [← safe_patchLoaded]
  unfold patchMissingBuildIds
  by_cases opens : faults.opens = true
  · by_cases reads : faults.reads = true
    · simp only [opens, reads, not_true_eq_false, if_false, true_implies, safe_bind]
      exact ⟨fun ⟨result, ended, _⟩ => ⟨result, ended⟩, fun ⟨result, ended⟩ => ⟨result, ended, safe_ok _⟩⟩
    · simp [opens, reads]
  · simp [opens]

/-- A dump laid out as the tests build theirs: the header, a directory of one
module list, the records at offset 48, each given by its name, its CodeView size
and its CodeView offset, and the names and CodeView bytes after them. -/
def dumpOf (records : List (Nat × Nat × Nat)) (tail : List UInt8) : Buffer :=
  let zeros := fun count => List.replicate count (0 : UInt8)
  le32 kMdmpSignature ++ le32 0xA793 ++ le32 1 ++ le32 32 ++ zeros 16 ++
    le32 kModuleListStream ++ le32 (4 + kModuleSize * records.length) ++ le32 44 ++ le32 records.length ++
    records.flatMap (fun (name, size, cv) => zeros 20 ++ le32 name ++ zeros 52 ++ le32 size ++ le32 cv ++ zeros 24) ++
    tail

def healthy : FileFaults := ⟨true, true, true, 2 ^ 32, 0⟩

/-- The length of this name, 0xFFFFFFF0, wraps its end back to offset 144. The
loop then reads the 180 bytes of the dump to their end and goes on. -/
theorem wrapped_name_leaves_buffer :
    ¬ Safe (patchMissingBuildIds (fun _ => []) healthy (ascii "wrapped.dmp")
      (dumpOf [(156, 20, 160)] (le32 0xFFFFFFF0 ++ List.replicate 20 1))) := by
  have fault : patchMissingBuildIds (fun _ => []) healthy (ascii "wrapped.dmp")
      (dumpOf [(156, 20, 160)] (le32 0xFFFFFFF0 ++ List.replicate 20 1)) = .error ⟨180, 1, 180⟩ := by decide +kernel
  rw [fault]
  exact not_safe_error _

end Crashomon.Proofs.PatcherBounds
