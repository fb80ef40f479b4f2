import Crashomon.Daemon.MinidumpReader

/-! The module that a program counter is attributed to. The end of a module is a 64-bit sum, so a
module that reaches the top of the address space covers nothing. -/

namespace Crashomon.Proofs.FrameModules
open Bytes Daemon.MinidumpReader

/-- The module's range holds the address; its end is the exact sum. -/
def Covers (pc : UInt64) (mod : ModuleInfo) : Prop :=
  mod.baseAddress.toNat ≤ pc.toNat ∧ pc.toNat < mod.baseAddress.toNat + mod.size.toNat

instance (pc : UInt64) (mod : ModuleInfo) : Decidable (Covers pc mod) := inferInstanceAs (Decidable (_ ∧ _))

/-- The module ends below the top of the address space. -/
def EndsBelowTop (mod : ModuleInfo) : Prop := mod.baseAddress.toNat + mod.size.toNat < 2 ^ 64

instance (mod : ModuleInfo) : Decidable (EndsBelowTop mod) := inferInstanceAs (Decidable (_ < _))

def frameIn (pc : UInt64) (mod : ModuleInfo) : FrameInfo := ⟨pc, pc - mod.baseAddress, mod.path, mod.buildId⟩

def Unmapped (frame : FrameInfo) : Prop := frame.modulePath = []

/-- The first module that covers the address. -/
def firstCovering (pc : UInt64) (modules : List ModuleInfo) : Option ModuleInfo := modules.find? fun mod => decide (Covers pc mod)

/-- The frame is in the first module that covers the address, and is unmapped exactly where none does. -/
structure Attributed (pc : UInt64) (modules : List ModuleInfo) (frame : FrameInfo) : Prop where
  counter : frame.pc = pc
  first : ∀ mod, firstCovering pc modules = some mod →
    frame.moduleOffset.toNat = pc.toNat - mod.baseAddress.toNat ∧ frame.moduleOffset < mod.size ∧
      frame.modulePath = mod.path ∧ frame.buildId = mod.buildId
  unmapped : Unmapped frame ↔ ∀ mod ∈ modules, ¬ Covers pc mod

section Lookup
variable {pc : UInt64} {mod other : ModuleInfo} {modules : List ModuleInfo}

theorem matches_iff : mod.baseAddress ≤ pc ∧ pc < mod.baseAddress + mod.size ↔ Covers pc mod ∧ EndsBelowTop mod := by
  have size := mod.size.toNat_lt
  have counter := pc.toNat_lt
  rw [Covers, EndsBelowTop, UInt64.le_iff_toNat_le, UInt64.lt_iff_toNat_lt, UInt64.toNat_add]
  omega

/-- The code finds the first module that covers the address and ends below the top. -/
theorem makeFrameFromPC_eq (pc : UInt64) (modules : List ModuleInfo) :
    makeFrameFromPC pc modules =
      (firstCovering pc (modules.filter fun mod => decide (EndsBelowTop mod))).elim ⟨pc, 0, [], []⟩ (frameIn pc) := by
  unfold firstCovering
  induction modules with
  | nil => rfl
  | cons mod modules ih =>
    rw [makeFrameFromPC]
    by_cases ends : EndsBelowTop mod
    · rw [List.filter_cons_of_pos (by simpa using ends)]
      by_cases covers : Covers pc mod
      · rw [if_pos (matches_iff.mpr ⟨covers, ends⟩), List.find?_cons_of_pos (by simpa using covers)]
        rfl
      · rw [if_neg fun found => covers (matches_iff.mp found).1, List.find?_cons_of_neg (by simpa using covers), ih]
    · rw [if_neg fun found => ends (matches_iff.mp found).2, List.filter_cons_of_neg (by simpa using ends), ih]

theorem offset_toNat (covers : Covers pc mod) : (pc - mod.baseAddress).toNat = pc.toNat - mod.baseAddress.toNat :=
  UInt64.toNat_sub_of_le _ _ (UInt64.le_iff_toNat_le.mpr covers.1)

theorem covers_of_first (found : firstCovering pc modules = some mod) : Covers pc mod := by
  simpa using List.find?_some found

theorem firstCovering_eq_none : firstCovering pc modules = none ↔ ∀ mod ∈ modules, ¬ Covers pc mod := by
  simp [firstCovering]

theorem frameIn_eq_iff (first : Covers pc mod) (second : Covers pc other) :
    (frameIn pc other).moduleOffset.toNat = pc.toNat - mod.baseAddress.toNat ↔ other.baseAddress = mod.baseAddress := by
  have within := first.1
  have inside := second.1
  rw [frameIn, offset_toNat second, ← UInt64.toNat_inj]
  omega

end Lookup

/-- The attribution is right exactly where the first covering module has a path, and the first one that
ends below the top of the address space is that module or cannot be told from it. -/
theorem attributed_iff (pc : UInt64) (modules : List ModuleInfo) :
    Attributed pc modules (makeFrameFromPC pc modules) ↔ ∀ mod, firstCovering pc modules = some mod → mod.path ≠ [] ∧
      ∃ other, firstCovering pc (modules.filter fun mod => decide (EndsBelowTop mod)) = some other ∧
        other.path = mod.path ∧ other.baseAddress = mod.baseAddress ∧ other.buildId = mod.buildId := by
  rw [makeFrameFromPC_eq]
  cases found : firstCovering pc (modules.filter fun mod => decide (EndsBelowTop mod)) with
  | none =>
    constructor
    · intro attributed mod first
      have uncovered := firstCovering_eq_none.mpr (attributed.unmapped.mp rfl)
      cases first.symm.trans uncovered
    · intro agrees
      have uncovered : firstCovering pc modules = none := by
        cases first : firstCovering pc modules with
        | none => rfl
        | some mod =>
          obtain ⟨_, _, impossible, _⟩ := agrees mod first
          cases impossible
      refine ⟨rfl, fun mod first => ?_, iff_of_true rfl (firstCovering_eq_none.mp uncovered)⟩
      cases uncovered.symm.trans first
  | some other =>
    have within := covers_of_first found
    have member : other ∈ modules := (List.mem_filter.mp (List.mem_of_find?_eq_some found)).1
    show Attributed pc modules (frameIn pc other) ↔ _
    constructor
    · intro attributed mod first
      obtain ⟨offset, _, path, buildId⟩ := attributed.first mod first
      have mapped : ¬ Unmapped (frameIn pc other) := fun unmapped => attributed.unmapped.mp unmapped other member within
      have base := (frameIn_eq_iff (covers_of_first first) within).mp offset
      exact ⟨path ▸ mapped, other, rfl, path, base, buildId⟩
    · intro agrees
      obtain ⟨mod, first⟩ : ∃ mod, firstCovering pc modules = some mod := by
        cases first : firstCovering pc modules with
        | none => exact absurd within (firstCovering_eq_none.mp first other member)
        | some mod => exact ⟨mod, rfl⟩
      obtain ⟨named, _, same, path, base, buildId⟩ := agrees mod first
      cases same
      refine ⟨rfl, fun again chosen => ?_, iff_of_false (fun unmapped => named (path ▸ unmapped)) fun none => none other member within⟩
      cases first.symm.trans chosen
      have covers := covers_of_first first
      have offset := (frameIn_eq_iff covers within).mpr base
      refine ⟨offset, UInt64.lt_iff_toNat_lt.mpr ?_, path, buildId⟩
      rw [offset]
      have before := covers.2
      have after := covers.1
      omega

/-- A module in the last page of the address space. -/
def topModule : ModuleInfo := ⟨ascii "/usr/lib/top.so", 0xFFFFFFFFFFFFF000, 0x1000, ascii "0123456789abcdef"⟩

theorem top_module_unmapped :
    Unmapped (makeFrameFromPC 0xFFFFFFFFFFFFF800 [topModule]) ∧
      ¬ ∀ pc modules, Attributed pc modules (makeFrameFromPC pc modules) := by
  have unmapped : Unmapped (makeFrameFromPC 0xFFFFFFFFFFFFF800 [topModule]) := by
    unfold Unmapped
    decide
  refine ⟨unmapped, fun all => ?_⟩
  have none := (all 0xFFFFFFFFFFFFF800 [topModule]).unmapped.mp unmapped
  exact none topModule List.mem_cons_self (by decide)

end Crashomon.Proofs.FrameModules
