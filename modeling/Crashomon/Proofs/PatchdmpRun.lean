import Crashomon.Proofs.PatchdmpSteps

/-! When the offline patcher leaves a sound dump. The size check compares the build ID with the
declared size of a record, and nothing compares that with the file or with the other records. -/

namespace Crashomon.Proofs.PatchdmpRun
open Bytes Python Tools.Patchdmp PatchdmpSteps
open PatcherAgreement (eightByteFiles)

/-- The run returns and keeps the length; each module that is counted ends with its signature and build ID inside the
file, and a module whose declared record runs past the file is not patched. -/
def PatchesSoundly (files : Files) (sysroot : Option PurePath) (overrides : List (Text × List UInt8)) (data : Buffer) : Prop :=
  ∃ mods out patched, iterModules data = .ok mods ∧ patchMinidump files sysroot overrides data = .ok (out, patched) ∧
    out.length = data.length ∧ patched = (picks files sysroot overrides mods).length ∧
    (∀ mod buildId, (mod, buildId) ∈ picks files sysroot overrides mods → mod.cvRva + 4 + buildId.length ≤ data.length ∧
      slice out mod.cvRva (4 + buildId.length) = le32 bpelSignature ++ buildId) ∧
    ∀ mod ∈ mods, data.length < mod.cvRva + mod.cvSize → pickedId files sysroot overrides mod = none

/-- The files of the modules without an override can be searched for, the declared records of the patched modules lie in
the file, and what is written last to each byte of such a record is the byte of its own signature or build ID. -/
structure SoundDump (files : Files) (sysroot : Option PurePath) (overrides : List (Text × List UInt8)) (data : Buffer)
    (mods : List ModuleRecord) : Prop where
  searches : ∀ mod ∈ mods, Needs mod → lookupOverride mod.name overrides = none → mod.name ≠ [] →
    Locatable files sysroot (.parse mod.name)
  inside : ∀ mod buildId, (mod, buildId) ∈ picks files sysroot overrides mods → mod.cvRva + mod.cvSize ≤ data.length
  left : ∀ mod buildId, (mod, buildId) ∈ picks files sysroot overrides mods →
    Left (allWrites (picks files sysroot overrides mods)) mod.cvRva (le32 bpelSignature ++ buildId)

section Answers
variable {files : Files} {sysroot : Option PurePath} {overrides : List (Text × List UInt8)}

theorem findBuildId_returns_iff (computes : ∀ path, ∃ answer, files.computeElfBuildId path = .ok answer) (name : Text) :
    (∃ found, findBuildId files sysroot overrides name = .ok found) ↔
      (lookupOverride name overrides = none → name ≠ [] → Locatable files sysroot (.parse name)) := by
  unfold findBuildId
  cases override : lookupOverride name overrides with
  | some buildId => exact iff_of_true ⟨_, rfl⟩ fun absent => by cases absent
  | none =>
    by_cases named : name = []
    · refine iff_of_true ⟨none, ?_⟩ fun _ present => absurd named present
      rw [named]
      rfl
    · simp only [true_imp_iff, ne_eq, named, not_false_eq_true]
      rw [← resolveElf_returns_iff named]
      simp only [Raising.bind_ok]
      constructor
      · rintro ⟨_, found, located, _⟩
        exact ⟨found, located⟩
      · rintro ⟨found, located⟩
        cases found with
        | none => exact ⟨none, none, located, rfl⟩
        | some path =>
          obtain ⟨answer, computed⟩ := computes path
          exact ⟨answer, some path, located, computed⟩

theorem answered_iff (computes : ∀ path, ∃ answer, files.computeElfBuildId path = .ok answer) {mods : List ModuleRecord} :
    Answered files sysroot overrides mods ↔ ∀ mod ∈ mods, Needs mod → lookupOverride mod.name overrides = none → mod.name ≠ [] →
      Locatable files sysroot (.parse mod.name) :=
  forall₂_congr fun mod _ => imp_congr_right fun _ => findBuildId_returns_iff computes mod.name

end Answers

section Dump
variable {files : Files} {sysroot : Option PurePath} {overrides : List (Text × List UInt8)} {data : Buffer} {mods : List ModuleRecord}

theorem writes_inside (listed : ∀ mod ∈ mods, ∃ off, off + Daemon.MinidumpPatcher.kModuleSize ≤ data.length ∧ mod = PatcherAgreement.recordOf data off)
    (inside : ∀ mod buildId, (mod, buildId) ∈ picks files sysroot overrides mods → mod.cvRva + mod.cvSize ≤ data.length) :
    ∀ mod buildId, (mod, buildId) ∈ picks files sysroot overrides mods → WritesInside data.length mod buildId := by
  intro mod buildId member
  obtain ⟨among, picked⟩ := mem_picks.mp member
  obtain ⟨off, record, rfl⟩ := listed mod among
  have large := (pickedId_eq_some.mp picked).2.2
  have declared := inside _ buildId member
  exact ⟨by omega, sizeField_inside record⟩

/-- Each byte of a module's signature and build ID is written by the module itself at least. -/
theorem record_written {picked : List (ModuleRecord × List UInt8)} {mod : ModuleRecord} {buildId : List UInt8}
    (member : (mod, buildId) ∈ picked) {i : Nat} (within : i < (le32 bpelSignature ++ buildId).length) :
    (lastByte (allWrites picked) (mod.cvRva + i)).isSome := by
  have among (write : Write) (one : write ∈ patchWrites mod buildId) : write ∈ allWrites picked :=
    List.mem_flatMap.mpr ⟨_, member, one⟩
  rw [List.length_append, length_le32] at within
  by_cases signature : i < 4
  · apply lastByte_isSome (among ⟨mod.cvRva, le32 bpelSignature⟩ List.mem_cons_self) (Nat.le_add_right _ _)
    rw [length_le32]
    omega
  · apply lastByte_isSome (among ⟨mod.cvRva + 4, buildId⟩ (List.mem_cons_of_mem _ List.mem_cons_self))
    · show mod.cvRva + 4 ≤ mod.cvRva + i
      omega
    · show mod.cvRva + i < mod.cvRva + 4 + buildId.length
      omega

theorem allWrites_inside {picked : List (ModuleRecord × List UInt8)}
    (inside : ∀ mod buildId, (mod, buildId) ∈ picked → WritesInside data.length mod buildId) :
    ∀ write ∈ allWrites picked, write.Inside data.length := by
  intro write among
  obtain ⟨⟨mod, buildId⟩, member, one⟩ := List.mem_flatMap.mp among
  exact patchWrites_inside (inside mod buildId member) write one

theorem slice_left_iff (inside : ∀ mod buildId, (mod, buildId) ∈ picks files sysroot overrides mods → WritesInside data.length mod buildId)
    {mod : ModuleRecord} {buildId : List UInt8} (member : (mod, buildId) ∈ picks files sysroot overrides mods) :
    slice (applyWrites data (allWrites (picks files sysroot overrides mods))) mod.cvRva (4 + buildId.length) = le32 bpelSignature ++ buildId ↔
      Left (allWrites (picks files sysroot overrides mods)) mod.cvRva (le32 bpelSignature ++ buildId) := by
  have length : 4 + buildId.length = (le32 bpelSignature ++ buildId).length := by rw [List.length_append, length_le32]
  rw [length]
  exact slice_applyWrites_iff (allWrites_inside inside) fun i within => record_written member within

end Dump

/-- With a build-ID computation that returns, the run is sound for exactly the sound dumps. -/
theorem patches_soundly_iff (files : Files) (sysroot : Option PurePath) (overrides : List (Text × List UInt8)) (data : Buffer)
    (computes : ∀ path, ∃ answer, files.computeElfBuildId path = .ok answer) :
    PatchesSoundly files sysroot overrides data ↔ ∃ mods, iterModules data = .ok mods ∧ SoundDump files sysroot overrides data mods := by
  obtain ⟨mods, iterated, listed⟩ := iterModules_returns data
  have small : ∀ mod ∈ mods, mod.cvSize < 2 ^ 32 := by
    intro mod member
    obtain ⟨off, _, rfl⟩ := listed mod member
    exact cvSize_lt data off
  have run : patchMinidump files sysroot overrides data = patchModules files sysroot overrides mods data 0 := by
    rw [patchMinidump, iterated, ok_bind]
  constructor
  · rintro ⟨others, out, patched, same, ran, _, _, ends, skipped⟩
    cases iterated.symm.trans same
    rw [run] at ran
    have searches := answered_of_returns ran
    have inside : ∀ mod buildId, (mod, buildId) ∈ picks files sysroot overrides mods → mod.cvRva + mod.cvSize ≤ data.length := by
      intro mod buildId member
      obtain ⟨among, picked⟩ := mem_picks.mp member
      by_contra beyond
      cases picked.symm.trans (skipped mod among (Nat.lt_of_not_le beyond))
    have writes := writes_inside listed inside
    rw [patchModules_writes searches small writes 0] at ran
    cases ran
    exact ⟨mods, iterated, (answered_iff computes).mp searches, inside, fun mod buildId member =>
      (slice_left_iff writes member).mp (ends mod buildId member).2⟩
  · rintro ⟨others, same, sound⟩
    cases iterated.symm.trans same
    have writes := writes_inside listed sound.inside
    have ran := patchModules_writes ((answered_iff computes).mpr sound.searches) small writes 0
    refine ⟨mods, _, _, iterated, run.trans ran, ?_, Nat.zero_add _, fun mod buildId member => ?_, fun mod among beyond => ?_⟩
    · exact length_applyWrites (allWrites_inside writes)
    · exact ⟨(writes mod buildId member).1, (slice_left_iff writes member).mpr (sound.left mod buildId member)⟩
    · cases picked : pickedId files sysroot overrides mod with
      | none => rfl
      | some buildId => exact absurd (sound.inside mod buildId (mem_picks.mpr ⟨among, picked⟩)) (Nat.not_le_of_lt beyond)

theorem twoModules_sound : PatchesSoundly eightByteFiles none [] PatcherFrame.twoModules := by
  have listed : iterModules PatcherFrame.twoModules =
      .ok [⟨['a'], 276, 24, 0x01010101, 124⟩, ⟨['b'], 300, 20, 0x01010101, 232⟩] := by decide +kernel
  apply (patches_soundly_iff eightByteFiles none [] PatcherFrame.twoModules fun _ => ⟨_, rfl⟩).mpr
  refine ⟨_, listed, fun _ _ _ _ _ => ⟨(by simp), (by simp), fun _ => ⟨true, rfl⟩⟩, fun mod buildId member => ?_, fun mod buildId member => ?_⟩
  · have all : ∀ pick ∈ picks eightByteFiles none [] [⟨['a'], 276, 24, 0x01010101, 124⟩, ⟨['b'], 300, 20, 0x01010101, 232⟩],
        pick.1.cvRva + pick.1.cvSize ≤ PatcherFrame.twoModules.length := by decide +kernel
    exact all _ member
  · have all : ∀ pick ∈ picks eightByteFiles none [] [⟨['a'], 276, 24, 0x01010101, 124⟩, ⟨['b'], 300, 20, 0x01010101, 232⟩],
        Left (allWrites (picks eightByteFiles none [] [⟨['a'], 276, 24, 0x01010101, 124⟩, ⟨['b'], 300, 20, 0x01010101, 232⟩]))
          pick.1.cvRva (le32 bpelSignature ++ pick.2) := by decide +kernel
    exact all _ member

/-- A record of 20 declared bytes of which the file still has 8. -/
def cutOff : Buffer := PatcherBounds.dumpOf [(156, 20, 162)] (le32 2 ++ [97, 0] ++ List.replicate 8 1)

/-- A record that begins past the file. -/
def gone : Buffer := PatcherBounds.dumpOf [(156, 20, 400)] (le32 2 ++ [97, 0])

def noFiles : Files := ⟨fun _ => .ok false, fun _ => .ok none⟩

/-- The first dump grows by 12 bytes, the second one raises. -/
theorem truncated_dumps_fail :
    cutOff.length = 170 ∧
    (patchMinidump noFiles none [(['a'], List.replicate 16 7)] cutOff).map (fun result => result.1.length) = .ok 182 ∧
    patchMinidump noFiles none [(['a'], List.replicate 16 7)] gone = .error .structError ∧
    ¬ ∀ files sysroot overrides data, (∀ path, ∃ answer, files.computeElfBuildId path = .ok answer) →
      PatchesSoundly files sysroot overrides data := by
  have raised : patchMinidump noFiles none [(['a'], List.replicate 16 7)] gone = .error .structError := by decide +kernel
  refine ⟨by decide +kernel, by decide +kernel, raised, fun all => ?_⟩
  obtain ⟨_, _, _, _, ran, _⟩ := all noFiles none [(['a'], List.replicate 16 7)] gone fun _ => ⟨_, rfl⟩
  cases raised.symm.trans ran

end Crashomon.Proofs.PatchdmpRun
