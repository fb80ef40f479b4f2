import Crashomon.Proofs.PatcherBounds

/-! The patcher rewrites the dump in place through a truncating stream. The dump
survives exactly when nothing needs patching, when the truncating open already
fails, or when the disk takes every byte; any other end leaves a prefix. -/

namespace Crashomon.Proofs.PatcherFile
open Bytes Memory Daemon.MinidumpPatcher PatcherSteps PatcherBounds

/-- The record at `off` passes every guard of the loop and gets a build ID. -/
def Patchable (elf : ElfLookup) (buf : Buffer) (off : Nat) : Prop :=
  Considered buf off ∧ ∃ path buildId, readModuleName buf (nameRva buf off) = .ok path ∧
    chosenId elf path (cvSize buf off) = some buildId

theorem replaceRecord_ok {buf : Buffer} {off cv : Nat} {buildId : List UInt8} {step : Option Buffer}
    (ended : replaceRecord buf off cv buildId = .ok step) : ∃ next, step = some next := by
  obtain ⟨signed, first, rest⟩ := bind_ok.mp ended
  obtain ⟨named, copied, rest⟩ := bind_ok.mp rest
  obtain ⟨sized, last, rest⟩ := bind_ok.mp rest
  cases rest
  exact ⟨sized, rfl⟩

theorem patchModule_some_iff {elf : ElfLookup} {buf : Buffer} {off : Nat} {step : Option Buffer}
    (ended : patchModule elf buf off = .ok step) : (∃ next, step = some next) ↔ Patchable elf buf off := by
  by_cases considered : Considered buf off
  · rw [patchModule_considered considered] at ended
    obtain ⟨path, named, rest⟩ := bind_ok.mp ended
    cases chosen : chosenId elf path (cvSize buf off) with
    | some buildId =>
      rw [chosen] at rest
      exact ⟨fun _ => ⟨considered, path, buildId, named, chosen⟩, fun _ => replaceRecord_ok rest⟩
    | none =>
      simp only [chosen] at rest
      cases rest
      refine ⟨fun ⟨next, impossible⟩ => (by cases impossible), fun ⟨_, other, buildId, again, found⟩ => ?_⟩
      rw [named] at again
      cases again
      rw [chosen] at found
      cases found
  · rw [patchModule_skipped considered] at ended
    cases ended
    exact ⟨fun ⟨next, impossible⟩ => (by cases impossible), fun ⟨guards, _⟩ => absurd guards considered⟩

theorem length_patchModules {elf : ElfLookup} {streamRva remaining i patched count : Nat} {buf after : Buffer}
    (ended : patchModules elf streamRva remaining i buf patched = .ok (after, count)) :
    after.length = buf.length ∧ patched ≤ count := by
  induction remaining generalizing i buf patched with
  | zero =>
    cases ended
    exact ⟨rfl, Nat.le_refl _⟩
  | succ remaining ih =>
    by_cases inside : modOff streamRva i + kModuleSize ≤ buf.length
    · obtain ⟨step, turn⟩ := safe_turn inside ⟨_, ended⟩
      rw [patchModules_step inside turn] at ended
      obtain ⟨same, more⟩ := ih ended
      exact ⟨same.trans (length_step turn), by omega⟩
    · rw [patchModules_break (by omega)] at ended
      cases ended
      exact ⟨rfl, Nat.le_refl _⟩

/-- The loop patches something exactly when the buffer it starts with has a
patchable record: records before the first of them are only read. -/
theorem patchModules_count {elf : ElfLookup} {streamRva remaining i patched count : Nat} {buf after : Buffer}
    (ended : patchModules elf streamRva remaining i buf patched = .ok (after, count)) :
    count ≠ patched ↔ ∃ j < remaining, modOff streamRva (i + j) + kModuleSize ≤ buf.length ∧
      Patchable elf buf (modOff streamRva (i + j)) := by
  induction remaining generalizing i buf patched with
  | zero =>
    cases ended
    simp
  | succ remaining ih =>
    by_cases inside : modOff streamRva i + kModuleSize ≤ buf.length
    · obtain ⟨step, turn⟩ := safe_turn inside ⟨_, ended⟩
      rw [patchModules_step inside turn] at ended
      have changed := patchModule_some_iff turn
      cases step with
      | some next =>
        have more := (length_patchModules ended).2
        simp only [Option.toList_some, List.length_singleton] at more
        exact ⟨fun _ => ⟨0, by omega, inside, changed.mp ⟨next, rfl⟩⟩, fun _ => by omega⟩
      | none =>
        have skipped : ¬ Patchable elf buf (modOff streamRva i) := fun patchable => by
          obtain ⟨next, impossible⟩ := changed.mpr patchable
          cases impossible
        simp only [Option.getD_none, Option.toList_none, List.length_nil, Nat.add_zero] at ended
        rw [ih ended]
        constructor
        · intro ⟨j, within, bound, patchable⟩
          refine ⟨j + 1, by omega, ?_⟩
          rw [show i + (j + 1) = i + 1 + j by omega]
          exact ⟨bound, patchable⟩
        · intro ⟨j, within, bound, patchable⟩
          cases j with
          | zero => exact absurd patchable skipped
          | succ j =>
            rw [show i + (j + 1) = i + 1 + j by omega] at bound patchable
            exact ⟨j, by omega, bound, patchable⟩
    · rw [patchModules_break (by omega)] at ended
      cases ended
      refine ⟨fun impossible => absurd rfl impossible, fun ⟨j, within, bound, _⟩ => ?_⟩
      unfold modOff at inside bound
      rw [Nat.add_mul] at bound
      omega

def NeedsPatch (elf : ElfLookup) (file : Buffer) : Prop :=
  ∃ streamRva count, ModuleList file streamRva count ∧
    ∃ i < count, modOff streamRva i + kModuleSize ≤ file.length ∧ Patchable elf file (modOff streamRva i)

theorem patchLoaded_needs {elf : ElfLookup} {file buf : Buffer} {patched : Nat}
    (loaded : patchLoaded elf file = .ok (some (buf, patched))) :
    buf.length = file.length ∧ (patched ≠ 0 ↔ NeedsPatch elf file) := by
  by_cases listed : ∃ streamRva count, ModuleList file streamRva count
  · obtain ⟨streamRva, count, list⟩ := listed
    rw [patchLoaded_list list] at loaded
    obtain ⟨result, ended, same⟩ := bind_ok.mp loaded
    cases same
    refine ⟨(length_patchModules ended).1, ?_⟩
    rw [patchModules_count ended]
    simp only [Nat.zero_add]
    constructor
    · exact fun needs => ⟨streamRva, count, list, needs⟩
    · intro ⟨other, size, again, needs⟩
      have found := again.directory
      rw [list.directory] at found
      cases found
      rwa [← again.records, list.records] at needs
  · have absent (streamRva count : Nat) : ¬ ModuleList file streamRva count := fun list => listed ⟨_, _, list⟩
    have unchanged : (buf, patched) = (file, 0) := by
      rcases patchLoaded_no_list elf absent with alone | alone
      · rw [alone] at loaded
        cases loaded
      · rw [alone] at loaded
        cases loaded
        rfl
    cases unchanged
    exact ⟨rfl, fun impossible => absurd rfl impossible, fun ⟨_, _, list, _⟩ => absurd list (absent _ _)⟩

theorem needs_not_rejected {elf : ElfLookup} {file : Buffer} (needs : NeedsPatch elf file) :
    patchLoaded elf file ≠ .ok none := by
  obtain ⟨streamRva, count, list, _⟩ := needs
  rw [patchLoaded_list list]
  intro rejected
  obtain ⟨result, _, impossible⟩ := bind_ok.mp rejected
  cases impossible

/-- An error leaves the original bytes; success leaves them or all of the patched ones. -/
def AllOrNothing (elf : ElfLookup) (faults : FileFaults) (path : ByteString) (file : Buffer) : Prop :=
  ∀ status after, patchMissingBuildIds elf faults path file = .ok (status, after) →
    (∀ failure, status = .error failure → after = file) ∧
    (status = .ok () → after = file ∨ ∃ buf patched, patchLoaded elf file = .ok (some (buf, patched)) ∧ after = buf)

theorem patchMissingBuildIds_loaded {elf : ElfLookup} {faults : FileFaults} {path : ByteString} {file : Buffer}
    (opens : faults.opens = true) (reads : faults.reads = true) :
    patchMissingBuildIds elf faults path file =
      (patchLoaded elf file >>= fun result => .ok (rewriteFile faults path file result)) := by
  simp [patchMissingBuildIds, opens, reads]

/-- The dump is safe from its own rewriting exactly when the disk takes all of
it, wherever a run that stays in its buffer reaches the rewriting at all. -/
theorem all_or_nothing_iff (elf : ElfLookup) (faults : FileFaults) (path : ByteString) (file : Buffer) :
    AllOrNothing elf faults path file ↔
      (faults.opens = true → faults.reads = true → faults.reopens = true → Straight elf file →
        NeedsPatch elf file → file.length ≤ faults.accepts) := by
  constructor
  · intro safe opens reads reopens straight needs
    by_contra small
    obtain ⟨result, loaded⟩ := safe_patchLoaded.mpr straight
    cases result with
    | none => exact needs_not_rejected needs loaded
    | some pair =>
      obtain ⟨buf, patched⟩ := pair
      obtain ⟨size, counted⟩ := patchLoaded_needs loaded
      have shorter : (buf.take faults.accepts).length < file.length := by
        rw [List.length_take]
        omega
      have ran : patchMissingBuildIds elf faults path file = .ok (rewriteFile faults path file (some (buf, patched))) := by
        rw [patchMissingBuildIds_loaded opens reads, loaded, ok_bind]
      simp only [rewriteFile, counted.mpr needs, reopens, not_true_eq_false, if_false] at ran
      split at ran
      · have kept := (safe _ _ ran).1 _ rfl
        rw [kept] at shorter
        exact Nat.lt_irrefl _ shorter
      · rcases (safe _ _ ran).2 rfl with kept | ⟨whole, _, again, complete⟩
        · rw [kept] at shorter
          exact Nat.lt_irrefl _ shorter
        · rw [loaded] at again
          cases again
          rw [complete, size] at shorter
          exact Nat.lt_irrefl _ shorter
  · intro survives status after ran
    by_cases opens : faults.opens = true
    · by_cases reads : faults.reads = true
      · rw [patchMissingBuildIds_loaded opens reads] at ran
        obtain ⟨result, loaded, ended⟩ := bind_ok.mp ran
        have straight := safe_patchLoaded.mp ⟨result, loaded⟩
        cases result with
        | none =>
          cases ended
          exact ⟨fun _ _ => rfl, fun _ => .inl rfl⟩
        | some pair =>
          obtain ⟨buf, patched⟩ := pair
          obtain ⟨size, counted⟩ := patchLoaded_needs loaded
          by_cases none : patched = 0
          · simp only [rewriteFile, none, if_true] at ended
            cases ended
            exact ⟨fun _ _ => rfl, fun _ => .inl rfl⟩
          · by_cases reopens : faults.reopens = true
            · have room := survives opens reads reopens straight (counted.mp none)
              have full : ¬ faults.accepts < buf.length - faults.buffered := by omega
              simp only [rewriteFile, none, reopens, full, not_true_eq_false, if_false] at ended
              cases ended
              refine ⟨nofun, fun _ => .inr ⟨buf, patched, loaded, ?_⟩⟩
              exact List.take_of_length_le (by omega)
            · simp only [rewriteFile, none, reopens, if_false] at ended
              cases ended
              exact ⟨fun _ _ => rfl, nofun⟩
      · simp only [patchMissingBuildIds, opens, reads, not_true_eq_false, if_false] at ran
        cases ran
        exact ⟨fun _ _ => rfl, nofun⟩
    · simp only [patchMissingBuildIds, opens] at ran
      cases ran
      exact ⟨fun _ _ => rfl, nofun⟩

def unpatchedDump : Buffer := dumpOf [(156, 20, 162)] (le32 2 ++ [97, 0] ++ List.replicate 20 1)

/-- The disk takes 100 of the 182 bytes while all of them sit in the stream's
buffer, so the patcher reports success on a dump cut off in its module list. -/
theorem full_disk_reports_success :
    ¬ AllOrNothing (fun _ => List.replicate 16 7) ⟨true, true, true, 100, 8191⟩ (ascii "full.dmp") unpatchedDump := by
  have ran : patchMissingBuildIds (fun _ => List.replicate 16 7) ⟨true, true, true, 100, 8191⟩ (ascii "full.dmp")
      unpatchedDump = .ok (.ok (), unpatchedDump.take 100) := by decide +kernel
  have shorter : (unpatchedDump.take 100).length ≠ unpatchedDump.length := by decide +kernel
  intro safe
  rcases (safe _ _ ran).2 rfl with kept | ⟨whole, _, loaded, complete⟩
  · exact shorter (congrArg List.length kept)
  · exact shorter (by rw [complete, (patchLoaded_needs loaded).1])

end Crashomon.Proofs.PatcherFile
