import Crashomon.Base.Writes
import Crashomon.Proofs.PatcherAgreement

/-! The offline patcher on any dump: which modules it picks, and what it writes for them.
The records come from a copy, so that no write changes what is picked. -/

namespace Crashomon.Proofs.PatchdmpSteps
open Bytes Python Tools.Patchdmp PatcherSteps PatcherAgreement
open PatcherFrame (recordOff)
open Daemon.MinidumpPatcher (kModuleSize)

section Tagged
variable {α β : Type} {f g : α → Option β} {items : List α}

theorem mem_filterMap_tagged {item : α} {value : β} :
    (item, value) ∈ (items.filterMap fun item => (f item).map (item, ·)) ↔ item ∈ items ∧ f item = some value := by
  simp only [List.mem_filterMap, Option.map_eq_some_iff, Prod.mk.injEq]
  constructor
  · rintro ⟨item, member, _, found, rfl, rfl⟩
    exact ⟨member, found⟩
  · rintro ⟨member, found⟩
    exact ⟨item, member, value, found, rfl, rfl⟩

/-- Results that carry what they are for are the same list only where they are the same for each. -/
theorem filterMap_tagged_eq_iff :
    (items.filterMap fun item => (f item).map (item, ·)) = (items.filterMap fun item => (g item).map (item, ·)) ↔
      ∀ item ∈ items, f item = g item := by
  constructor
  · intro same item member
    apply Option.ext
    intro value
    have first := @mem_filterMap_tagged _ _ f items item value
    rw [same, mem_filterMap_tagged] at first
    simpa [member] using first.symm
  · intro same
    apply List.filterMap_congr
    intro item member
    rw [same item member]

end Tagged

section Records
variable {data : Buffer}

theorem findModuleStream_returns (data : Buffer) (dirRva remaining i : Nat) :
    ∃ streamRva, findModuleStream data dirRva remaining i = .ok streamRva := by
  obtain ⟨streamRva, found⟩ := PatcherBounds.findModuleStream_total data dirRva remaining i
  exact ⟨streamRva, findModuleStream_agrees found⟩

theorem mem_toolRecords {streamRva remaining i : Nat} {mod : ModuleRecord} (member : mod ∈ toolRecords data streamRva remaining i) :
    ∃ off, off + kModuleSize ≤ data.length ∧ mod = recordOf data off := by
  induction remaining generalizing i with
  | zero => exact absurd member List.not_mem_nil
  | succ remaining ih =>
    rw [toolRecords] at member
    split at member
    next => exact absurd member List.not_mem_nil
    next inside =>
      rcases List.mem_cons.mp member with rfl | later
      · exact ⟨_, Nat.le_of_not_lt inside, rfl⟩
      · exact ih later

/-- No dump makes the iteration raise, and every record lies in the dump. -/
theorem iterModules_returns (data : Buffer) : ∃ mods, iterModules data = .ok mods ∧
    ∀ mod ∈ mods, ∃ off, off + kModuleSize ≤ data.length ∧ mod = recordOf data off := by
  have none_listed : ∀ mod ∈ ([] : List ModuleRecord), ∃ off, off + kModuleSize ≤ data.length ∧ mod = recordOf data off :=
    List.forall_mem_nil _
  unfold iterModules
  split
  next => exact ⟨[], rfl, none_listed⟩
  next header =>
    rw [unpackFrom_eq (by omega), ok_bind]
    split
    next => exact ⟨[], rfl, none_listed⟩
    next =>
      obtain ⟨streamRva, found⟩ := findModuleStream_returns data (getU32 data 12) (getU32 data 8) 0
      rw [unpackFrom_eq (by omega), ok_bind, unpackFrom_eq (by omega), ok_bind, found, ok_bind]
      split
      next => exact ⟨[], rfl, none_listed⟩
      next stream =>
        rw [unpackFrom_eq (by omega), ok_bind]
        split
        next => exact ⟨[], rfl, none_listed⟩
        next => exact ⟨_, readModules_eq, fun _ => mem_toolRecords⟩

theorem sizeField_inside {off : Nat} (record : off + kModuleSize ≤ data.length) :
    (recordOf data off).cvSizeFieldOff + 4 ≤ data.length := by
  show off + 76 + 4 ≤ data.length
  unfold kModuleSize at record
  omega

theorem cvSize_lt (data : Buffer) (off : Nat) : (recordOf data off).cvSize < 2 ^ 32 := getU32_lt data _

end Records

section Lookup
variable {files : Files} {sysroot : Option PurePath} {name : Text}

/-- Where a module's file is looked for below a sysroot. -/
def candidate (root path : PurePath) : PurePath := root.join (if path.isAbsolute then ⟨[], path.tail⟩ else path)

/-- The search for a module's file raises nothing: with a sysroot the path has not exactly two leading slashes, and
the queries that are made return. -/
structure Locatable (files : Files) (sysroot : Option PurePath) (path : PurePath) : Prop where
  root : ∀ root, sysroot = some root → path.isAbsolute → path.root = ['/']
  below : ∀ root, sysroot = some root → ∃ found, files.pathExists (candidate root path) = .ok found
  itself : (∀ root, sysroot = some root → files.pathExists (candidate root path) ≠ .ok true) → ∃ found, files.pathExists path = .ok found

/-- The last query, for the path as it is. -/
def resolveItself (files : Files) (path : PurePath) : Raises (Option PurePath) :=
  files.pathExists path >>= fun found => .ok (if found then some path else none)

theorem resolveItself_returns_iff {path : PurePath} :
    (∃ found, resolveItself files path = .ok found) ↔ ∃ found, files.pathExists path = .ok found := by
  simp only [resolveItself, Raising.bind_ok]
  constructor
  · rintro ⟨_, found, asked, _⟩
    exact ⟨found, asked⟩
  · rintro ⟨found, asked⟩
    exact ⟨_, found, asked, rfl⟩

theorem resolveElf_none (named : name ≠ []) : resolveElf files name none = resolveItself files (.parse name) := by
  rw [resolveElf, if_neg named]
  rfl

theorem resolveElf_doubled (named : name ≠ []) {root : PurePath} (absolute : (PurePath.parse name).isAbsolute = true)
    (doubled : (PurePath.parse name).root ≠ ['/']) :
    resolveElf files name (some root) = .error (.valueError "path is not in the subpath of '/'") := by
  rw [resolveElf, if_neg named]
  simp only [absolute, if_true, relativeToRoot, if_neg doubled]
  rfl

theorem resolveElf_some (named : name ≠ []) {root : PurePath}
    (plain : (PurePath.parse name).isAbsolute → (PurePath.parse name).root = ['/']) :
    resolveElf files name (some root) = files.pathExists (candidate root (.parse name)) >>= fun found =>
      if found then .ok (some (candidate root (.parse name))) else resolveItself files (.parse name) := by
  by_cases absolute : (PurePath.parse name).isAbsolute
  · rw [resolveElf, if_neg named]
    simp only [absolute, if_true, relativeToRoot, if_pos (plain absolute), ok_bind, candidate]
    cases files.pathExists (root.join ⟨[], (PurePath.parse name).tail⟩) with
    | error raised => rfl
    | ok found => cases found <;> rfl
  · rw [resolveElf, if_neg named]
    simp only [if_neg absolute, ok_bind, candidate]
    cases files.pathExists (root.join (.parse name)) with
    | error raised => rfl
    | ok found => cases found <;> rfl

theorem resolveElf_returns_iff (named : name ≠ []) :
    (∃ found, resolveElf files name sysroot = .ok found) ↔ Locatable files sysroot (.parse name) := by
  cases sysroot with
  | none =>
    rw [resolveElf_none named, resolveItself_returns_iff]
    constructor
    · intro asked
      exact ⟨(by simp), (by simp), fun _ => asked⟩
    · intro locatable
      exact locatable.itself (by simp)
  | some root =>
    by_cases plain : (PurePath.parse name).isAbsolute → (PurePath.parse name).root = ['/']
    · rw [resolveElf_some named plain]
      cases asked : files.pathExists (candidate root (.parse name)) with
      | error raised =>
        refine iff_of_false ?_ ?_
        · rintro ⟨found, ended⟩
          cases ended
        · intro locatable
          obtain ⟨found, answered⟩ := locatable.below root rfl
          cases asked.symm.trans answered
      | ok there =>
        have below (given : PurePath) (same : some root = some given) :
            ∃ found, files.pathExists (candidate given (.parse name)) = .ok found := by
          cases same
          exact ⟨there, asked⟩
        cases there with
        | true =>
          refine iff_of_true ⟨some (candidate root (.parse name)), rfl⟩ ⟨fun _ _ => plain, below, fun nowhere => ?_⟩
          exact absurd asked (nowhere root rfl)
        | false =>
          refine resolveItself_returns_iff.trans ⟨fun itself => ⟨fun _ _ => plain, below, fun _ => itself⟩, fun locatable => ?_⟩
          apply locatable.itself
          intro given same
          cases same
          rw [asked]
          simp
    · obtain ⟨absolute, doubled⟩ := not_forall.mp plain
      rw [resolveElf_doubled named absolute doubled]
      refine iff_of_false ?_ fun locatable => plain (locatable.root root rfl)
      rintro ⟨found, ended⟩
      cases ended

end Lookup

/-- The record is present and has no build ID yet. -/
structure Needs (mod : ModuleRecord) : Prop where
  unsigned : mod.cvSig ≠ bpelSignature
  present : mod.cvRva ≠ 0
  large : 4 ≤ mod.cvSize

instance (mod : ModuleRecord) : Decidable (Needs mod) :=
  decidable_of_iff (mod.cvSig ≠ bpelSignature ∧ mod.cvRva ≠ 0 ∧ 4 ≤ mod.cvSize)
    ⟨fun ⟨unsigned, present, large⟩ => ⟨unsigned, present, large⟩, fun ⟨unsigned, present, large⟩ => ⟨unsigned, present, large⟩⟩

/-- The build ID that a module is patched with, where it is patched. -/
def pickedId (files : Files) (sysroot : Option PurePath) (overrides : List (Text × List UInt8)) (mod : ModuleRecord) :
    Option (List UInt8) :=
  if Needs mod then
    match findBuildId files sysroot overrides mod.name with
    | .ok (some buildId) => if 4 + buildId.length ≤ mod.cvSize then some buildId else none
    | _ => none
  else none

/-- The modules that are patched, each with its build ID. -/
def picks (files : Files) (sysroot : Option PurePath) (overrides : List (Text × List UInt8)) (mods : List ModuleRecord) :
    List (ModuleRecord × List UInt8) :=
  mods.filterMap fun mod => (pickedId files sysroot overrides mod).map (mod, ·)

/-- What is written for one module: the signature, the build ID, the new size. -/
def patchWrites (mod : ModuleRecord) (buildId : List UInt8) : List Write :=
  [⟨mod.cvRva, le32 bpelSignature⟩, ⟨mod.cvRva + 4, buildId⟩, ⟨mod.cvSizeFieldOff, le32 (4 + buildId.length)⟩]

def allWrites (picked : List (ModuleRecord × List UInt8)) : List Write := picked.flatMap fun pick => patchWrites pick.1 pick.2

section Steps
variable {files : Files} {sysroot : Option PurePath} {overrides : List (Text × List UInt8)} {mod : ModuleRecord} {data : Buffer}

theorem pickedId_eq_some {buildId : List UInt8} : pickedId files sysroot overrides mod = some buildId ↔
    Needs mod ∧ findBuildId files sysroot overrides mod.name = .ok (some buildId) ∧ 4 + buildId.length ≤ mod.cvSize := by
  unfold pickedId
  split
  next needs =>
    split
    next found given =>
      split
      next large =>
        constructor
        · rintro ⟨⟩
          exact ⟨needs, given, large⟩
        · rintro ⟨_, same, _⟩
          cases given.symm.trans same
          rfl
      next small =>
        refine iff_of_false (by simp) ?_
        rintro ⟨_, same, large⟩
        cases given.symm.trans same
        exact small large
    next other =>
      refine iff_of_false (by simp) ?_
      rintro ⟨_, same, _⟩
      exact other _ same
  next idle => exact iff_of_false (by simp) fun picked => idle picked.1

/-- The loop body patches just the modules that are picked. -/
theorem patchModule_skips (returns : Needs mod → ∃ found, findBuildId files sysroot overrides mod.name = .ok found)
    (skipped : pickedId files sysroot overrides mod = none) : patchModule files sysroot overrides data mod = .ok none := by
  unfold patchModule
  split
  next => rfl
  next unsigned =>
    split
    next => rfl
    next recorded =>
      have needs : Needs mod := ⟨unsigned, by omega, by omega⟩
      obtain ⟨found, given⟩ := returns needs
      rw [given, ok_bind]
      cases found with
      | none => rfl
      | some buildId =>
        have short : mod.cvSize < 4 + buildId.length := by
          by_contra large
          cases (pickedId_eq_some.mpr ⟨needs, given, Nat.le_of_not_lt large⟩).symm.trans skipped
        exact if_pos short

theorem patchModule_picked {buildId : List UInt8} (picked : pickedId files sysroot overrides mod = some buildId) :
    patchModule files sysroot overrides data mod =
      (packInto data mod.cvRva bpelSignature >>= fun signed =>
        packInto (overwrite signed (mod.cvRva + 4) buildId) mod.cvSizeFieldOff (4 + buildId.length) >>= fun sized => .ok (some sized)) := by
  obtain ⟨needs, given, large⟩ := pickedId_eq_some.mp picked
  have location : ¬ (mod.cvRva = 0 ∨ mod.cvSize < 4) := not_or.mpr ⟨needs.present, Nat.not_lt_of_le needs.large⟩
  rw [patchModule, if_neg needs.unsigned, if_neg location, given, ok_bind]
  exact if_neg (Nat.not_lt_of_le large)

theorem patchModule_returns (ran : ∃ next, patchModule files sysroot overrides data mod = .ok next) (needs : Needs mod) :
    ∃ found, findBuildId files sysroot overrides mod.name = .ok found := by
  obtain ⟨next, ran⟩ := ran
  have location : ¬ (mod.cvRva = 0 ∨ mod.cvSize < 4) := not_or.mpr ⟨needs.present, Nat.not_lt_of_le needs.large⟩
  rw [patchModule, if_neg needs.unsigned, if_neg location] at ran
  obtain ⟨found, given, _⟩ := Raising.bind_ok.mp ran
  exact ⟨found, given⟩

/-- The three writes of a module stay in the buffer. -/
def WritesInside (length : Nat) (mod : ModuleRecord) (buildId : List UInt8) : Prop :=
  mod.cvRva + 4 + buildId.length ≤ length ∧ mod.cvSizeFieldOff + 4 ≤ length

theorem patchWrites_inside {length : Nat} {buildId : List UInt8} (inside : WritesInside length mod buildId) :
    ∀ write ∈ patchWrites mod buildId, write.Inside length := by
  obtain ⟨record, field⟩ := inside
  simp only [patchWrites, List.forall_mem_cons, Write.Inside, length_le32]
  exact ⟨by omega, record, field, List.forall_mem_nil _⟩

theorem patchModule_inside {buildId : List UInt8} (picked : pickedId files sysroot overrides mod = some buildId)
    (sized : mod.cvSize < 2 ^ 32) (inside : WritesInside data.length mod buildId) :
    patchModule files sysroot overrides data mod = .ok (some (applyWrites data (patchWrites mod buildId))) := by
  obtain ⟨record, field⟩ := inside
  have large := (pickedId_eq_some.mp picked).2.2
  have signed : (overwrite data mod.cvRva (le32 bpelSignature)).length = data.length :=
    length_overwrite (by rw [length_le32]; omega)
  have copied : (overwrite (overwrite data mod.cvRva (le32 bpelSignature)) (mod.cvRva + 4) buildId).length = data.length :=
    (length_overwrite (by omega)).trans signed
  rw [patchModule_picked picked, packInto_inside (by omega) (by decide), ok_bind, packInto_inside (by omega) (by omega), ok_bind]
  rfl

end Steps

section Run
variable {files : Files} {sysroot : Option PurePath} {overrides : List (Text × List UInt8)} {mods : List ModuleRecord} {data : Buffer}
  {mod : ModuleRecord}

/-- The search for the build ID of every module that needs one returns. -/
def Answered (files : Files) (sysroot : Option PurePath) (overrides : List (Text × List UInt8)) (mods : List ModuleRecord) : Prop :=
  ∀ mod ∈ mods, Needs mod → ∃ found, findBuildId files sysroot overrides mod.name = .ok found

theorem picks_cons_none {mod : ModuleRecord} (skipped : pickedId files sysroot overrides mod = none) :
    picks files sysroot overrides (mod :: mods) = picks files sysroot overrides mods :=
  List.filterMap_cons_none (by rw [skipped]; rfl)

theorem picks_cons_some {mod : ModuleRecord} {buildId : List UInt8} (picked : pickedId files sysroot overrides mod = some buildId) :
    picks files sysroot overrides (mod :: mods) = (mod, buildId) :: picks files sysroot overrides mods :=
  List.filterMap_cons_some (by rw [picked]; rfl)

theorem mem_picks {mod : ModuleRecord} {buildId : List UInt8} :
    (mod, buildId) ∈ picks files sysroot overrides mods ↔ mod ∈ mods ∧ pickedId files sysroot overrides mod = some buildId :=
  mem_filterMap_tagged

/-- A run whose writes stay in the buffer applies them one after the other. -/
theorem patchModules_writes (answered : Answered files sysroot overrides mods) (sized : ∀ mod ∈ mods, mod.cvSize < 2 ^ 32)
    (inside : ∀ mod buildId, (mod, buildId) ∈ picks files sysroot overrides mods → WritesInside data.length mod buildId) (patched : Nat) :
    patchModules files sysroot overrides mods data patched =
      .ok (applyWrites data (allWrites (picks files sysroot overrides mods)), patched + (picks files sysroot overrides mods).length) := by
  induction mods generalizing data patched with
  | nil => rfl
  | cons mod mods ih =>
    obtain ⟨asked, laterAsked⟩ := List.forall_mem_cons.mp answered
    obtain ⟨small, laterSmall⟩ := List.forall_mem_cons.mp sized
    rw [patchModules]
    cases picked : pickedId files sysroot overrides mod with
    | none =>
      rw [picks_cons_none picked] at inside ⊢
      rw [patchModule_skips asked picked, ok_bind]
      exact ih laterAsked laterSmall inside patched
    | some buildId =>
      rw [picks_cons_some picked] at inside ⊢
      have here := inside mod buildId List.mem_cons_self
      have kept := length_applyWrites (patchWrites_inside here)
      rw [patchModule_inside picked small here, ok_bind]
      dsimp only
      rw [ih laterAsked laterSmall (fun other id member => kept ▸ inside other id (List.mem_cons_of_mem _ member)),
        ← applyWrites_append, List.length_cons, Nat.add_assoc, Nat.add_comm 1]
      rfl

theorem answered_of_returns {patched : Nat} {result : Buffer × Nat}
    (ran : patchModules files sysroot overrides mods data patched = .ok result) : Answered files sysroot overrides mods := by
  induction mods generalizing data patched with
  | nil => exact List.forall_mem_nil _
  | cons mod mods ih =>
    rw [patchModules] at ran
    obtain ⟨next, turn, ran⟩ := Raising.bind_ok.mp ran
    refine List.forall_mem_cons.mpr ⟨patchModule_returns ⟨next, turn⟩, ?_⟩
    cases next with
    | none => exact ih ran
    | some next => exact ih ran

theorem patchModule_applies {next : Option Buffer} (ran : patchModule files sysroot overrides data mod = .ok next) :
    next = (pickedId files sysroot overrides mod).map fun buildId => applyWrites data (patchWrites mod buildId) := by
  cases picked : pickedId files sysroot overrides mod with
  | none =>
    rw [patchModule_skips (patchModule_returns ⟨next, ran⟩) picked] at ran
    cases ran
    rfl
  | some buildId =>
    rw [patchModule_picked picked] at ran
    obtain ⟨signed, first, ran⟩ := Raising.bind_ok.mp ran
    obtain ⟨sized, last, ran⟩ := Raising.bind_ok.mp ran
    cases ran
    rw [overwrite_of_packInto last, overwrite_of_packInto first]
    rfl

/-- What a run that returns has done, wherever its writes land. -/
theorem patchModules_applies {patched : Nat} {result : Buffer × Nat}
    (ran : patchModules files sysroot overrides mods data patched = .ok result) :
    result = (applyWrites data (allWrites (picks files sysroot overrides mods)), patched + (picks files sysroot overrides mods).length) := by
  induction mods generalizing data patched with
  | nil =>
    cases ran
    rfl
  | cons mod mods ih =>
    rw [patchModules] at ran
    obtain ⟨next, turn, ran⟩ := Raising.bind_ok.mp ran
    have applied := patchModule_applies turn
    cases picked : pickedId files sysroot overrides mod with
    | none =>
      rw [picked] at applied
      subst applied
      rw [picks_cons_none picked]
      exact ih ran
    | some buildId =>
      rw [picked] at applied
      subst applied
      rw [picks_cons_some picked, ih ran, ← applyWrites_append, List.length_cons, Nat.add_assoc, Nat.add_comm 1]
      rfl

end Run

end Crashomon.Proofs.PatchdmpSteps
