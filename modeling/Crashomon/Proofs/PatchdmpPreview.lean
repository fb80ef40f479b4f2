import Crashomon.Base.Regex
import Crashomon.Proofs.PatchdmpSteps
import Crashomon.Tools.PatchdmpCli

/-! The dry run against the run that patches. Both look at the same modules and find the same build IDs,
but only the second one compares a record with its build ID, and it takes an empty one. -/

namespace Crashomon.Proofs.PatchdmpPreview
open Bytes Python Tools.Patchdmp Tools.PatchdmpCli PatchdmpSteps
open PatcherFrame (twoModules)
open PatcherAgreement (eightByteFiles)

theorem some_if_eq_iff {α : Type} {p q : Prop} [Decidable p] [Decidable q] {value : α} :
    ((if p then some value else none) = if q then some value else none) ↔ (p ↔ q) := by
  by_cases first : p <;> by_cases second : q <;> simp [first, second]

def hexDigits : Text := "0123456789abcdef".toList

/-- The build ID that a line shows for a module. -/
def shownId (mod : ModuleRecord) (line : Text) : Option (List UInt8) :=
  let lead := "  ".toList ++ mod.name ++ "  ->  ".toList
  if lead <+: line then (fromHex ((line.drop lead.length).takeWhile hexDigits.contains)).filter fun bid => bid ≠ [] else none

/-- The build IDs in the lines of a dry run, each with its module. There is a line for each module that needs a patch. -/
def printedIds (mods : List ModuleRecord) (lines : List Text) : List (ModuleRecord × List UInt8) :=
  ((needsPatch mods).zip lines).filterMap fun entry => (shownId entry.1 entry.2).map (entry.1, ·)

/-- The real run comes to a module with what the modules before it have left. -/
def Turn (files : Files) (sysroot : Option PurePath) (overrides : List (Text × List UInt8)) (data : Buffer) (mods : List ModuleRecord)
    (mod : ModuleRecord) (before : Buffer) : Prop :=
  ∃ done later patched, mods = done ++ mod :: later ∧ patchModules files sysroot overrides done data 0 = .ok (before, patched)

/-- The lines of the dry run against what the real run prints and writes. -/
structure Faithful (files : Files) (sysroot : Option PurePath) (overrides : List (Text × List UInt8)) (data : Buffer)
    (mods : List ModuleRecord) (lines : List Text) (summary : Text) (out : Buffer) : Prop where
  /-- A build ID is printed for exactly the modules that are patched. -/
  exactly : ∀ mod before, Turn files sysroot overrides data mods mod before →
    ((∃ buildId, (mod, buildId) ∈ printedIds mods lines) ↔ ∃ next, patchModule files sysroot overrides before mod = .ok (some next))
  /-- The output is the dump with each printed build ID in its record, behind the signature, and its size in the module. -/
  written : out = applyWrites data (allWrites (printedIds mods lines))
  counted : summary = "Patched ".toList ++ (toString (printedIds mods lines).length).toList ++ " module(s).".toList

/-- Of the unsigned modules with a record, those with a build ID have one that is empty exactly where it does not fit. -/
def Roomy (files : Files) (sysroot : Option PurePath) (overrides : List (Text × List UInt8)) (mods : List ModuleRecord) : Prop :=
  ∀ mod ∈ mods, mod.cvSig ≠ bpelSignature → mod.cvRva ≠ 0 → ∀ buildId,
    findBuildId files sysroot overrides mod.name = .ok (some buildId) → (buildId ≠ [] ↔ 4 + buildId.length ≤ mod.cvSize)

section Hex

theorem nibble_hexDigit : ∀ value < 16, nibble (hexDigit value) = some value := by decide

theorem hexDigit_solid : ∀ value < 16, isAsciiSpace (hexDigit value) = false := by decide

/-- Bytes are read back from their digits. -/
theorem fromHex_hex (bytes : List UInt8) : fromHex (hex bytes) = some bytes := by
  induction bytes with
  | nil => rfl
  | cons byte bytes ih =>
    have small := byte.toNat_lt
    have digits : hex (byte :: bytes) = hexDigit (byte.toNat / 16) :: hexDigit (byte.toNat % 16) :: hex bytes := rfl
    have whole : UInt8.ofNat (16 * (byte.toNat / 16) + byte.toNat % 16) = byte := by
      rw [Nat.div_add_mod]
      exact UInt8.ofNat_toNat
    rw [digits, fromHex, hexDigit_solid _ (by omega), if_neg Bool.false_ne_true]
    simp only [nibble_hexDigit _ (show byte.toNat / 16 < 16 by omega), nibble_hexDigit _ (show byte.toNat % 16 < 16 by omega), ih,
      Option.bind_eq_bind, Option.bind_some, whole]

theorem length_hex (bytes : List UInt8) : (hex bytes).length % 2 = 0 := by
  induction bytes with
  | nil => rfl
  | cons byte bytes ih =>
    show ((hex bytes).length + 2) % 2 = 0
    rw [Nat.add_mod_right]
    exact ih

end Hex

section Lines

theorem hexDigit_digit : ∀ value < 16, hexDigits.contains (hexDigit value) = true := by decide

theorem hex_digits (bytes : List UInt8) : ∀ character ∈ hex bytes, hexDigits.contains character = true := by
  intro character member
  obtain ⟨byte, _, digit⟩ := List.mem_flatMap.mp member
  have small := byte.toNat_lt
  rcases List.mem_pair.mp digit with rfl | rfl
  · exact hexDigit_digit _ (by omega)
  · exact hexDigit_digit _ (by omega)

/-- Where a preview can come from. None of these texts begins with a hexadecimal digit. -/
def sources : List Text := ["override".toList, "not found".toList, "ELF".toList]

theorem sources_digits : ∀ source ∈ sources, source.takeWhile hexDigits.contains = [] := by decide

/-- The build ID of a preview is read back from its line. -/
theorem shownId_line {shown : Preview} (known : shown.source ∈ sources) : shownId shown.mod shown.line = shown.shown := by
  have line : shown.line = ("  ".toList ++ shown.mod.name ++ "  ->  ".toList) ++ shown.status := rfl
  rw [shownId, line]
  simp only [List.prefix_append, if_true, List.drop_left]
  cases printed : shown.shown with
  | none =>
    rw [Preview.status, printed]
    dsimp only
    rw [sources_digits _ known]
    rfl
  | some bid =>
    have nonempty : bid ≠ [] := by
      have kept := (Option.filter_eq_some_iff.mp printed).2
      exact of_decide_eq_true kept
    rw [Preview.status, printed]
    dsimp only
    rw [List.append_assoc, List.append_assoc, Regex.Pattern.takeWhile_run (hex_digits bid) rfl, fromHex_hex]
    simp [nonempty]

end Lines

section Module
variable {files : Files} {sysroot : Option PurePath} {overrides : List (Text × List UInt8)} {mod : ModuleRecord}

/-- The dry run finds what the run would patch with. -/
theorem preview_found {shown : Preview} (ran : preview files sysroot overrides mod = .ok shown) :
    shown.mod = mod ∧ findBuildId files sysroot overrides mod.name = .ok shown.bid := by
  unfold preview at ran
  unfold findBuildId
  cases override : lookupOverride mod.name overrides with
  | some bid =>
    rw [override] at ran
    cases ran
    exact ⟨rfl, rfl⟩
  | none =>
    rw [override] at ran
    obtain ⟨elf, located, ran⟩ := Raising.bind_ok.mp ran
    cases elf with
    | none =>
      cases ran
      exact ⟨rfl, by rw [located, ok_bind]⟩
    | some path =>
      obtain ⟨bid, computed, ran⟩ := Raising.bind_ok.mp ran
      cases ran
      exact ⟨rfl, by rw [located, ok_bind]; exact computed⟩

/-- What the dry run prints for a module. -/
def printedId (files : Files) (sysroot : Option PurePath) (overrides : List (Text × List UInt8)) (mod : ModuleRecord) :
    Option (List UInt8) :=
  if mod.cvSig ≠ bpelSignature ∧ mod.cvRva ≠ 0 then
    match findBuildId files sysroot overrides mod.name with
    | .ok bid => bid.filter fun bid => bid ≠ []
    | .error _ => none
  else none

theorem preview_source {shown : Preview} (ran : preview files sysroot overrides mod = .ok shown) : shown.source ∈ sources := by
  unfold preview at ran
  cases override : lookupOverride mod.name overrides with
  | some bid =>
    rw [override] at ran
    cases ran
    exact List.mem_cons_self
  | none =>
    rw [override] at ran
    obtain ⟨elf, located, ran⟩ := Raising.bind_ok.mp ran
    cases elf with
    | none =>
      cases ran
      exact List.mem_cons_of_mem _ List.mem_cons_self
    | some path =>
      obtain ⟨bid, computed, ran⟩ := Raising.bind_ok.mp ran
      cases ran
      dsimp only
      split <;> simp [sources]

/-- The lines show a build ID where one is found that is not empty. -/
theorem printedIds_eq {mods : List ModuleRecord} {shown : List Preview}
    (ran : (needsPatch mods).mapM (preview files sysroot overrides) = .ok shown) :
    printedIds mods (shown.map Preview.line) = mods.filterMap fun mod => (printedId files sysroot overrides mod).map (mod, ·) := by
  induction mods generalizing shown with
  | nil => rfl
  | cons mod mods ih =>
    by_cases needed : mod.cvSig ≠ bpelSignature ∧ mod.cvRva ≠ 0
    · have kept : needsPatch (mod :: mods) = mod :: needsPatch mods := List.filter_cons_of_pos (decide_eq_true needed)
      rw [kept, List.mapM_cons] at ran
      obtain ⟨first, turn, ran⟩ := Raising.bind_ok.mp ran
      obtain ⟨others, later, ran⟩ := Raising.bind_ok.mp ran
      cases ran
      obtain ⟨same, found⟩ := preview_found turn
      have printed : printedId files sysroot overrides mod = shownId mod first.line := by
        rw [← same, shownId_line (preview_source turn), same, printedId, if_pos needed, found]
        rfl
      rw [List.filterMap_cons, printed, ← ih later, printedIds, kept, List.map_cons, List.zip_cons_cons, List.filterMap_cons]
      rfl
    · have dropped : needsPatch (mod :: mods) = needsPatch mods := List.filter_cons_of_neg (by simpa using needed)
      have printed : printedId files sysroot overrides mod = none := if_neg needed
      rw [dropped] at ran
      rw [List.filterMap_cons_none (by rw [printed]; rfl), printedIds, dropped]
      exact ih ran

theorem printed_eq_picked_iff (answers : mod.cvSig ≠ bpelSignature → mod.cvRva ≠ 0 → ∃ found, findBuildId files sysroot overrides mod.name = .ok found) :
    printedId files sysroot overrides mod = pickedId files sysroot overrides mod ↔
      (mod.cvSig ≠ bpelSignature → mod.cvRva ≠ 0 → ∀ buildId,
        findBuildId files sysroot overrides mod.name = .ok (some buildId) → (buildId ≠ [] ↔ 4 + buildId.length ≤ mod.cvSize)) := by
  by_cases needed : mod.cvSig ≠ bpelSignature ∧ mod.cvRva ≠ 0
  · obtain ⟨found, given⟩ := answers needed.1 needed.2
    have printed : printedId files sysroot overrides mod = found.filter fun bid => bid ≠ [] := by
      rw [printedId, if_pos needed, given]
    cases found with
    | none =>
      have skipped : pickedId files sysroot overrides mod = none := by
        cases picked : pickedId files sysroot overrides mod with
        | none => rfl
        | some buildId => cases given.symm.trans (pickedId_eq_some.mp picked).2.1
      refine iff_of_true (by rw [printed, skipped]; rfl) fun _ _ buildId same => ?_
      cases given.symm.trans same
    | some bid =>
      have picked : pickedId files sysroot overrides mod = if 4 + bid.length ≤ mod.cvSize then some bid else none := by
        apply Option.ext
        intro buildId
        rw [pickedId_eq_some]
        constructor
        · rintro ⟨_, same, large⟩
          cases given.symm.trans same
          exact if_pos large
        · intro chosen
          split at chosen
          next large =>
            cases chosen
            exact ⟨⟨needed.1, needed.2, by omega⟩, given, large⟩
          next => cases chosen
      have chosen : printedId files sysroot overrides mod = if bid ≠ [] then some bid else none := by
        rw [printed]
        by_cases empty : bid = [] <;> simp [empty]
      rw [chosen, picked, some_if_eq_iff]
      constructor
      · intro same _ _ buildId again
        cases given.symm.trans again
        exact same
      · intro roomy
        exact roomy needed.1 needed.2 bid given
  · have printed : printedId files sysroot overrides mod = none := if_neg needed
    have skipped : pickedId files sysroot overrides mod = none := if_neg fun needs => needed ⟨needs.unsigned, needs.present⟩
    exact iff_of_true (printed.trans skipped.symm) fun unsigned present => absurd ⟨unsigned, present⟩ needed

/-- The lines of a dry run for the modules that need a patch, where there are none as where there are some. -/
theorem printedIds_dryRun {mods : List ModuleRecord} (iterated : iterModules data = .ok mods) {lines : List Text}
    (dry : dryRun files sysroot overrides data = .ok lines) :
    ∃ shown, (needsPatch mods).mapM (preview files sysroot overrides) = .ok shown ∧
      printedIds mods lines = printedIds mods (shown.map Preview.line) := by
  rw [dryRun, previews, iterated, ok_bind] at dry
  obtain ⟨shown, previewed, dry⟩ := Raising.bind_ok.mp dry
  refine ⟨shown, previewed, ?_⟩
  cases dry
  split
  next none =>
    have nothing : needsPatch mods = [] := by
      cases needed : needsPatch mods with
      | nil => rfl
      | cons mod others =>
        rw [needed, List.mapM_cons] at previewed
        obtain ⟨first, _, previewed⟩ := Raising.bind_ok.mp previewed
        obtain ⟨later, _, previewed⟩ := Raising.bind_ok.mp previewed
        cases previewed
        cases none
    rw [printedIds, printedIds, nothing, List.zip_nil_left, List.zip_nil_left]
  next => rfl

theorem patchModules_append (done later : List ModuleRecord) (patched : Nat) :
    patchModules files sysroot overrides (done ++ later) data patched =
      patchModules files sysroot overrides done data patched >>= fun middle =>
        patchModules files sysroot overrides later middle.1 middle.2 := by
  induction done generalizing data patched with
  | nil => rfl
  | cons mod done ih =>
    rw [List.cons_append, patchModules, patchModules]
    cases patchModule files sysroot overrides data mod with
    | error raised => rfl
    | ok next => cases next <;> exact ih _

/-- A run that returns has come to every module. -/
theorem turn_of_split {done later : List ModuleRecord} {patched : Nat} {result : Buffer × Nat}
    (ran : patchModules files sysroot overrides (done ++ mod :: later) data patched = .ok result) :
    ∃ before count next, patchModules files sysroot overrides done data patched = .ok (before, count) ∧
      patchModule files sysroot overrides before mod = .ok next := by
  rw [patchModules_append] at ran
  obtain ⟨⟨before, count⟩, reached, ran⟩ := Raising.bind_ok.mp ran
  obtain ⟨next, turn, _⟩ := Raising.bind_ok.mp ran
  exact ⟨before, count, next, reached, turn⟩

/-- Both show and write what is found. -/
theorem printed_eq_picked (alike : (∃ buildId, printedId files sysroot overrides mod = some buildId) ↔
    ∃ buildId, pickedId files sysroot overrides mod = some buildId) :
    printedId files sysroot overrides mod = pickedId files sysroot overrides mod := by
  cases picked : pickedId files sysroot overrides mod with
  | none =>
    cases printed : printedId files sysroot overrides mod with
    | none => rfl
    | some buildId =>
      obtain ⟨other, found⟩ := alike.mp ⟨buildId, printed⟩
      cases picked.symm.trans found
  | some buildId =>
    obtain ⟨other, printed⟩ := alike.mpr ⟨buildId, picked⟩
    obtain ⟨needs, given, _⟩ := pickedId_eq_some.mp picked
    rw [printed]
    rw [printedId, if_pos ⟨needs.unsigned, needs.present⟩, given] at printed
    have kept := Option.filter_eq_some_iff.mp printed
    exact kept.1.symm

/-- In its turn a module is patched where it is picked. -/
theorem patched_iff_picked {next : Option Buffer} {before : Buffer} (turn : patchModule files sysroot overrides before mod = .ok next) :
    (∃ after, patchModule files sysroot overrides before mod = .ok (some after)) ↔
      ∃ buildId, pickedId files sysroot overrides mod = some buildId := by
  constructor
  · rintro ⟨after, ran⟩
    have applied := patchModule_applies ran
    cases picked : pickedId files sysroot overrides mod with
    | none =>
      rw [picked] at applied
      cases applied
    | some buildId => exact ⟨buildId, rfl⟩
  · rintro ⟨buildId, picked⟩
    have applied := patchModule_applies turn
    rw [picked] at applied
    exact ⟨_, applied ▸ turn⟩

end Module

/-- Where neither run raises, the dry run is faithful for exactly the roomy dumps. -/
theorem faithful_iff_roomy (files : Files) (sysroot : Option PurePath) (overrides : List (Text × List UInt8)) (data : Buffer)
    {lines : List Text} (dry : dryRun files sysroot overrides data = .ok lines) {summary : Text} {out : Buffer}
    (real : patchRun files sysroot overrides data = .ok (summary, out)) :
    ∃ mods, iterModules data = .ok mods ∧
      (Faithful files sysroot overrides data mods lines summary out ↔ Roomy files sysroot overrides mods) := by
  obtain ⟨mods, iterated, _⟩ := iterModules_returns data
  refine ⟨mods, iterated, ?_⟩
  obtain ⟨shown, previewed, printed⟩ := printedIds_dryRun iterated dry
  rw [printedIds_eq previewed] at printed
  rw [patchRun, patchMinidump, iterated, ok_bind] at real
  obtain ⟨result, ran, real⟩ := Raising.bind_ok.mp real
  have applied := patchModules_applies ran
  rw [Nat.zero_add] at applied
  subst applied
  cases real
  have answers : ∀ mod ∈ mods, mod.cvSig ≠ bpelSignature → mod.cvRva ≠ 0 → ∃ found, findBuildId files sysroot overrides mod.name = .ok found := by
    intro mod member unsigned present
    have listed : mod ∈ needsPatch mods := List.mem_filter.mpr ⟨member, decide_eq_true ⟨unsigned, present⟩⟩
    obtain ⟨shown, ran⟩ := (Raising.mapM_returns (needsPatch mods)).mp ⟨_, previewed⟩ mod listed
    exact ⟨_, (preview_found ran).2⟩
  constructor
  · intro faithful mod member
    obtain ⟨done, later, split⟩ := List.append_of_mem member
    obtain ⟨before, count, next, reached, turn⟩ := turn_of_split (split ▸ ran)
    have same := faithful.exactly mod before ⟨done, later, count, split, reached⟩
    rw [patched_iff_picked turn] at same
    simp only [printed, mem_filterMap_tagged, member, true_and] at same
    exact (printed_eq_picked_iff (answers mod member)).mp (printed_eq_picked same)
  · intro roomy
    have same : printedIds mods lines = picks files sysroot overrides mods := by
      rw [printed, picks, filterMap_tagged_eq_iff]
      exact fun mod member => (printed_eq_picked_iff (answers mod member)).mpr (roomy mod member)
    refine ⟨?_, by rw [same], by rw [same]⟩
    rintro mod before ⟨done, later, count, split, reached⟩
    have member : mod ∈ mods := by simp [split]
    obtain ⟨_, _, next, again, turn⟩ := turn_of_split (split ▸ ran)
    cases reached.symm.trans again
    rw [patched_iff_picked turn]
    simp only [same, mem_picks, member, true_and]

theorem twoModules_previewed : ∃ lines summary out mods, dryRun eightByteFiles none [] twoModules = .ok lines ∧
    patchRun eightByteFiles none [] twoModules = .ok (summary, out) ∧ iterModules twoModules = .ok mods ∧
      Faithful eightByteFiles none [] twoModules mods lines summary out := by
  have iterated : iterModules twoModules = .ok [⟨['a'], 276, 24, 0x01010101, 124⟩, ⟨['b'], 300, 20, 0x01010101, 232⟩] := by
    decide +kernel
  have dry : (dryRun eightByteFiles none [] twoModules).toOption.isSome = true := by decide +kernel
  have real : (patchRun eightByteFiles none [] twoModules).toOption.isSome = true := by decide +kernel
  cases printed : dryRun eightByteFiles none [] twoModules with
  | error raised =>
    rw [printed] at dry
    cases dry
  | ok lines =>
    cases patched : patchRun eightByteFiles none [] twoModules with
    | error raised =>
      rw [patched] at real
      cases real
    | ok result =>
      obtain ⟨mods, again, faithful⟩ := faithful_iff_roomy eightByteFiles none [] twoModules printed patched
      refine ⟨lines, result.1, result.2, mods, rfl, rfl, again, faithful.mpr ?_⟩
      cases iterated.symm.trans again
      intro mod member _ _ buildId found
      have sizes : ∀ mod ∈ [(⟨['a'], 276, 24, 0x01010101, 124⟩ : ModuleRecord), ⟨['b'], 300, 20, 0x01010101, 232⟩], 12 ≤ mod.cvSize ∧
          findBuildId eightByteFiles none [] mod.name = .ok (some (List.replicate 8 7)) := by decide +kernel
      obtain ⟨large, given⟩ := sizes mod member
      cases given.symm.trans found
      exact iff_of_true (by simp) large

/-- A record of 8 bytes, which has no room for a build ID of 16. -/
def smallRecord : Buffer := PatcherBounds.dumpOf [(156, 8, 162)] (le32 2 ++ [97, 0] ++ List.replicate 8 1)

theorem small_record_not_patched :
    dryRun eightByteFiles none [(['a'], List.replicate 16 7)] smallRecord =
      .ok ["  a  ->  07070707070707070707070707070707 (override)".toList] ∧
    patchRun eightByteFiles none [(['a'], List.replicate 16 7)] smallRecord = .ok ("Patched 0 module(s).".toList, smallRecord) ∧
    ¬ ∀ files sysroot overrides data mods lines summary out, iterModules data = .ok mods → dryRun files sysroot overrides data = .ok lines →
      patchRun files sysroot overrides data = .ok (summary, out) → Faithful files sysroot overrides data mods lines summary out := by
  have iterated : iterModules smallRecord = .ok [⟨['a'], 162, 8, 0x01010101, 124⟩] := by decide +kernel
  have dry : dryRun eightByteFiles none [(['a'], List.replicate 16 7)] smallRecord =
      .ok ["  a  ->  07070707070707070707070707070707 (override)".toList] := by decide +kernel
  have real : patchRun eightByteFiles none [(['a'], List.replicate 16 7)] smallRecord =
      .ok ("Patched 0 module(s).".toList, smallRecord) := by decide +kernel
  refine ⟨dry, real, fun all => ?_⟩
  have counted := (all _ _ _ _ _ _ _ _ iterated dry real).counted
  revert counted
  decide +kernel

end Crashomon.Proofs.PatchdmpPreview
