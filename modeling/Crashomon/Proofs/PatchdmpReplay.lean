import Crashomon.Proofs.PatchdmpPreview
import Crashomon.Proofs.PatchdmpRun

/-! What the dry run finds, handed on as overrides. A dump can be patched where its files are not: the build IDs of a dry
run, given to `--build-id`, patch it as they would be found. -/

namespace Crashomon.Proofs.PatchdmpReplay
open Bytes Python Tools.Patchdmp Tools.PatchdmpCli PatchdmpSteps PatchdmpPreview
open PatcherFrame (twoModules)
open PatcherAgreement (eightByteFiles)

section Specs
variable {interpreter : Interpreter}

/-- A build ID for a module, as `--build-id` takes it. -/
def spec (name : Text) (buildId : List UInt8) : Text := name ++ '=' :: hex buildId

theorem parseSpec_spec {name : Text} (named : name ≠ []) (plain : '=' ∉ name) (buildId : List UInt8) :
    parseSpec interpreter (spec name buildId) = .ok (name, buildId) := by
  have index : (spec name buildId).idxOf '=' = name.length := by
    rw [spec, List.idxOf_append_of_notMem plain, List.idxOf_cons_self, Nat.add_zero]
  have before : (spec name buildId).take name.length = name := List.take_left
  have after : (spec name buildId).drop (name.length + 1) = hex buildId := by
    rw [spec, ← List.drop_drop, List.drop_left]
    rfl
  have separated : '=' ∈ spec name buildId := by simp [spec]
  rw [parseSpec, if_neg (not_not.mpr separated)]
  simp only [index, before, after, if_neg named, length_hex, fromHex_hex]
  rfl

theorem parseBuildIdOverrides_specs {given : List (Text × List UInt8)} (named : ∀ entry ∈ given, entry.1 ≠ [] ∧ '=' ∉ entry.1) :
    parseBuildIdOverrides interpreter (given.map fun entry => spec entry.1 entry.2) =
      .ok (given.foldl (fun overrides entry => dictSet overrides entry.1 entry.2) []) := by
  unfold parseBuildIdOverrides
  generalize ([] : List (Text × List UInt8)) = overrides
  induction given generalizing overrides with
  | nil => rfl
  | cons entry given ih =>
    obtain ⟨⟨present, plain⟩, later⟩ := List.forall_mem_cons.mp named
    rw [List.map_cons, List.foldlM_cons, parseSpec_spec present plain]
    exact ih later _

/-- Where each name has one build ID, the overrides are what is given. -/
theorem lookup_given {given : List (Text × List UInt8)}
    (single : ∀ name first second, (name, first) ∈ given → (name, second) ∈ given → first = second) {name : Text} {buildId : List UInt8} :
    (given.foldl (fun overrides entry => dictSet overrides entry.1 entry.2) []).lookup name = some buildId ↔ (name, buildId) ∈ given := by
  have general (part : List (Text × List UInt8)) (overrides : List (Text × List UInt8)) (within : ∀ entry ∈ part, entry ∈ given)
      (kept : ∀ other, overrides.lookup name = some other → (name, other) ∈ given) :
      (part.foldl (fun overrides entry => dictSet overrides entry.1 entry.2) overrides).lookup name = some buildId ↔
        (name, buildId) ∈ part ∨ overrides.lookup name = some buildId := by
    induction part generalizing overrides with
    | nil => simp
    | cons entry part ih =>
      obtain ⟨key, value⟩ := entry
      obtain ⟨first, later⟩ := List.forall_mem_cons.mp within
      have next : ∀ other, (dictSet overrides key value).lookup name = some other → (name, other) ∈ given := by
        intro other found
        rw [lookup_dictSet] at found
        split at found
        next same =>
          cases found
          exact same ▸ first
        next => exact kept other found
      rw [List.foldl_cons, ih _ later next, lookup_dictSet, List.mem_cons, Prod.mk.injEq]
      by_cases same : name = key
      · subst same
        rw [if_pos rfl, Option.some.injEq]
        constructor
        · rintro (member | rfl)
          · exact Or.inl (Or.inr member)
          · exact Or.inl (Or.inl ⟨rfl, rfl⟩)
        · rintro ((⟨_, rfl⟩ | member) | old)
          · exact Or.inr rfl
          · exact Or.inl member
          · exact Or.inr (single _ _ _ first (kept buildId old))
      · rw [if_neg same]
        constructor
        · rintro (member | old)
          · exact Or.inl (Or.inr member)
          · exact Or.inr old
        · rintro ((⟨here, _⟩ | member) | old)
          · exact absurd here same
          · exact Or.inl member
          · exact Or.inr old
  rw [general given [] (fun _ member => member) (fun _ found => nomatch found)]
  simp

end Specs

section Replay
variable {files bare : Files} {sysroot other : Option PurePath} {overrides replayed : List (Text × List UInt8)}

theorem mapM_item {α β ε : Type} {visit : α → Except ε β} {items : List α} {results : List β} (ran : items.mapM visit = .ok results) :
    (∀ item ∈ items, ∃ result ∈ results, visit item = .ok result) ∧ ∀ result ∈ results, ∃ item ∈ items, visit item = .ok result := by
  induction items generalizing results with
  | nil =>
    cases ran
    exact ⟨List.forall_mem_nil _, List.forall_mem_nil _⟩
  | cons item items ih =>
    rw [List.mapM_cons] at ran
    obtain ⟨result, first, ran⟩ := Raising.bind_ok.mp ran
    obtain ⟨others, rest, ran⟩ := Raising.bind_ok.mp ran
    cases ran
    obtain ⟨forward, back⟩ := ih rest
    refine ⟨List.forall_mem_cons.mpr ⟨⟨result, List.mem_cons_self, first⟩, fun later member => ?_⟩,
      List.forall_mem_cons.mpr ⟨⟨item, List.mem_cons_self, first⟩, fun later member => ?_⟩⟩
    · obtain ⟨found, among, visited⟩ := forward later member
      exact ⟨found, List.mem_cons_of_mem result among, visited⟩
    · obtain ⟨found, among, visited⟩ := back later member
      exact ⟨found, List.mem_cons_of_mem item among, visited⟩

/-- Two searches that find the same for the modules that need it patch a dump alike. -/
theorem patchModules_congr {mods : List ModuleRecord} (same : ∀ mod ∈ mods, Needs mod →
      findBuildId bare other replayed mod.name = findBuildId files sysroot overrides mod.name) (data : Buffer) (patched : Nat) :
    patchModules bare other replayed mods data patched = patchModules files sysroot overrides mods data patched := by
  have turn (mod : ModuleRecord) (member : mod ∈ mods) (data : Buffer) :
      patchModule bare other replayed data mod = patchModule files sysroot overrides data mod := by
    unfold patchModule
    split
    next => rfl
    next unsigned =>
      split
      next => rfl
      next recorded => rw [same mod member ⟨unsigned, by omega, by omega⟩]
  induction mods generalizing data patched with
  | nil => rfl
  | cons mod mods ih =>
    have rest (data : Buffer) (patched : Nat) :
        patchModules bare other replayed mods data patched = patchModules files sysroot overrides mods data patched :=
      ih (fun later member => same later (List.mem_cons_of_mem mod member)) data patched
        (fun later member => turn later (List.mem_cons_of_mem mod member))
    rw [patchModules, patchModules, turn mod List.mem_cons_self data]
    congr 1
    funext next
    cases next with
    | none => exact rest data patched
    | some next => exact rest next (patched + 1)

/-- The build IDs that a dry run shows, by the name of their module. -/
def shownIds (shown : List Preview) : List (Text × List UInt8) :=
  shown.filterMap fun preview => preview.shown.map (preview.mod.name, ·)

theorem mem_shownIds {shown : List Preview} {name : Text} {buildId : List UInt8} :
    (name, buildId) ∈ shownIds shown ↔ ∃ preview ∈ shown, preview.mod.name = name ∧ preview.shown = some buildId := by
  simp only [shownIds, List.mem_filterMap, Option.map_eq_some_iff, Prod.mk.injEq]
  constructor
  · rintro ⟨preview, member, _, given, rfl, rfl⟩
    exact ⟨preview, member, rfl, given⟩
  · rintro ⟨preview, member, rfl, given⟩
    exact ⟨preview, member, buildId, given, rfl, rfl⟩

theorem shown_of_bid {preview : Preview} {buildId : List UInt8} (found : preview.bid = some buildId) (nonempty : buildId ≠ []) :
    preview.shown = some buildId := by
  rw [Preview.shown, found, Option.filter_some, if_pos (by simpa using nonempty)]

theorem bid_of_shown {preview : Preview} {buildId : List UInt8} (shown : preview.shown = some buildId) : preview.bid = some buildId :=
  (Option.filter_eq_some_iff.mp shown).1

/-- Without files only the overrides answer. -/
theorem findBuildId_bare (bareFiles : ∀ path, bare.pathExists path = .ok false) (name : Text) :
    findBuildId bare none replayed name = .ok (lookupOverride name replayed) := by
  unfold findBuildId
  cases lookupOverride name replayed with
  | some buildId => rfl
  | none =>
    by_cases named : name = []
    · rw [named]
      rfl
    · rw [resolveElf_none named, resolveItself, bareFiles]
      rfl

/-- The overrides that a dry run hands on find what it found. -/
theorem lookup_shownIds {shown : List Preview} {mods : List ModuleRecord}
    (dry : (needsPatch mods).mapM (preview files sysroot overrides) = .ok shown)
    (nonempty : ∀ preview ∈ shown, preview.bid ≠ some [])
    (apart : ∀ preview ∈ shown, preview.bid = none → ∀ named ∈ shown, named.shown ≠ none →
      (PurePath.parse preview.mod.name).name ≠ named.mod.name) {mod : ModuleRecord} (member : mod ∈ mods) (needs : Needs mod) :
    .ok (lookupOverride mod.name ((shownIds shown).foldl (fun overrides entry => dictSet overrides entry.1 entry.2) [])) =
      findBuildId files sysroot overrides mod.name := by
  obtain ⟨forward, back⟩ := mapM_item dry
  have finds {shownFor : Preview} (among : shownFor ∈ shown) : findBuildId files sysroot overrides shownFor.mod.name = .ok shownFor.bid := by
    obtain ⟨one, _, ran⟩ := back shownFor among
    obtain ⟨same, found⟩ := preview_found ran
    rw [same]
    exact found
  have single : ∀ name first second, (name, first) ∈ shownIds shown → (name, second) ∈ shownIds shown → first = second := by
    intro name first second one two
    obtain ⟨shownOne, amongOne, sameOne, givenOne⟩ := mem_shownIds.mp one
    obtain ⟨shownTwo, amongTwo, sameTwo, givenTwo⟩ := mem_shownIds.mp two
    have foundOne := finds amongOne
    have foundTwo := finds amongTwo
    rw [sameOne, bid_of_shown givenOne] at foundOne
    rw [sameTwo, bid_of_shown givenTwo] at foundTwo
    cases foundOne.symm.trans foundTwo
    rfl
  have listed : mod ∈ needsPatch mods := List.mem_filter.mpr ⟨member, decide_eq_true ⟨needs.unsigned, needs.present⟩⟩
  obtain ⟨shownFor, among, ran⟩ := forward mod listed
  obtain ⟨same, found⟩ := preview_found ran
  rw [found]
  cases given : shownFor.bid with
  | some buildId =>
    have answered := (lookup_given single).mpr (mem_shownIds.mpr ⟨shownFor, among, by rw [same], shown_of_bid given fun empty =>
      nonempty shownFor among (empty ▸ given)⟩)
    rw [lookupOverride, answered]
  | none =>
    have unnamed (name : Text) (other : ∀ named ∈ shown, named.shown ≠ none → name ≠ named.mod.name) :
        ((shownIds shown).foldl (fun overrides entry => dictSet overrides entry.1 entry.2) []).lookup name = none := by
      rw [Option.eq_none_iff_forall_ne_some]
      intro buildId answered
      obtain ⟨named, member, same, shown⟩ := mem_shownIds.mp ((lookup_given single).mp answered)
      exact other named member (by rw [shown]; exact Option.some_ne_none buildId) same.symm
    rw [lookupOverride, unnamed mod.name, unnamed (PurePath.parse mod.name).name]
    · rw [← same]
      exact apart shownFor among given
    · intro named member shownIt equal
      have foundNamed := finds member
      rw [← equal, found, given] at foundNamed
      exact shownIt (by rw [Preview.shown, ← Except.ok.inj foundNamed]; rfl)

/-- Where neither an empty build ID is found, nor a name has an equals sign, nor a module without build ID has the name of
one with it behind its directory, the overrides of a dry run patch the dump without any file as it is patched with them. -/
theorem dry_run_replays (interpreter : Interpreter) (files : Files) (sysroot : Option PurePath) (overrides : List (Text × List UInt8))
    (data : Buffer) {shown : List Preview} (dry : previews files sysroot overrides data = .ok shown)
    (nonempty : ∀ preview ∈ shown, preview.bid ≠ some [])
    (named : ∀ preview ∈ shown, preview.shown ≠ none → preview.mod.name ≠ [] ∧ '=' ∉ preview.mod.name)
    (apart : ∀ preview ∈ shown, preview.bid = none → ∀ named ∈ shown, named.shown ≠ none →
      (PurePath.parse preview.mod.name).name ≠ named.mod.name)
    (bare : Files) (bareFiles : ∀ path, bare.pathExists path = .ok false) :
    ∃ replayed, parseBuildIdOverrides interpreter ((shownIds shown).map fun entry => spec entry.1 entry.2) = .ok replayed ∧
      patchMinidump bare none replayed data = patchMinidump files sysroot overrides data := by
  obtain ⟨mods, iterated, _⟩ := iterModules_returns data
  rw [previews, iterated, ok_bind] at dry
  refine ⟨_, parseBuildIdOverrides_specs fun entry member => ?_, ?_⟩
  · obtain ⟨shownFor, among, same, given⟩ := mem_shownIds.mp member
    rw [← same]
    exact named shownFor among (by rw [given]; exact Option.some_ne_none _)
  · rw [patchMinidump, patchMinidump, iterated, ok_bind, ok_bind]
    refine patchModules_congr (fun mod member needs => ?_) data 0
    rw [findBuildId_bare bareFiles]
    exact lookup_shownIds dry nonempty apart member needs

/-- Both modules have their build IDs from files, which the second run has not. -/
theorem twoModules_replayed : ∃ shown, previews eightByteFiles none [] twoModules = .ok shown ∧ ∃ replayed,
    parseBuildIdOverrides ⟨1000, fun _ => .nan, fun _ => []⟩ ((shownIds shown).map fun entry => spec entry.1 entry.2) = .ok replayed ∧
      patchMinidump PatchdmpRun.noFiles none replayed twoModules = patchMinidump eightByteFiles none [] twoModules := by
  have dry : previews eightByteFiles none [] twoModules =
      .ok [⟨⟨['a'], 276, 24, 0x01010101, 124⟩, some (List.replicate 8 7), "ELF".toList⟩,
        ⟨⟨['b'], 300, 20, 0x01010101, 232⟩, some (List.replicate 8 7), "ELF".toList⟩] := by decide +kernel
  refine ⟨_, dry, dry_run_replays _ eightByteFiles none [] twoModules dry ?_ ?_ ?_ PatchdmpRun.noFiles fun _ => rfl⟩
  · decide
  · decide
  · decide

end Replay

end Crashomon.Proofs.PatchdmpReplay
