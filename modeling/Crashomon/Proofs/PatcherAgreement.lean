import Crashomon.Proofs.PatcherFrame
import Crashomon.Tools.Patchdmp

/-! The daemon's patcher and the offline one. The daemon reads each record from
the live buffer and the tool from a copy, and their guards differ; they leave the
same bytes where no name, no size and no overlap brings such a difference out. -/

namespace Crashomon.Proofs.PatcherAgreement
open Bytes Python Daemon.MinidumpPatcher PatcherSteps PatcherBounds PatcherFile PatcherFrame
open Tools.Patchdmp (ModuleRecord Files patchMinidump)

structure ToolName (buf : Buffer) (rva : Nat) : Prop where
  present : rva ≠ 0
  nonempty : getU32 buf rva ≠ 0
  fits : rva + 4 + getU32 buf rva ≤ buf.length

instance (buf : Buffer) (rva : Nat) : Decidable (ToolName buf rva) :=
  decidable_of_iff (rva ≠ 0 ∧ getU32 buf rva ≠ 0 ∧ rva + 4 + getU32 buf rva ≤ buf.length)
    ⟨fun ⟨present, nonempty, fits⟩ => ⟨present, nonempty, fits⟩, fun ⟨present, nonempty, fits⟩ => ⟨present, nonempty, fits⟩⟩

def toolName (buf : Buffer) (rva : Nat) : Text :=
  if ToolName buf rva then decodeUtf16le (slice buf (rva + 4) (getU32 buf rva)) else []

def PlainBytes : List UInt8 → Prop
  | [] => True
  | [_] => False
  | lo :: hi :: rest => lo.toNat < 128 ∧ lo ≠ 0 ∧ hi = 0 ∧ PlainBytes rest

instance decidablePlainBytes : (bytes : List UInt8) → Decidable (PlainBytes bytes)
  | [] => isTrue trivial
  | [_] => isFalse id
  | lo :: hi :: rest =>
    have := decidablePlainBytes rest
    inferInstanceAs (Decidable (lo.toNat < 128 ∧ lo ≠ 0 ∧ hi = 0 ∧ PlainBytes rest))

theorem PlainBytes.even : ∀ {bytes : List UInt8}, PlainBytes bytes → bytes.length % 2 = 0
  | [], _ => rfl
  | [_], impossible => False.elim impossible
  | _ :: _ :: rest, ⟨_, _, _, later⟩ => by
    have shorter := later.even
    simp only [List.length_cons]
    omega

theorem PlainBytes.decoded : ∀ {bytes : List UInt8}, PlainBytes bytes → decodeUtf16le bytes = asciiUnits bytes
  | [], _ => rfl
  | [_], impossible => False.elim impossible
  | lo :: hi :: rest, ⟨small, nonzero, zero, later⟩ => by
    have value : lo.toNat ||| hi.toNat <<< 8 = lo.toNat := by simp [zero]
    have positive : lo.toNat ≠ 0 := fun same => nonzero (UInt8.toNat_inj.mp same)
    rw [decodeUtf16le_basic (by omega), asciiUnits, value]
    simp only [small, positive, if_true, ne_eq, not_false_eq_true, and_self, List.singleton_append, later.decoded]

/-- Both programs read the name alike: as plain ASCII, or not at all. -/
structure SameName (buf : Buffer) (rva : Nat) : Prop where
  plain : ToolName buf rva → PlainBytes (slice buf (rva + 4) (getU32 buf rva))
  absent : ¬ ToolName buf rva → ¬ NameRead buf rva

structure Open (buf : Buffer) (off : Nat) : Prop where
  present : cvRva buf off ≠ 0
  large : 4 ≤ cvSize buf off
  unsigned : getU32 buf (cvRva buf off) ≠ kBpElSignature

structure Picked (elf : ElfLookup) (buf : Buffer) (off : Nat) (buildId : List UInt8) : Prop where
  opened : Open buf off
  named : toolName buf (nameRva buf off) ≠ []
  found : elf (toolName buf (nameRva buf off)) = buildId
  nonempty : buildId ≠ []
  fits : 4 + buildId.length ≤ cvSize buf off

/-- Neither the name nor the CodeView range of the record tells the two programs apart. -/
structure RecordAgrees (elf : ElfLookup) (buf : Buffer) (off : Nat) : Prop where
  name : Open buf off → SameName buf (nameRva buf off)
  large : ∀ buildId, Picked elf buf off buildId → 4 + kXorHashSize ≤ cvSize buf off
  range : ∀ buildId, Picked elf buf off buildId → cvRva buf off + cvSize buf off ≤ buf.length

/-- The positions that decide what happens to the record. -/
def Reads (buf : Buffer) (off k : Nat) : Prop :=
  InRange k (off + kModNameRvaOff) 4 ∨ InRange k (off + kModCvDataSizeOff) 8 ∨
    cvRva buf off ≠ 0 ∧ 4 ≤ cvSize buf off ∧ InRange k (cvRva buf off) 4 ∨
    Open buf off ∧ nameRva buf off ≠ 0 ∧ (InRange k (nameRva buf off) 4 ∨
      ToolName buf (nameRva buf off) ∧ InRange k (nameRva buf off + 4) (getU32 buf (nameRva buf off)))

/-- No patched record disturbs what a later one is decided by. -/
structure Agrees (elf : ElfLookup) (buf : Buffer) (streamRva count : Nat) : Prop where
  records : ∀ i < count, recordOff streamRva i + kModuleSize ≤ buf.length →
    RecordAgrees elf buf (recordOff streamRva i)
  undisturbed : ∀ j < count, recordOff streamRva j + kModuleSize ≤ buf.length → ∀ i < j, ∀ buildId,
    Picked elf buf (recordOff streamRva i) buildId →
    ∀ k, Touched buf (recordOff streamRva i) buildId k → ¬ Reads buf (recordOff streamRva j) k

/-- One file system under both programs: the ELF file at a path has one build ID. -/
def SameFiles (elf : ElfLookup) (files : Files) : Prop :=
  ∀ name, (files.pathExists (PurePath.parse name) >>= fun found =>
      if found then files.computeElfBuildId (PurePath.parse name) else .ok none) =
    .ok (if elf name = [] then none else some (elf name))

section Tool
variable {buf : Buffer}

theorem unpackFrom_eq {off : Nat} (inside : off + 4 ≤ buf.length) : unpackFrom buf off = .ok (getU32 buf off) := by
  rw [unpackFrom_inside inside, getU32_inside inside]

theorem readModuleName_eq (buf : Buffer) (rva : Nat) : Tools.Patchdmp.readModuleName buf rva = .ok (toolName buf rva) := by
  unfold Tools.Patchdmp.readModuleName
  split
  next absent =>
    have unnamed : ¬ ToolName buf rva := by
      intro ⟨present, nonempty, fits⟩
      omega
    rw [toolName, if_neg unnamed]
  next header =>
    rw [unpackFrom_eq (by omega), ok_bind]
    split
    next empty =>
      have unnamed : ¬ ToolName buf rva := by
        intro ⟨present, nonempty, fits⟩
        omega
      rw [toolName, if_neg unnamed]
    next named =>
      have guarded : ToolName buf rva := ⟨by omega, by omega, by omega⟩
      rw [toolName, if_pos guarded]

def recordOf (buf : Buffer) (off : Nat) : ModuleRecord where
  name := toolName buf (nameRva buf off)
  cvRva := cvRva buf off
  cvSize := cvSize buf off
  cvSig := if cvRva buf off ≠ 0 ∧ 4 ≤ cvSize buf off then getU32 buf (cvRva buf off) else 0
  cvSizeFieldOff := off + kModCvDataSizeOff

theorem readModule_eq {off : Nat} (record : off + kModuleSize ≤ buf.length) :
    Tools.Patchdmp.readModule buf off = .ok (recordOf buf off) := by
  unfold kModuleSize at record
  have name : unpackFrom buf (off + Tools.Patchdmp.modNameRvaOff) = .ok (nameRva buf off) :=
    unpackFrom_eq (by simp only [Tools.Patchdmp.modNameRvaOff]; omega)
  have size : unpackFrom buf (off + Tools.Patchdmp.modCvDataSizeOff) = .ok (cvSize buf off) :=
    unpackFrom_eq (by simp only [Tools.Patchdmp.modCvDataSizeOff]; omega)
  have location : unpackFrom buf (off + Tools.Patchdmp.modCvDataSizeOff + 4) = .ok (cvRva buf off) :=
    unpackFrom_eq (by simp only [Tools.Patchdmp.modCvDataSizeOff]; omega)
  rw [Tools.Patchdmp.readModule, name, ok_bind, size, ok_bind, location, ok_bind, readModuleName_eq, ok_bind]
  by_cases inside : cvRva buf off + 4 ≤ buf.length
  · by_cases present : cvRva buf off ≠ 0 ∧ 4 ≤ cvSize buf off
    · rw [if_pos ⟨present.1, present.2, inside⟩, unpackFrom_eq inside, ok_bind]
      simp only [recordOf, if_pos present, Tools.Patchdmp.modCvDataSizeOff, kModCvDataSizeOff]
    · rw [if_neg fun all => present ⟨all.1, all.2.1⟩, ok_bind]
      simp only [recordOf, if_neg present, Tools.Patchdmp.modCvDataSizeOff, kModCvDataSizeOff]
  · have zero : getU32 buf (cvRva buf off) = 0 := if_pos (by omega)
    rw [if_neg fun all => inside all.2.2, ok_bind]
    simp only [recordOf, zero, ite_self, Tools.Patchdmp.modCvDataSizeOff, kModCvDataSizeOff]

def toolRecords (buf : Buffer) (streamRva : Nat) : (remaining i : Nat) → List ModuleRecord
  | 0, _ => []
  | remaining + 1, i =>
    if recordOff streamRva i + kModuleSize > buf.length then []
    else recordOf buf (recordOff streamRva i) :: toolRecords buf streamRva remaining (i + 1)

theorem readModules_eq {streamRva remaining i : Nat} :
    Tools.Patchdmp.readModules buf streamRva remaining i = .ok (toolRecords buf streamRva remaining i) := by
  induction remaining generalizing i with
  | zero => rfl
  | succ remaining ih =>
    rw [Tools.Patchdmp.readModules, toolRecords]
    split
    next outside =>
      rw [if_pos]
      exact outside
    next inside =>
      have record : recordOff streamRva i + kModuleSize ≤ buf.length := Nat.le_of_not_lt inside
      rw [show Tools.Patchdmp.readModule buf (streamRva + 4 + i * Tools.Patchdmp.moduleSize) =
          .ok (recordOf buf (recordOff streamRva i)) from readModule_eq record, ok_bind, ih, ok_bind, if_neg (by omega)]

theorem findModuleStream_agrees {dirRva remaining i streamRva : Nat}
    (found : findModuleStream buf dirRva remaining i = .ok streamRva) :
    Tools.Patchdmp.findModuleStream buf dirRva remaining i = .ok streamRva := by
  induction remaining generalizing i with
  | zero => cases found; rfl
  | succ remaining ih =>
    simp only [findModuleStream, readU32_eq, Memory.ok_bind, kDirEntrySize] at found
    rw [Tools.Patchdmp.findModuleStream]
    split at found
    next outside =>
      cases found
      rw [if_pos outside]
    next inside =>
      rw [if_neg inside, unpackFrom_eq (by omega), ok_bind, unpackFrom_eq (by omega), ok_bind]
      split at found
      next list =>
        cases found
        exact if_pos list
      next other =>
        rw [show Tools.Patchdmp.mdModuleListStream = kModuleListStream from rfl, if_neg other]
        exact ih found

theorem iterModules_list {streamRva count : Nat} (list : ModuleList buf streamRva count) :
    Tools.Patchdmp.iterModules buf = .ok (toolRecords buf streamRva count 0) := by
  have header := list.header
  have bounded := list.bounded
  rw [Tools.Patchdmp.iterModules, if_neg (by omega), unpackFrom_eq (by omega), ok_bind,
    if_neg fun other => other list.signature, unpackFrom_eq (by omega), ok_bind, unpackFrom_eq (by omega), ok_bind,
    findModuleStream_agrees list.directory, ok_bind]
  split
  next outside =>
    -- A list that begins past the end has no records for the daemon either.
    have zero : getU32 buf streamRva = 0 := if_pos (by have present := list.present; omega)
    rw [← list.records, zero]
    rfl
  next inside =>
    rw [unpackFrom_eq (by omega), ok_bind, list.records, if_neg (by omega), readModules_eq]

theorem iterModules_no_list (small : buf.length < 2 ^ 32) (absent : ∀ streamRva count, ¬ ModuleList buf streamRva count) :
    Tools.Patchdmp.iterModules buf = .ok [] := by
  unfold Tools.Patchdmp.iterModules
  split
  next => rfl
  next header =>
    rw [unpackFrom_eq (by omega), ok_bind]
    split
    next => rfl
    next signature =>
      obtain ⟨streamRva, found⟩ := findModuleStream_total buf (getU32 buf 12) (getU32 buf 8) 0
      rw [unpackFrom_eq (by omega), ok_bind, unpackFrom_eq (by omega), ok_bind, findModuleStream_agrees found, ok_bind]
      split
      next => rfl
      next stream =>
        rw [unpackFrom_eq (by omega), ok_bind]
        split
        next => rfl
        next bounded =>
          refine absurd ⟨by omega, Decidable.not_not.mp signature, found, by omega, ?_, rfl, by omega⟩ (absent _ _)
          exact Nat.le_trans (u32_le _) (by omega)

end Tool

section Turn
variable {elf : ElfLookup} {files : Files} {buf before : Buffer} {off : Nat}

/-- The live buffer still has everything that decides what happens to the record. -/
structure Unread (buf before : Buffer) (off : Nat) : Prop where
  length : before.length = buf.length
  same : ∀ k, Reads buf off k → before[k]? = buf[k]?

namespace Unread

theorem name (kept : Unread buf before off) : nameRva before off = nameRva buf off :=
  getU32_congr kept.length fun k member => kept.same k (.inl member)

theorem size (kept : Unread buf before off) : cvSize before off = cvSize buf off :=
  getU32_congr kept.length fun k member => kept.same k (.inr (.inl ⟨member.1, by
    have upper := member.2
    omega⟩))

theorem location (kept : Unread buf before off) : cvRva before off = cvRva buf off :=
  getU32_congr kept.length fun k member => kept.same k (.inr (.inl ⟨by
    have lower := member.1
    simp only [kModCvRvaOff, kModCvDataSizeOff] at lower ⊢
    omega, by
    have upper := member.2
    simp only [kModCvRvaOff, kModCvDataSizeOff] at upper ⊢
    omega⟩))

theorem signature (kept : Unread buf before off) (present : cvRva buf off ≠ 0) (large : 4 ≤ cvSize buf off) :
    getU32 before (cvRva buf off) = getU32 buf (cvRva buf off) :=
  getU32_congr kept.length fun k member => kept.same k (.inr (.inr (.inl ⟨present, large, member⟩)))

theorem text (kept : Unread buf before off) (small : buf.length < 2 ^ 32) (opened : Open buf off)
    (same : SameName buf (nameRva buf off)) :
    readModuleName before (nameRva buf off) = .ok (toolName buf (nameRva buf off)) := by
  have header (present : nameRva buf off ≠ 0) : getU32 before (nameRva buf off) = getU32 buf (nameRva buf off) :=
    getU32_congr kept.length fun k member => kept.same k (.inr (.inr (.inr ⟨opened, present, .inl member⟩)))
  by_cases named : ToolName buf (nameRva buf off)
  · have plain := same.plain named
    have fits := named.fits
    have length := length_slice fits
    have even := plain.even
    have body : slice before (nameRva buf off + 4) (getU32 buf (nameRva buf off)) =
        slice buf (nameRva buf off + 4) (getU32 buf (nameRva buf off)) :=
      slice_congr fun k after upper => kept.same k
        (.inr (.inr (.inr ⟨opened, named.present, .inr ⟨named, ⟨after, upper⟩⟩⟩)))
    have guarded : NameRead before (nameRva buf off) := by
      refine ⟨named.present, ?_, ?_, ?_, ?_⟩
      · rw [kept.length]
        exact Nat.le_trans (u32_le _) (by omega)
      · rw [header named.present]
        exact named.nonempty
      · rw [header named.present]
        omega
      · rw [header named.present, kept.length]
        exact Nat.le_trans (u32_le _) fits
    rw [readModuleName_straight guarded (by rw [header named.present]; omega)
        (by rw [header named.present, kept.length]; exact fits), header named.present, body, ← plain.decoded,
      toolName, if_pos named]
  · have skipped : ¬ NameRead before (nameRva buf off) := fun guarded => by
      have present := guarded.present
      have nonempty := guarded.nonempty
      have even := guarded.even
      have fits := guarded.fits
      rw [header present] at nonempty even fits
      rw [kept.length] at fits
      exact same.absent named ⟨present, by have inside := guarded.header; rwa [kept.length] at inside, nonempty, even, fits⟩
    rw [readModuleName_skipped skipped, toolName, if_neg named]

end Unread

theorem tool_skips (closed : ¬ Open buf off) : Tools.Patchdmp.patchModule files none [] before (recordOf buf off) = .ok none := by
  by_cases present : cvRva buf off ≠ 0 ∧ 4 ≤ cvSize buf off
  · have signed : getU32 buf (cvRva buf off) = Tools.Patchdmp.bpelSignature :=
      Decidable.not_not.mp fun unsigned => closed ⟨present.1, present.2, unsigned⟩
    simp only [Tools.Patchdmp.patchModule, recordOf, if_pos present, if_pos signed]
  · have location : cvRva buf off = 0 ∨ cvSize buf off < 4 := by omega
    have unsigned : ¬ 0 = Tools.Patchdmp.bpelSignature := by decide
    simp only [Tools.Patchdmp.patchModule, recordOf, if_neg present]
    rw [if_neg unsigned, if_pos location]

theorem findBuildId_eq (shared : SameFiles elf files) (name : Text) :
    Tools.Patchdmp.findBuildId files none [] name =
      .ok (if name = [] then none else if elf name = [] then none else some (elf name)) := by
  by_cases unnamed : name = []
  · simp only [Tools.Patchdmp.findBuildId, Tools.Patchdmp.lookupOverride, List.lookup_nil, Tools.Patchdmp.resolveElf,
      unnamed, if_true, ok_bind]
  · have lookup := shared name
    simp only [Tools.Patchdmp.findBuildId, Tools.Patchdmp.lookupOverride, List.lookup_nil, Tools.Patchdmp.resolveElf,
      unnamed, if_false, ok_bind]
    cases found : files.pathExists (PurePath.parse name) with
    | error raised =>
      rw [found] at lookup
      cases lookup
    | ok found_path =>
      rw [found, ok_bind] at lookup
      rw [← lookup]
      cases found_path <;> rfl

theorem tool_turn (shared : SameFiles elf files) (lookup : ∀ name, (elf name).length + 4 < 2 ^ 32) (opened : Open buf off) :
    Tools.Patchdmp.patchModule files none [] before (recordOf buf off) =
      match chosenId elf (toolName buf (nameRva buf off)) (cvSize buf off) with
      | none => .ok none
      | some buildId =>
        packInto before (cvRva buf off) kBpElSignature >>= fun signed =>
          packInto (overwrite signed (cvRva buf off + 4) buildId) (off + kModCvDataSizeOff) (4 + buildId.length) >>=
            fun sized => .ok (some sized) := by
  have unsigned := opened.unsigned
  have present : cvRva buf off ≠ 0 ∧ 4 ≤ cvSize buf off := ⟨opened.present, opened.large⟩
  have location : ¬ (cvRva buf off = 0 ∨ cvSize buf off < 4) := by omega
  have short := lookup (toolName buf (nameRva buf off))
  have exact_size : u32 (4 + u32 (elf (toolName buf (nameRva buf off))).length) =
      4 + (elf (toolName buf (nameRva buf off))).length := by
    rw [u32_of_lt (show (elf (toolName buf (nameRva buf off))).length < 2 ^ 32 by omega), u32_of_lt (by omega)]
  simp only [Tools.Patchdmp.patchModule, recordOf, if_pos present, findBuildId_eq shared, ok_bind]
  rw [show Tools.Patchdmp.bpelSignature = kBpElSignature from rfl, if_neg unsigned, if_neg location, chosenId, exact_size]
  by_cases unnamed : toolName buf (nameRva buf off) = []
  · simp only [unnamed, if_true]
  · by_cases absent : elf (toolName buf (nameRva buf off)) = []
    · simp only [unnamed, absent, if_true, if_false]
    · by_cases large : cvSize buf off < 4 + (elf (toolName buf (nameRva buf off))).length
      · simp only [unnamed, absent, large, if_true, if_false]
      · simp only [unnamed, absent, large, if_false]

theorem turn_agrees (small : buf.length < 2 ^ 32) (lookup : ∀ name, (elf name).length + 4 < 2 ^ 32)
    (shared : SameFiles elf files) (agrees : RecordAgrees elf buf off) (record : off + kModuleSize ≤ buf.length)
    (kept : Unread buf before off) :
    ∃ step, patchModule elf before off = .ok step ∧
      Tools.Patchdmp.patchModule files none [] before (recordOf buf off) = .ok step ∧
      ∀ next, step = some next → ∃ buildId, Picked elf buf off buildId ∧ next.length = buf.length ∧
        ∀ k, ¬ Touched buf off buildId k → next[k]? = before[k]? := by
  by_cases opened : Open buf off
  · have name := kept.text small opened (agrees.name opened)
    rw [tool_turn shared lookup opened]
    cases chosen : chosenId elf (toolName buf (nameRva buf off)) (cvSize buf off) with
    | none =>
      refine ⟨none, ?_, rfl, fun next impossible => (by cases impossible)⟩
      by_cases considered : Considered before off
      · rw [patchModule_considered considered, kept.name, name, Memory.ok_bind, kept.size]
        simp only [chosen]
      · exact patchModule_skipped considered
    | some buildId =>
      obtain ⟨named, found, nonempty, fits⟩ := (chosenId_iff (lookup _)).mp chosen
      have picked : Picked elf buf off buildId := ⟨opened, named, found, nonempty, fits⟩
      have large := agrees.large buildId picked
      have range := agrees.range buildId picked
      have considered : Considered before off := by
        refine ⟨?_, ?_, ?_, ?_⟩
        · rw [kept.location]
          exact opened.present
        · rw [kept.size]
          exact large
        · rw [kept.location, kept.size, kept.length]
          exact Nat.le_trans (u32_le _) range
        · rw [kept.location, kept.signature opened.present opened.large]
          exact opened.unsigned
      have inside : cvRva buf off + 4 + buildId.length ≤ before.length := by
        rw [kept.length]
        omega
      have whole : off + kModuleSize ≤ before.length := by
        rw [kept.length]
        exact record
      have short := lookup (toolName buf (nameRva buf off))
      rw [found] at short
      refine ⟨some (patchedRecord before off (cvRva buf off) buildId), ?_, ?_, fun next same => ?_⟩
      · rw [patchModule_considered considered, kept.name, name, Memory.ok_bind, kept.size, kept.location]
        simp only [chosen]
        exact replaceRecord_eq inside whole (by omega)
      · obtain ⟨signed, sized⟩ := length_writes inside
        simp only
        rw [packInto_inside (by omega) (by decide), ok_bind, packInto_inside ?_ (by omega), ok_bind, patchedRecord]
        simp only [kModuleSize, kModCvDataSizeOff] at whole ⊢
        omega
      · cases same
        refine ⟨buildId, picked, ?_, fun k untouched => ?_⟩
        · rw [length_patchedRecord inside whole, kept.length]
        · exact patchedRecord_frame inside whole (fun range => untouched (.inl range)) fun field => untouched (.inr field)
  · refine ⟨none, patchModule_skipped fun considered => opened ?_, tool_skips opened,
      fun next impossible => (by cases impossible)⟩
    have present := considered.present
    have large := considered.large
    have unsigned := considered.unsigned
    rw [kept.location] at present unsigned
    rw [kept.size] at large
    rw [kept.signature present (by omega)] at unsigned
    exact ⟨present, by omega, unsigned⟩

end Turn

theorem run_agrees {elf : ElfLookup} {files : Files} {buf before : Buffer} {streamRva count remaining i : Nat}
    (patched : Nat) (small : buf.length < 2 ^ 32) (lookup : ∀ name, (elf name).length + 4 < 2 ^ 32)
    (shared : SameFiles elf files) (agrees : Agrees elf buf streamRva count)
    (offset : streamRva + 4 ≤ buf.length) (whole : i + remaining = count) (length : before.length = buf.length)
    (kept : ∀ j < count, i ≤ j → recordOff streamRva j + kModuleSize ≤ buf.length →
      Unread buf before (recordOff streamRva j)) :
    ∃ result, patchModules elf streamRva remaining i before patched = .ok result ∧
      Tools.Patchdmp.patchModules files none [] (toolRecords buf streamRva remaining i) before patched = .ok result := by
  induction remaining generalizing i before patched with
  | zero => exact ⟨(before, patched), rfl, rfl⟩
  | succ remaining ih =>
    have same : modOff streamRva i = recordOff streamRva i := by
      unfold modOff recordOff
      rw [u32_of_lt (by omega)]
    rw [toolRecords]
    by_cases record : recordOff streamRva i + kModuleSize ≤ buf.length
    · rw [if_neg (by omega)]
      have within : i < count := by omega
      obtain ⟨step, daemon, tool, changed⟩ := turn_agrees small lookup shared (agrees.records i within record) record
        (kept i within (Nat.le_refl i) record)
      rw [← same] at daemon
      rw [patchModules_step (by rw [same, length]; exact record) daemon, Tools.Patchdmp.patchModules, tool, ok_bind]
      cases step with
      | none => exact ih patched (by omega) length fun j bound later => kept j bound (by omega)
      | some next =>
        obtain ⟨buildId, picked, size, outside⟩ := changed next rfl
        refine ih (patched + 1) (by omega) size fun j bound later fits => ⟨size, fun k read => ?_⟩
        rw [Option.getD_some, outside k fun touched => agrees.undisturbed j bound fits i (by omega) buildId picked k touched read]
        exact (kept j bound (by omega) fits).same k read
    · rw [if_pos (by omega)]
      exact ⟨(before, patched), patchModules_break (by rw [same, length]; omega), rfl⟩

/-- Both programs leave the same bytes and count the same modules. -/
theorem same_bytes {elf : ElfLookup} {files : Files} {faults : FileFaults} {file : Buffer} (path : ByteString)
    (small : file.length < 2 ^ 32) (lookup : ∀ name, (elf name).length + 4 < 2 ^ 32) (shared : SameFiles elf files)
    (agrees : ∀ streamRva count, ModuleList file streamRva count → Agrees elf file streamRva count)
    (opens : faults.opens = true) (reads : faults.reads = true) (reopens : faults.reopens = true)
    (accepts : file.length ≤ faults.accepts) :
    ∃ out patched status, patchMinidump files none [] file = .ok (out, patched) ∧
      patchMissingBuildIds elf faults path file = .ok (status, out) ∧
      (patchLoaded elf file = .ok none ∧ patched = 0 ∨ patchLoaded elf file = .ok (some (out, patched))) := by
  rw [patchMissingBuildIds_loaded opens reads, patchMinidump]
  by_cases listed : ∃ streamRva count, ModuleList file streamRva count
  · obtain ⟨streamRva, count, list⟩ := listed
    have start : ∃ result, patchModules elf streamRva count 0 file 0 = .ok result ∧
        Tools.Patchdmp.patchModules files none [] (toolRecords file streamRva count 0) file 0 = .ok result := by
      cases count with
      | zero => exact ⟨(file, 0), rfl, rfl⟩
      | succ count =>
        have offset := inside_of_getU32_ne_zero (show getU32 file streamRva ≠ 0 by rw [list.records]; omega)
        exact run_agrees 0 small lookup shared (agrees _ _ list) offset (Nat.zero_add _) rfl
          fun j _ _ _ => ⟨rfl, fun _ _ => rfl⟩
    obtain ⟨⟨out, patched⟩, daemon, tool⟩ := start
    have size := (length_patchModules daemon).1
    refine ⟨out, patched, .ok (), ?_, ?_, .inr ?_⟩
    · rw [iterModules_list list, ok_bind, tool]
    · rw [patchLoaded_list list, daemon, Memory.ok_bind, Memory.ok_bind, rewriteFile_whole reopens (by omega)]
      intro none
      subst none
      exact patchModules_unchanged daemon
    · rw [patchLoaded_list list, daemon, Memory.ok_bind]
  · have absent (streamRva count : Nat) : ¬ ModuleList file streamRva count := fun list => listed ⟨_, _, list⟩
    rw [iterModules_no_list small absent, ok_bind]
    rcases patchLoaded_no_list elf absent with rejected | empty
    · exact ⟨file, 0, _, rfl, by rw [rejected]; rfl, .inl ⟨rejected, rfl⟩⟩
    · exact ⟨file, 0, .ok (), rfl, by rw [empty]; rfl, .inr empty⟩

/-- On a dump laid out without overlaps only NULs in a name and records of less
than 20 bytes can tell the two programs apart. -/
theorem laidOut_agrees {elf : ElfLookup} {buf : Buffer} {streamRva count : Nat} (formed : LaidOut buf streamRva count)
    (plain : ∀ i < count, nameRva buf (recordOff streamRva i) ≠ 0 →
      PlainBytes (slice buf (nameRva buf (recordOff streamRva i) + 4) (getU32 buf (nameRva buf (recordOff streamRva i)))))
    (large : ∀ i < count, ∀ buildId, Picked elf buf (recordOff streamRva i) buildId →
      4 + kXorHashSize ≤ cvSize buf (recordOff streamRva i)) : Agrees elf buf streamRva count := by
  refine ⟨fun i within _ => ⟨fun _ => ⟨fun named => ?_, fun unnamed guarded => unnamed ?_⟩, large i within, ?_⟩, ?_⟩
  · exact plain i within named.present
  · have located := (formed.names i within guarded.present).located.file
    exact ⟨guarded.present, guarded.nonempty, by omega⟩
  · exact fun _ _ => (formed.ranges i within).file
  · intro j bound _ i earlier buildId picked k touched read
    have within : i < count := by omega
    have fits := picked.fits
    have inside := record_inside streamRva within
    have listed (field : InRange k (recordOff streamRva i + kModCvDataSizeOff) 4) :
        InRange k streamRva (4 + count * kModuleSize) := by
      simp only [InRange, recordOff, kModuleSize, kModCvDataSizeOff] at field inside ⊢
      omega
    -- A field of record `j` lies behind record `i` and in the module list.
    have record (offset length : Nat) (small : offset + length ≤ kModuleSize)
        (member : InRange k (recordOff streamRva j + offset) length) : False := by
      have last := record_inside streamRva bound
      have apart := records_apart streamRva earlier
      rcases touched with ⟨after, upper⟩ | field
      · refine formed.cv_list i within k ⟨after, by omega⟩ ?_
        simp only [InRange, recordOff, kModuleSize] at member last small ⊢
        omega
      · simp only [InRange, kModuleSize, kModCvDataSizeOff] at field member apart
        omega
    have other (start length : Nat) (member : InRange k start length)
        (list : Apart streamRva (4 + count * kModuleSize) start length)
        (cv : Apart (cvRva buf (recordOff streamRva i)) (cvSize buf (recordOff streamRva i)) start length) : False := by
      rcases touched with ⟨after, upper⟩ | field
      · exact cv k ⟨after, by omega⟩ member
      · exact list k (listed field) member
    rcases read with field | field | ⟨present, size, signature⟩ | ⟨_, present, name⟩
    · exact record kModNameRvaOff 4 (by decide) field
    · exact record kModCvDataSizeOff 8 (by decide) field
    · refine other (cvRva buf (recordOff streamRva j)) (cvSize buf (recordOff streamRva j)) ⟨signature.1, ?_⟩ ?_ ?_
      · have upper := signature.2
        omega
      · exact fun position list range => formed.cv_list j bound position range list
      · exact formed.cv_apart i within j bound (by omega)
    · refine other (nameRva buf (recordOff streamRva j)) (4 + getU32 buf (nameRva buf (recordOff streamRva j))) ?_
        (formed.list_names j bound present) (formed.cv_names i within j bound present)
      rcases name with ⟨after, upper⟩ | ⟨_, after, upper⟩
      · exact ⟨after, by omega⟩
      · exact ⟨by omega, by omega⟩

def eightBytes : ElfLookup := fun _ => List.replicate 8 7

def eightByteFiles : Files := ⟨fun _ => .ok true, fun _ => .ok (some (List.replicate 8 7))⟩

theorem twoModules_same_bytes :
    ∃ out patched status, patchMinidump eightByteFiles none [] twoModules = .ok (out, patched) ∧
      patchMissingBuildIds eightBytes healthy (ascii "two.dmp") twoModules = .ok (status, out) ∧
      (patchLoaded eightBytes twoModules = .ok none ∧ patched = 0 ∨
        patchLoaded eightBytes twoModules = .ok (some (out, patched))) := by
  refine same_bytes (ascii "two.dmp") (by decide +kernel) (fun _ => (by decide : 8 + 4 < 2 ^ 32)) (fun _ => rfl) ?_ rfl rfl rfl (by decide +kernel)
  intro streamRva count list
  have directory : findModuleStream twoModules (getU32 twoModules 12) (getU32 twoModules 8) 0 = .ok 44 := by decide +kernel
  have records : getU32 twoModules 44 = 2 := by decide +kernel
  rw [list.directory] at directory
  cases directory
  rw [list.records] at records
  subst records
  refine laidOut_agrees twoModules_laidOut ?_ fun i within buildId _ => ?_
  · decide +kernel
  · have sizes : ∀ i < 2, 4 + kXorHashSize ≤ cvSize twoModules (recordOff 44 i) := by decide +kernel
    exact sizes i within

/-- A CodeView record of 12 bytes; a name outside ASCII; a record whose declared
size runs past the end; and two modules with one record of 24 bytes between them. -/
def distinguishing : List Buffer :=
  [dumpOf [(156, 12, 162)] (le32 2 ++ [97, 0] ++ List.replicate 12 1),
    dumpOf [(156, 20, 162)] (le32 2 ++ [0xE9, 0] ++ List.replicate 20 1),
    dumpOf [(156, 40, 162)] (le32 2 ++ [97, 0] ++ List.replicate 20 1),
    dumpOf [(264, 24, 270), (264, 24, 270)] (le32 2 ++ [97, 0] ++ List.replicate 24 1)]

theorem distinguishing_differ :
    SameFiles eightBytes eightByteFiles ∧ ∀ file ∈ distinguishing, file.length < 2 ^ 32 ∧
      ¬ ∃ out patched status, patchMinidump eightByteFiles none [] file = .ok (out, patched) ∧
        patchMissingBuildIds eightBytes healthy (ascii "differ.dmp") file = .ok (status, out) := by
  have differ : ∀ file ∈ distinguishing, file.length < 2 ^ 32 ∧
      (patchMinidump eightByteFiles none [] file).toOption.map Prod.fst ≠
        (patchMissingBuildIds eightBytes healthy (ascii "differ.dmp") file).toOption.map Prod.snd := by decide +kernel
  refine ⟨fun _ => rfl, fun file member => ⟨(differ file member).1, fun ⟨out, patched, status, tool, daemon⟩ => ?_⟩⟩
  exact (differ file member).2 (by rw [tool, daemon]; rfl)

end Crashomon.Proofs.PatcherAgreement
