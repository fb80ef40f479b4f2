import Crashomon.Base.Utf16
import Crashomon.Proofs.PatcherFrame

/-! Which file a patched module's build ID comes from. The patcher drops the NUL and
non-ASCII units of a recorded path, so that what is left may lead to another file. -/

namespace Crashomon.Proofs.RecordedPaths
open Bytes Memory Python Daemon.MinidumpPatcher PatcherSteps PatcherBounds PatcherFile PatcherFrame

def recordedName (file : Buffer) (off : Nat) : List UInt8 :=
  slice file (nameRva file off + 4) (getU32 file (nameRva file off))

/-- UTF-16 text inside the file. -/
structure WideName (file : Buffer) (off : Nat) : Prop where
  located : Located file (nameRva file off) (4 + getU32 file (nameRva file off))
  encoded : ∃ text, recordedName file off = encodeUtf16le text

def recordedPath (file : Buffer) (off : Nat) : Text :=
  if nameRva file off = 0 then [] else decodeUtf16le (recordedName file off)

/-- What the file at the recorded path gives. No file has an empty path or one with a NUL in it. -/
def recordedId (elf : ElfLookup) (file : Buffer) (off : Nat) : List UInt8 :=
  if recordedPath file off = [] ∨ '\x00' ∈ recordedPath file off then [] else elf (recordedPath file off)

/-- The loop comes to record `i` of the file's module list. -/
structure Comes (elf : ElfLookup) (file : Buffer) (streamRva i : Nat) (before : Buffer) : Prop where
  listed : ∃ count, ModuleList file streamRva count ∧ i < count
  inside : modOff streamRva i + kModuleSize ≤ file.length
  reached : Reaches elf streamRva 0 file 0 i before

/-- The byte belongs to the size of the CodeView record in the module record at `off`. -/
def InSize (off k : Nat) : Prop := InRange k (off + kModCvDataSizeOff) 4

instance (off k : Nat) : Decidable (InSize off k) := inferInstanceAs (Decidable (_ ∧ _))

/-- The written record: the signature with the build ID behind it, and their size. The size is written last, over
a record that reaches into the module record. -/
structure Carries (before next : Buffer) (off : Nat) (buildId : List UInt8) : Prop where
  record : ∀ k < 4 + buildId.length, ¬ InSize off (cvRva before off + k) →
    next[cvRva before off + k]? = (le32 kBpElSignature ++ buildId)[k]?
  size : cvSize next off = u32 (4 + buildId.length)

/-- Whenever a module is patched, what is written is the build ID of the file at the path in the dump, and there is one. -/
def RightFiles (elf : ElfLookup) (file : Buffer) : Prop :=
  ∀ streamRva i before next, Comes elf file streamRva i before → patchModule elf before (modOff streamRva i) = .ok (some next) →
    recordedId elf file (modOff streamRva i) ≠ [] ∧
      Carries before next (modOff streamRva i) (recordedId elf file (modOff streamRva i))

/-- No patch behind record `i` changes the byte. -/
def LeftAlone (elf : ElfLookup) (file : Buffer) (streamRva i k : Nat) : Prop :=
  ∀ j before next, i < j → Comes elf file streamRva j before → patchModule elf before (modOff streamRva j) = .ok (some next) →
    next[k]? = before[k]?

/-- The guards let the record at `off` get the build ID of the file at `path`. -/
structure PatchesWith (elf : ElfLookup) (before : Buffer) (off : Nat) (path : Text) (buildId : List UInt8) : Prop where
  considered : Considered before off
  read : readModuleName before (nameRva before off) = .ok path
  chosen : chosenId elf path (cvSize before off) = some buildId
  room : cvRva before off + 4 + buildId.length ≤ before.length

/-- Two build IDs that make the same record. Under the size of the record their bytes may differ. -/
structure Alike (before : Buffer) (off : Nat) (written recorded : List UInt8) : Prop where
  present : recorded ≠ []
  size : u32 (4 + written.length) = u32 (4 + recorded.length)
  bytes : ∀ k < recorded.length, ¬ InSize off (cvRva before off + 4 + k) →
    (written ++ before.drop (cvRva before off + 4 + written.length))[k]? = recorded[k]?

def WellNamed (file : Buffer) : Prop :=
  ∀ streamRva count i, ModuleList file streamRva count → i < count → modOff streamRva i + kModuleSize ≤ file.length →
    nameRva file (modOff streamRva i) ≠ 0 → WideName file (modOff streamRva i)

def Plain (character : Char) : Prop := character.toNat < 128 ∧ character.toNat ≠ 0

instance (character : Char) : Decidable (Plain character) := inferInstanceAs (Decidable (_ ∧ _))

/-- The name stands in the buffer as it stands in the file. -/
structure NameKept (file before : Buffer) (off : Nat) : Prop where
  place : nameRva before off = nameRva file off
  bytes : ∀ k, InRange k (nameRva file off) (4 + getU32 file (nameRva file off)) → before[k]? = file[k]?

/-- Whatever files there are, a record that is patched has a plain path. Where earlier
patches have overwritten its name, the file it leads to has the same build ID. -/
def PathsKept (file : Buffer) : Prop :=
  ∀ elf streamRva i before path buildId, Comes elf file streamRva i before →
    PatchesWith elf before (modOff streamRva i) path buildId →
      (∀ character ∈ recordedPath file (modOff streamRva i), Plain character) ∧
        (NameKept file before (modOff streamRva i) ∨
          Alike before (modOff streamRva i) buildId (recordedId elf file (modOff streamRva i)))

section Names

theorem asciiUnits_unit {value : Nat} (small : value < 0x10000) (rest : List UInt8) :
    asciiUnits (unit16 value ++ rest) = (if value < 128 ∧ value ≠ 0 then [Char.ofNat value] else []) ++ asciiUnits rest := by
  have same := unit16_value small
  simp only [unit16, List.cons_append, List.nil_append, asciiUnits, same]

/-- The fast path drops every other character. -/
theorem asciiUnits_encodeUtf16le (text : Text) : asciiUnits (encodeUtf16le text) = text.filter Plain := by
  induction text with
  | nil => rfl
  | cons character text ih =>
    have valid : character.toNat < 0xD800 ∨ 0xDFFF < character.toNat ∧ character.toNat < 0x110000 := character.valid
    rw [encodeUtf16le, List.flatMap_cons, encodeUtf16Char]
    split
    next small =>
      rw [asciiUnits_unit small, Char.ofNat_toNat]
      by_cases plain : character.toNat < 128 ∧ character.toNat ≠ 0
      · have kept : Plain character := plain
        rw [if_pos plain, List.filter_cons_of_pos (by simpa using kept), ← ih]
        rfl
      · have dropped : ¬ Plain character := plain
        rw [if_neg plain, List.filter_cons_of_neg (by simpa using dropped), ← ih]
        rfl
    next large =>
      have foreign : ¬ Plain character := fun plain => large (Nat.lt_trans plain.1 (by decide))
      rw [List.append_assoc, asciiUnits_unit (by omega), asciiUnits_unit (by omega), if_neg (by omega), if_neg (by omega),
        List.filter_cons_of_neg (by simpa using foreign), ← ih]
      rfl

theorem plain_units {buf : Buffer} {rva units i : Nat} {before path : Text}
    (read : readModuleNameUnits buf rva units i before = .ok path) (plain : ∀ character ∈ before, Plain character) :
    ∀ character ∈ path, Plain character := by
  induction units generalizing i before with
  | zero =>
    cases read
    exact plain
  | succ units ih =>
    rw [readModuleNameUnits] at read
    obtain ⟨lo, _, read⟩ := bind_ok.mp read
    obtain ⟨hi, _, read⟩ := bind_ok.mp read
    refine ih read ?_
    split
    next kept =>
      have value : (Char.ofNat (lo.toNat ||| hi.toNat <<< 8)).toNat = lo.toNat ||| hi.toNat <<< 8 :=
        toNat_ofNat_valid (Or.inl (by omega))
      refine List.forall_mem_append.mpr ⟨plain, List.forall_mem_singleton.mpr ?_⟩
      rw [Plain, value]
      exact kept
    next => exact plain

theorem plain_name {buf : Buffer} {rva : Nat} {path : Text} (read : readModuleName buf rva = .ok path) :
    ∀ character ∈ path, Plain character := by
  by_cases guarded : NameRead buf rva
  · rw [readModuleName_guarded guarded] at read
    exact plain_units read (List.forall_mem_nil _)
  · rw [readModuleName_skipped guarded] at read
    cases read
    exact List.forall_mem_nil _

theorem recordedPath_wide {file : Buffer} {off : Nat} {text : Text} (present : nameRva file off ≠ 0)
    (encoded : recordedName file off = encodeUtf16le text) : recordedPath file off = text := by
  rw [recordedPath, if_neg present, encoded, decodeUtf16le_encodeUtf16le]

/-- A name that stands as in the file is looked up under its plain characters. -/
theorem kept_path {file before : Buffer} {off : Nat} {path : Text} (size : before.length = file.length)
    (wide : nameRva file off ≠ 0 → WideName file off) (kept : NameKept file before off)
    (read : readModuleName before (nameRva before off) = .ok path) (nonempty : path ≠ []) :
    path = (recordedPath file off).filter Plain := by
  rw [kept.place] at read
  have guarded : NameRead before (nameRva file off) := by
    by_contra skipped
    rw [readModuleName_skipped skipped] at read
    cases read
    exact nonempty rfl
  obtain ⟨located, text, encoded⟩ := wide guarded.present
  have length : getU32 before (nameRva file off) = getU32 file (nameRva file off) :=
    getU32_congr size fun k within => kept.bytes k ⟨within.1, by have upper := within.2; omega⟩
  have bytes : slice before (nameRva file off + 4) (getU32 file (nameRva file off)) = recordedName file off :=
    slice_congr fun k after upper => kept.bytes k ⟨by omega, by omega⟩
  have file_end := located.file
  have address := located.address
  rw [readModuleName_straight guarded (by rw [length]; omega) (by rw [length, size]; omega), length, bytes, encoded,
    asciiUnits_encodeUtf16le] at read
  rw [recordedPath_wide guarded.present encoded]
  cases read
  rfl

end Names

section Lookups
variable {elf other : ElfLookup}

/-- Two file systems that agree on the paths the patcher can form. -/
def AgreeOnPlain (elf other : ElfLookup) : Prop := ∀ path, (∀ character ∈ path, Plain character) → elf path = other path

theorem AgreeOnPlain.chosenId (agree : AgreeOnPlain elf other) {path : Text} (plain : ∀ character ∈ path, Plain character)
    (size : Nat) : chosenId elf path size = chosenId other path size := by
  rw [PatcherSteps.chosenId, agree path plain]
  rfl

theorem AgreeOnPlain.patchModule (agree : AgreeOnPlain elf other) (buf : Buffer) (off : Nat) :
    patchModule elf buf off = patchModule other buf off := by
  by_cases considered : Considered buf off
  · rw [patchModule_considered considered, patchModule_considered considered]
    cases read : readModuleName buf (nameRva buf off) with
    | error fault => rfl
    | ok path =>
      rw [Memory.ok_bind, Memory.ok_bind, agree.chosenId (plain_name read)]
  · rw [patchModule_skipped considered, patchModule_skipped considered]

theorem AgreeOnPlain.patchModules (agree : AgreeOnPlain elf other) (streamRva remaining i : Nat) (buf : Buffer)
    (patched : Nat) :
    patchModules elf streamRva remaining i buf patched = patchModules other streamRva remaining i buf patched := by
  induction remaining generalizing i buf patched with
  | zero => rfl
  | succ remaining ih =>
    rw [Daemon.MinidumpPatcher.patchModules, Daemon.MinidumpPatcher.patchModules, agree.patchModule]
    simp only [ih]

theorem Comes.agree (agree : AgreeOnPlain elf other) {file before : Buffer} {streamRva i : Nat}
    (comes : Comes elf file streamRva i before) : Comes other file streamRva i before := by
  refine ⟨comes.listed, comes.inside, ?_⟩
  obtain ⟨count, reached⟩ := comes.reached
  exact ⟨count, agree.patchModules .. ▸ reached⟩

theorem PatchesWith.agree (agree : AgreeOnPlain elf other) {before : Buffer} {off : Nat} {path : Text} {buildId : List UInt8}
    (patches : PatchesWith elf before off path buildId) : PatchesWith other before off path buildId :=
  ⟨patches.considered, patches.read, agree.chosenId (plain_name patches.read) _ ▸ patches.chosen, patches.room⟩

end Lookups

section Records
variable {elf : ElfLookup} {file before next : Buffer} {streamRva i off cv : Nat} {path : Text} {buildId other : List UInt8}

theorem PatchesWith.found (patches : PatchesWith elf before off path buildId) :
    path ≠ [] ∧ buildId ≠ [] ∧ elf path = buildId := by
  have chosen := patches.chosen
  unfold PatcherSteps.chosenId at chosen
  split at chosen
  next => cases chosen
  next named =>
    split at chosen
    next => cases chosen
    next found =>
      split at chosen
      next => cases chosen
      next =>
        cases chosen
        exact ⟨named, found, rfl⟩

/-- The three writes of a patch. -/
def writes (buf : Buffer) (off cv : Nat) (buildId : List UInt8) : Buffer :=
  overwrite (overwrite (overwrite buf cv (le32 kBpElSignature)) (cv + 4) buildId) (off + kModCvDataSizeOff)
    (le32 (u32 (4 + u32 buildId.length)))

theorem replaceRecord_writes (room : cv + 4 + buildId.length ≤ before.length) (record : off + kModuleSize ≤ before.length) :
    replaceRecord before off cv buildId = .ok (some (writes before off cv buildId)) := by
  obtain ⟨signed, named⟩ := length_writes room
  unfold kModuleSize at record
  rw [replaceRecord, writeU32_inside (by omega), Memory.ok_bind, store_inside (by omega), Memory.ok_bind,
    writeU32_inside (by simp only [kModCvDataSizeOff]; omega), Memory.ok_bind, writes]

theorem PatchesWith.patched (patches : PatchesWith elf before off path buildId) (record : off + kModuleSize ≤ before.length) :
    patchModule elf before off = .ok (some (writes before off (cvRva before off) buildId)) := by
  rw [patchModule_considered patches.considered, patches.read, Memory.ok_bind]
  simp only [patches.chosen]
  exact replaceRecord_writes patches.room record

/-- A record is patched only so. -/
theorem patchesWith_of_patched (patched : patchModule elf before off = .ok (some next)) :
    ∃ path buildId, PatchesWith elf before off path buildId := by
  obtain ⟨considered, path, buildId, read, chosen⟩ := (patchModule_some_iff patched).mp ⟨next, rfl⟩
  rw [patchModule_considered considered, read, Memory.ok_bind] at patched
  simp only [chosen] at patched
  obtain ⟨signed, first, same⟩ := safe_writeU32 before (cvRva before off) kBpElSignature
  rw [replaceRecord, first, Memory.ok_bind] at patched
  obtain ⟨named, copied, _⟩ := bind_ok.mp patched
  exact ⟨path, buildId, considered, read, chosen, same ▸ safe_store.mp ⟨named, copied⟩⟩

/-- What stands in the record after the writes, outside its size. -/
theorem getElem?_writes (room : cv + 4 + buildId.length ≤ before.length) (record : off + kModuleSize ≤ before.length) {k : Nat}
    (apart : ¬ InSize off (cv + k)) :
    (writes before off cv buildId)[cv + k]? =
      (le32 kBpElSignature ++ buildId ++ before.drop (cv + 4 + buildId.length))[k]? := by
  obtain ⟨signed, named⟩ := length_writes room
  unfold kModuleSize at record
  unfold InSize InRange kModCvDataSizeOff at apart
  rw [writes, getElem?_overwrite_outside (by simp only [length_le32, kModCvDataSizeOff]; omega)
    (by simp only [length_le32, kModCvDataSizeOff]; omega)]
  by_cases first : k < 4
  · rw [getElem?_overwrite_outside (by omega) (by omega), getElem?_overwrite_inside (by simp only [length_le32]; omega) (by omega)
      (by simp only [length_le32]; omega), Nat.add_sub_cancel_left, List.append_assoc, List.getElem?_append_left first]
  · by_cases second : k < 4 + buildId.length
    · rw [getElem?_overwrite_inside (by omega) (by omega) (by omega), List.getElem?_append_left (by
        rw [List.length_append, length_le32]; exact second), List.getElem?_append_right (by rw [length_le32]; omega), length_le32]
      congr 1
      omega
    · rw [getElem?_overwrite_outside (by omega) (by omega), getElem?_overwrite_outside (by simp only [length_le32]; omega)
        (by simp only [length_le32]; omega), List.getElem?_append_right (by rw [List.length_append, length_le32]; omega),
        List.getElem?_drop, List.length_append, length_le32]
      congr 1
      omega

theorem cvSize_writes (room : cv + 4 + buildId.length ≤ before.length) (record : off + kModuleSize ≤ before.length) :
    cvSize (writes before off cv buildId) off = u32 (4 + buildId.length) := by
  obtain ⟨signed, named⟩ := length_writes room
  unfold kModuleSize at record
  have inside : off + kModCvDataSizeOff + 4 ≤ before.length := by simp only [kModCvDataSizeOff]; omega
  have length : (writes before off cv buildId).length = before.length := by
    rw [writes, length_overwrite (by simp only [length_le32]; omega), named]
  rw [cvSize, getU32_inside (by omega), writes, word_overwrite_self (by omega) (u32_lt _)]
  simp only [u32]
  omega

theorem getElem?_behind_signature (rest : List UInt8) (k : Nat) : (le32 kBpElSignature ++ rest)[4 + k]? = rest[k]? := by
  rw [List.getElem?_append_right (by rw [length_le32]; omega), length_le32, Nat.add_sub_cancel_left]

/-- The writes carry a build ID exactly where it makes the same record as the one that is written. -/
theorem carries_iff (room : cvRva before off + 4 + buildId.length ≤ before.length) (record : off + kModuleSize ≤ before.length)
    (present : other ≠ []) :
    Carries before (writes before off (cvRva before off) buildId) off other ↔ Alike before off buildId other := by
  constructor
  · rintro ⟨bytes, size⟩
    refine ⟨present, (cvSize_writes room record).symm.trans size, fun k within apart => ?_⟩
    have own := bytes (4 + k) (by omega) (by rwa [← Nat.add_assoc])
    rw [getElem?_writes room record (by rwa [← Nat.add_assoc]), List.append_assoc, getElem?_behind_signature,
      getElem?_behind_signature] at own
    exact own
  · rintro ⟨_, size, bytes⟩
    refine ⟨fun k within apart => ?_, (cvSize_writes room record).trans size⟩
    rw [getElem?_writes room record apart, List.append_assoc]
    by_cases first : k < 4
    · rw [List.getElem?_append_left first, List.getElem?_append_left first]
    · obtain ⟨k, rfl⟩ := Nat.exists_eq_add_of_le (Nat.le_of_not_lt first)
      rw [getElem?_behind_signature, getElem?_behind_signature]
      exact bytes k (by omega) (by rwa [Nat.add_assoc])

theorem alike_self (nonempty : buildId ≠ []) : Alike before off buildId buildId :=
  ⟨nonempty, rfl, fun _ within _ => List.getElem?_append_left within⟩

end Records

section Output
variable {elf : ElfLookup} {file : Buffer} {streamRva : Nat}

theorem Comes.inside_before {before : Buffer} {i : Nat} (comes : Comes elf file streamRva i before) :
    modOff streamRva i + kModuleSize ≤ before.length := by
  obtain ⟨_, reached⟩ := comes.reached
  rw [(length_patchModules reached).1]
  exact comes.inside

theorem patchModules_split (first rest i : Nat) (buf : Buffer) (patched : Nat) :
    patchModules elf streamRva (first + rest) i buf patched =
      patchModules elf streamRva first i buf patched >>= fun middle => patchModules elf streamRva rest (i + first) middle.1 middle.2 := by
  induction first generalizing i buf patched with
  | zero => rw [Nat.zero_add, patchModules, Memory.ok_bind, Nat.add_zero]
  | succ first ih =>
    rw [Nat.succ_add]
    by_cases inside : modOff streamRva i + kModuleSize ≤ buf.length
    · cases turn : patchModule elf buf (modOff streamRva i) with
      | error fault =>
        rw [patchModules, patchModules, if_neg (by omega), if_neg (by omega), turn]
        rfl
      | ok step =>
        rw [patchModules_step inside turn, patchModules_step inside turn, ih, Nat.add_right_comm, Nat.add_assoc]
    · have later : buf.length < modOff streamRva (i + (first + 1)) + kModuleSize := by
        simp only [modOff, Nat.add_mul] at inside ⊢
        omega
      rw [patchModules_break (by omega), patchModules_break (by omega), Memory.ok_bind, patchModules_break later]

/-- Behind record `i` the loop leaves a byte alone that no patch there changes. -/
theorem patchModules_keeps {count i k m n remaining : Nat} {buf out : Buffer} (list : ModuleList file streamRva count)
    (bound : i + remaining = count) (reached : patchModules elf streamRva i 0 file 0 = .ok (buf, m))
    (ended : patchModules elf streamRva remaining i buf m = .ok (out, n))
    (alone : ∀ j before next, i ≤ j → Comes elf file streamRva j before →
      patchModule elf before (modOff streamRva j) = .ok (some next) → next[k]? = before[k]?) : out[k]? = buf[k]? := by
  induction remaining generalizing i buf m with
  | zero =>
    cases ended
    rfl
  | succ remaining ih =>
    have size := (length_patchModules reached).1
    by_cases inside : modOff streamRva i + kModuleSize ≤ buf.length
    · obtain ⟨step, turn⟩ := safe_turn inside ⟨_, ended⟩
      rw [patchModules_step inside turn] at ended
      have grown : patchModules elf streamRva (i + 1) 0 file 0 = .ok (step.getD buf, m + step.toList.length) := by
        rw [patchModules_split, reached, Memory.ok_bind, Nat.zero_add]
        exact patchModules_step inside turn
      have later := ih (by omega) grown ended fun j before next after => alone j before next (by omega)
      rw [later]
      cases step with
      | none => rfl
      | some next =>
        exact alone i buf next (Nat.le_refl i) ⟨⟨count, list, by omega⟩, by rw [← size]; exact inside, m, reached⟩ turn
    · rw [patchModules_break (by omega)] at ended
      cases ended
      rfl

/-- What a patch writes is in the buffer that the function writes back, but for what later patches write over it. -/
theorem patch_in_output {i k patched : Nat} {before next out : Buffer} (comes : Comes elf file streamRva i before)
    (turn : patchModule elf before (modOff streamRva i) = .ok (some next)) (alone : LeftAlone elf file streamRva i k)
    (loaded : patchLoaded elf file = .ok (some (out, patched))) : out[k]? = next[k]? := by
  obtain ⟨count, list, within⟩ := comes.listed
  obtain ⟨m, reached⟩ := comes.reached
  have grown : patchModules elf streamRva (i + 1) 0 file 0 = .ok (next, m + 1) := by
    rw [patchModules_split, reached, Memory.ok_bind, Nat.zero_add]
    exact patchModules_step comes.inside_before turn
  rw [patchLoaded_list list, show count = i + 1 + (count - (i + 1)) from by omega, patchModules_split, grown, Memory.ok_bind,
    Nat.zero_add] at loaded
  obtain ⟨result, ended, same⟩ := bind_ok.mp loaded
  cases same
  exact patchModules_keeps list (by omega) grown ended fun j before next after => alone j before next (by omega)

end Output

/-- Every patched module gets the build ID of the file at its recorded path, whatever
files there are, exactly when only plain paths are looked up. -/
theorem right_files_iff (file : Buffer) (named : WellNamed file) :
    ((∀ elf, RightFiles elf file) ↔ PathsKept file) ∧
      ∀ elf out patched, patchLoaded elf file = .ok (some (out, patched)) →
        ∀ streamRva i before next, Comes elf file streamRva i before →
          patchModule elf before (modOff streamRva i) = .ok (some next) →
            ∀ k, LeftAlone elf file streamRva i k → out[k]? = next[k]? := by
  refine ⟨⟨fun right elf streamRva i before path buildId comes patches => ?_, fun kept elf streamRva i before next comes patched => ?_⟩,
    fun elf out patched loaded streamRva i before next comes turn k alone => patch_in_output comes turn alone loaded⟩
  · have patched := patches.patched comes.inside_before
    obtain ⟨present, carries⟩ := right elf streamRva i before _ comes patched
    refine ⟨?_, Or.inr ((carries_iff patches.room comes.inside_before present).mp carries)⟩
    by_contra foreign
    -- Without the recorded file the patcher does the same, because it never asks for it.
    have agree : AgreeOnPlain elf fun other => if other = recordedPath file (modOff streamRva i) then [] else elf other := by
      intro other plain
      have apart : other ≠ recordedPath file (modOff streamRva i) := fun same => foreign (same ▸ plain)
      exact (if_neg apart).symm
    have missing := (right _ streamRva i before _ (comes.agree agree) (agree.patchModule before _ ▸ patched)).1
    rw [recordedId, if_pos rfl, ite_self] at missing
    exact missing rfl
  · obtain ⟨path, buildId, patches⟩ := patchesWith_of_patched patched
    obtain rfl := Option.some.inj (Except.ok.inj ((patches.patched comes.inside_before).symm.trans patched))
    obtain ⟨nonempty, identified, found⟩ := patches.found
    obtain ⟨plain, same | alike⟩ := kept elf streamRva i before path buildId comes patches
    · obtain ⟨count, list, within⟩ := comes.listed
      obtain ⟨_, reached⟩ := comes.reached
      have path_eq := kept_path (length_patchModules reached).1 (named streamRva count i list within comes.inside) same
        patches.read nonempty
      rw [List.filter_eq_self.mpr fun character member => decide_eq_true (plain character member)] at path_eq
      have readable : ¬ (recordedPath file (modOff streamRva i) = [] ∨ '\x00' ∈ recordedPath file (modOff streamRva i)) := by
        rintro (empty | nul)
        · exact nonempty (path_eq.trans empty)
        · exact (plain _ nul).2 rfl
      have own : recordedId elf file (modOff streamRva i) = buildId := by rw [recordedId, if_neg readable, ← path_eq, found]
      rw [own]
      exact ⟨identified, (carries_iff patches.room comes.inside_before identified).mpr (alike_self identified)⟩
    · exact ⟨alike.present, (carries_iff patches.room comes.inside_before alike.present).mpr alike⟩

section OneModule
variable {file : Buffer}

theorem ModuleList.unique {streamRva count other size : Nat} (list : ModuleList file streamRva count)
    (again : ModuleList file other size) : other = streamRva ∧ size = count := by
  have same := again.directory
  rw [list.directory] at same
  cases same
  exact ⟨rfl, again.records.symm.trans list.records⟩

theorem Comes.only {elf : ElfLookup} {before : Buffer} {streamRva other i : Nat} (list : ModuleList file streamRva 1)
    (comes : Comes elf file other i before) : other = streamRva ∧ i = 0 ∧ before = file := by
  obtain ⟨size, again, within⟩ := comes.listed
  obtain ⟨rfl, rfl⟩ := ModuleList.unique list again
  obtain rfl : i = 0 := by omega
  obtain ⟨count, reached⟩ := comes.reached
  cases reached
  exact ⟨rfl, rfl, rfl⟩

theorem wellNamed_of_one {streamRva : Nat} (list : ModuleList file streamRva 1) (wide : WideName file (modOff streamRva 0)) :
    WellNamed file := by
  intro other count i again within _ _
  obtain ⟨rfl, rfl⟩ := ModuleList.unique list again
  obtain rfl : i = 0 := by omega
  exact wide

end OneModule

theorem unpatchedDump_list : ModuleList unpatchedDump 44 1 :=
  ⟨by decide +kernel, by decide +kernel, by decide +kernel, by decide, by decide +kernel, by decide +kernel, by decide⟩

theorem unpatchedDump_name : WideName unpatchedDump (modOff 44 0) :=
  ⟨by decide +kernel, ['a'], by decide +kernel⟩

theorem plain_path_finds_own_file : RightFiles (fun path => if path = ['a'] then List.replicate 16 7 else []) unpatchedDump := by
  refine (right_files_iff unpatchedDump (wellNamed_of_one unpatchedDump_list unpatchedDump_name)).1.mpr ?_ _
  intro elf streamRva i before path buildId comes patches
  obtain ⟨rfl, rfl, rfl⟩ := comes.only unpatchedDump_list
  have plain : (recordedPath unpatchedDump (modOff 44 0)).all fun character => Plain character := by decide +kernel
  refine ⟨fun character member => ?_, Or.inl ⟨rfl, fun _ _ => rfl⟩⟩
  exact of_decide_eq_true (List.all_eq_true.mp plain character member)

/-- The name is "aé", of which the patcher keeps "a". -/
def droppedLetter : Buffer := dumpOf [(156, 20, 164)] (le32 4 ++ [97, 0, 0xE9, 0] ++ List.replicate 20 1)

theorem droppedLetter_list : ModuleList droppedLetter 44 1 :=
  ⟨by decide +kernel, by decide +kernel, by decide +kernel, by decide, by decide +kernel, by decide +kernel, by decide⟩

theorem droppedLetter_name : WideName droppedLetter (modOff 44 0) :=
  ⟨by decide +kernel, ['a', '\u00E9'], by decide +kernel⟩

theorem dropped_letter_borrows_id : ¬ ∀ file, WellNamed file → ∀ elf, RightFiles elf file := by
  intro right
  have named := wellNamed_of_one droppedLetter_list droppedLetter_name
  let elf : ElfLookup := fun path => if path = ['a'] then List.replicate 16 7 else []
  have comes : Comes elf droppedLetter 44 0 droppedLetter :=
    ⟨⟨1, droppedLetter_list, by decide⟩, by decide +kernel, 0, rfl⟩
  have considered : Considered droppedLetter (modOff 44 0) :=
    ⟨by decide +kernel, by decide +kernel, by decide +kernel, by decide +kernel⟩
  have patches : PatchesWith elf droppedLetter (modOff 44 0) ['a'] (List.replicate 16 7) :=
    ⟨considered, by decide +kernel, by decide +kernel, by decide +kernel⟩
  have own : recordedId elf droppedLetter (modOff 44 0) = [] := by decide +kernel
  exact (right droppedLetter named elf 44 0 droppedLetter _ comes (patches.patched comes.inside_before)).1 own

end Crashomon.Proofs.RecordedPaths
