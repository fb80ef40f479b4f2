import Crashomon.Proofs.AnnotationRecords
import Crashomon.Tools.Symbolizer

/-! The two readers of Crashpad annotations. The daemon adds offsets in 32-bit
registers and checks the declared size of the dictionary; the analyzer does
neither. They report the same texts where no wrapped sum passes a check and the
dictionary is inside the file or has nothing to show. -/

namespace Crashomon.Proofs.AnnotationAgreement
open Bytes Python
open Daemon.MinidumpReader (Annotations readU32Le readUtf8Str storeEntry extractCrashpadAnnotations abortMessageKey
  terminateTypeKey kCrashpadInfoType)
open Tools.Symbolizer (minidumpMagic readUtf8String parseAnnotations readMinidumpAnnotations annotation)
open AnnotationRecords (dictionaryEntries storeNamed lastNamed readUtf8Str_header readUtf8Str_inside readDictionary_eq
  foldl_storeNamed abortMessage_storeEntry terminateType_storeEntry annotatedDump)

/-- A 32-bit sum that passes its check against the size of the file has not wrapped. -/
def Unwrapped (buf : Buffer) (sum : Nat) : Prop := u32 sum ≤ buf.length → sum < 2 ^ 32

instance (buf : Buffer) (sum : Nat) : Decidable (Unwrapped buf sum) := inferInstanceAs (Decidable (_ → _))

def EntryFits (buf : Buffer) (dirRva i : Nat) : Prop := dirRva + i * 12 + 12 ≤ buf.length

/-- Neither program stops before entry `i` of the stream directory. -/
def DirectoryReaches (buf : Buffer) (dirRva i : Nat) : Prop :=
  ∀ j < i, EntryFits buf dirRva j ∧ readU32Le buf (dirRva + j * 12) ≠ kCrashpadInfoType

/-- Entry `i` is the first one of a CrashpadInfo stream. -/
def StreamEntry (buf : Buffer) (dirRva i : Nat) : Prop :=
  DirectoryReaches buf dirRva i ∧ EntryFits buf dirRva i ∧ readU32Le buf (dirRva + i * 12) = kCrashpadInfoType

def streamRva (buf : Buffer) (i : Nat) : Nat := readU32Le buf (readU32Le buf 12 + i * 12 + 8)
def dictSize (buf : Buffer) (stream : Nat) : Nat := readU32Le buf (stream + 36)
def dictRva (buf : Buffer) (stream : Nat) : Nat := readU32Le buf (stream + 40)

/-- The stream names a dictionary that begins in the file. -/
def HasDictionary (buf : Buffer) (stream : Nat) : Prop :=
  stream ≠ 0 ∧ stream + 44 ≤ buf.length ∧ readU32Le buf stream = 1 ∧ dictRva buf stream ≠ 0 ∧ 4 ≤ dictSize buf stream ∧
    dictRva buf stream + 4 ≤ buf.length

def StringStraight (buf : Buffer) (rva : Nat) : Prop :=
  rva ≠ 0 → rva + 4 ≤ buf.length → readU32Le buf rva ≠ 0 → Unwrapped buf (rva + 4 + readU32Le buf rva)

def shownKeys : List ByteString := [abortMessageKey, terminateTypeKey]

/-- The string at an offset, in sums that do not wrap. -/
def exactStr (buf : Buffer) (rva : Nat) : ByteString :=
  if rva = 0 ∨ rva + 4 > buf.length then []
  else if word buf rva = 0 ∨ rva + 4 + word buf rva > buf.length then []
  else slice buf (rva + 4) (word buf rva)

/-- The keys of a dictionary's entries inside the file, with the offsets of their values, in sums that do not wrap. -/
def exactEntries (buf : Buffer) (dictRva : Nat) : (remaining i : Nat) → List (ByteString × Nat)
  | 0, _ => []
  | remaining + 1, i =>
    let entryOff := dictRva + 4 + i * 8
    if entryOff + 8 > buf.length then []
    else (exactStr buf (readU32Le buf entryOff), readU32Le buf (entryOff + 4)) :: exactEntries buf dictRva remaining (i + 1)

def entriesOf (buf : Buffer) (stream : Nat) : List (ByteString × Nat) :=
  exactEntries buf (dictRva buf stream) (readU32Le buf (dictRva buf stream)) 0

/-- The check of the dictionary's declared size, which only the daemon makes. -/
def SizePasses (buf : Buffer) (stream : Nat) : Prop := u32 (dictRva buf stream + dictSize buf stream) ≤ buf.length

/-- The entry at `off` and its key. -/
def EntryStraight (buf : Buffer) (off : Nat) : Prop :=
  Unwrapped buf (off + 8) ∧ (off + 8 ≤ buf.length → StringStraight buf (readU32Le buf off))

/-- The entries as far as they are read, and of their values those that are shown. -/
def DictionaryStraight (buf : Buffer) (stream : Nat) : Prop :=
  (∀ i < readU32Le buf (dictRva buf stream), dictRva buf stream + 4 + i * 8 ≤ buf.length →
    EntryStraight buf (dictRva buf stream + 4 + i * 8)) ∧
    ∀ key ∈ shownKeys, ∀ rva ∈ lastNamed key (entriesOf buf stream), StringStraight buf rva

/-- There is nothing to show in the dictionary. -/
def NothingShown (buf : Buffer) (stream : Nat) : Prop :=
  ∀ key ∈ shownKeys, ∀ rva ∈ lastNamed key (entriesOf buf stream), exactStr buf rva = []

/-- No wrapped sum passes a check on the way to the two annotations. -/
structure SumsStraight (buf : Buffer) : Prop where
  directory : ∀ i < readU32Le buf 8, DirectoryReaches buf (readU32Le buf 12) i →
    Unwrapped buf (readU32Le buf 12 + i * 12 + 12)
  stream : ∀ i < readU32Le buf 8, StreamEntry buf (readU32Le buf 12) i → Unwrapped buf (streamRva buf i + 44)
  dictionary : ∀ i < readU32Le buf 8, StreamEntry buf (readU32Le buf 12) i → HasDictionary buf (streamRva buf i) →
    SizePasses buf (streamRva buf i) → DictionaryStraight buf (streamRva buf i)

/-- Nothing on the way to the two annotations tells the programs apart. -/
structure Straight (buf : Buffer) : Prop extends SumsStraight buf where
  declared : ∀ i < readU32Le buf 8, StreamEntry buf (readU32Le buf 12) i → HasDictionary buf (streamRva buf i) →
    ¬ SizePasses buf (streamRva buf i) → NothingShown buf (streamRva buf i)

section Decidable
variable (buf : Buffer)

instance (dirRva i : Nat) : Decidable (EntryFits buf dirRva i) := inferInstanceAs (Decidable (_ ≤ _))
instance (dirRva i : Nat) : Decidable (DirectoryReaches buf dirRva i) :=
  inferInstanceAs (Decidable (∀ j < i, EntryFits buf dirRva j ∧ readU32Le buf (dirRva + j * 12) ≠ kCrashpadInfoType))
instance (dirRva i : Nat) : Decidable (StreamEntry buf dirRva i) := inferInstanceAs (Decidable (_ ∧ _ ∧ _))
instance (stream : Nat) : Decidable (HasDictionary buf stream) := inferInstanceAs (Decidable (_ ∧ _ ∧ _ ∧ _ ∧ _ ∧ _))
instance (rva : Nat) : Decidable (StringStraight buf rva) := inferInstanceAs (Decidable (_ → _ → _ → _))
instance (stream : Nat) : Decidable (SizePasses buf stream) := inferInstanceAs (Decidable (_ ≤ _))
instance (off : Nat) : Decidable (EntryStraight buf off) := inferInstanceAs (Decidable (_ ∧ (_ → _)))
instance (stream : Nat) : Decidable (DictionaryStraight buf stream) :=
  inferInstanceAs (Decidable ((∀ i < readU32Le buf (dictRva buf stream), dictRva buf stream + 4 + i * 8 ≤ buf.length →
    EntryStraight buf (dictRva buf stream + 4 + i * 8)) ∧
      ∀ key ∈ shownKeys, ∀ rva ∈ lastNamed key (entriesOf buf stream), StringStraight buf rva))
instance (stream : Nat) : Decidable (NothingShown buf stream) :=
  inferInstanceAs (Decidable (∀ key ∈ shownKeys, ∀ rva ∈ lastNamed key (entriesOf buf stream), exactStr buf rva = []))
instance : Decidable (SumsStraight buf) :=
  decidable_of_iff (_ ∧ _ ∧ _) ⟨fun ⟨directory, stream, dictionary⟩ => ⟨directory, stream, dictionary⟩,
    fun ⟨directory, stream, dictionary⟩ => ⟨directory, stream, dictionary⟩⟩
instance : Decidable (Straight buf) :=
  decidable_of_iff (_ ∧ _) ⟨fun ⟨sums, declared⟩ => ⟨sums, declared⟩, fun straight => ⟨straight.toSumsStraight, straight.declared⟩⟩

end Decidable

def IsDump (buf : Buffer) : Prop := 32 ≤ buf.length ∧ slice buf 0 4 = minidumpMagic

/-- What the daemon has stored is what the analyzer's dictionary holds. -/
structure SameTexts (info : Annotations) (dict : List (Text × Text)) : Prop where
  abortMessage : decodeUtf8 info.abortMessage = annotation dict "abort_message".toList
  terminateType : decodeUtf8 info.terminateType = annotation dict "terminate_type".toList

/-- The tombstone and the analyzer's report show the same two texts. -/
def SameReport (file : Buffer) : Prop :=
  ∃ dict, readMinidumpAnnotations file = .ok dict ∧ SameTexts (extractCrashpadAnnotations file ⟨[], []⟩) dict

section Offsets
variable {buf : Buffer} {sum : Nat}

theorem Unwrapped.check (straight : Unwrapped buf sum) : u32 sum ≤ buf.length ↔ sum ≤ buf.length :=
  ⟨fun passes => u32_of_lt (straight passes) ▸ passes, fun fits => Nat.le_trans (u32_le sum) fits⟩

theorem Unwrapped.small (straight : Unwrapped buf sum) (fits : sum ≤ buf.length) : sum < 2 ^ 32 :=
  straight (straight.check.mpr fits)

theorem u32_add (first second : Nat) : u32 (u32 first + second) = u32 (first + second) := Nat.mod_add_mod ..

theorem readU32Le_inside {off : Nat} (inside : off + 4 ≤ buf.length) : readU32Le buf off = word buf off :=
  if_neg (Nat.not_lt.mpr inside)

theorem unpackFrom_eq {off : Nat} (inside : off + 4 ≤ buf.length) : unpackFrom buf off = .ok (readU32Le buf off) := by
  rw [unpackFrom_inside inside, readU32Le_inside inside]

theorem unpackFrom_outside {off : Nat} (outside : ¬ off + 4 ≤ buf.length) : unpackFrom buf off = .error .structError :=
  if_neg outside

end Offsets

section Strings
variable {buf : Buffer}

theorem readUtf8String_eq (buf : Buffer) (rva : Nat) : readUtf8String buf rva = .ok (decodeUtf8 (exactStr buf rva)) := by
  unfold readUtf8String exactStr
  split
  next => rfl
  next header =>
    rw [unpackFrom_inside (by omega), ok_bind]
    split <;> rfl

theorem readUtf8Str_exact {rva : Nat} (straight : StringStraight buf rva) : readUtf8Str buf rva = exactStr buf rva := by
  unfold exactStr
  by_cases header : rva = 0 ∨ rva + 4 > buf.length
  · rw [if_pos header, readUtf8Str_header header]
  · have present : rva ≠ 0 := fun zero => header (Or.inl zero)
    have inside : rva + 4 ≤ buf.length := by omega
    rw [if_neg header, readUtf8Str_inside present inside]
    by_cases empty : word buf rva = 0
    · rw [if_pos (Or.inl empty), if_pos (Or.inl empty)]
    · have unwrapped := straight present inside (by rwa [readU32Le_inside inside])
      rw [readU32Le_inside inside] at unwrapped
      simp only [empty, false_or, gt_iff_lt, ← Nat.not_le, unwrapped.check]
      split
      next => rfl
      next fits =>
        have small : rva + 4 < 2 ^ 32 :=
          Nat.lt_of_le_of_lt (Nat.le_add_right ..) (unwrapped.small (not_not.mp fits))
        rw [u32_of_lt small]

theorem shown_abort (bytes : List UInt8) : decodeUtf8 bytes = "abort_message".toList ↔ bytes = abortMessageKey :=
  decodeUtf8_eq_iff rfl bytes

theorem shown_terminate (bytes : List UInt8) : decodeUtf8 bytes = "terminate_type".toList ↔ bytes = terminateTypeKey :=
  decodeUtf8_eq_iff rfl bytes

theorem decodeUtf8_shown {key : ByteString} (shown : key ∈ shownKeys) (bytes : List UInt8) :
    decodeUtf8 bytes = decodeUtf8 key ↔ bytes = key := by
  rcases List.mem_pair.mp shown with rfl | rfl
  · rw [(shown_abort _).mpr rfl]
    exact shown_abort bytes
  · rw [(shown_terminate _).mpr rfl]
    exact shown_terminate bytes

theorem decodeUtf8_empty (bytes : List UInt8) : decodeUtf8 bytes = [] ↔ bytes = [] := decodeUtf8_eq_iff rfl bytes

end Strings

theorem sameTexts_empty : SameTexts ⟨[], []⟩ [] := ⟨rfl, rfl⟩

theorem annotation_dictSet (dict : List (Text × Text)) (key other value : Text) :
    annotation (dictSet dict key value) other = if other = key then value else annotation dict other := by
  unfold annotation
  rw [lookup_dictSet]
  split
  next => rfl
  next => rfl

section Loops
variable {buf : Buffer}

theorem lastNamed_cons (key : ByteString) (entry : ByteString × Nat) (entries : List (ByteString × Nat)) :
    lastNamed key (entry :: entries) = (lastNamed key entries).or (if entry.1 = key then some entry.2 else none) := by
  unfold lastNamed
  by_cases named : entry.1 = key
  · rw [List.filter_cons_of_pos (by simpa using named), if_pos named]
    cases entries.filter fun entry => entry.1 = key with
    | nil => rfl
    | cons other others => rw [List.getLast?_cons_cons, List.getLast?_eq_some_getLast (List.cons_ne_nil other others)]; rfl
  · rw [List.filter_cons_of_neg (by simpa using named), if_neg named, Option.or_none]

/-- The analyzer shows the value of the last entry with the key. -/
theorem analyzer_entries (dictRva remaining i : Nat) (dict : List (Text × Text)) :
    ∃ final, Tools.Symbolizer.readDictionary buf dictRva remaining i dict = .ok final ∧ ∀ key ∈ shownKeys,
      annotation final (decodeUtf8 key) =
        ((lastNamed key (exactEntries buf dictRva remaining i)).map fun rva => decodeUtf8 (exactStr buf rva)).getD
          ( annotation dict (decodeUtf8 key)) := by
  induction remaining generalizing i dict with
  | zero => exact ⟨dict, rfl, fun _ _ => rfl⟩
  | succ remaining ih =>
    rw [Tools.Symbolizer.readDictionary, exactEntries]
    split
    next => exact ⟨dict, rfl, fun _ _ => rfl⟩
    next inside =>
      rw [unpackFrom_eq (by omega), ok_bind, unpackFrom_eq (by omega), ok_bind, readUtf8String_eq, ok_bind, readUtf8String_eq,
        ok_bind]
      obtain ⟨final, ended, shows⟩ := ih (i + 1) (dictSet dict _ _)
      refine ⟨final, ended, fun key shown => ?_⟩
      rw [shows key shown, lastNamed_cons, annotation_dictSet]
      cases lastNamed key (exactEntries buf dictRva remaining (i + 1)) with
      | some rva => rfl
      | none =>
        simp only [eq_comm (a := decodeUtf8 key), decodeUtf8_shown shown]
        split <;> rfl

theorem dictionaryEntries_exact {dictRva count : Nat}
    (straight : ∀ i < count, dictRva + 4 + i * 8 ≤ buf.length → EntryStraight buf (dictRva + 4 + i * 8)) :
    ∀ {remaining i : Nat}, i + remaining = count → dictRva + 4 + i * 8 ≤ buf.length →
      dictionaryEntries buf dictRva remaining i = exactEntries buf dictRva remaining i := by
  intro remaining
  induction remaining with
  | zero =>
    intro i _ _
    rfl
  | succ remaining ih =>
    intro i total begins
    have entry := straight i (by omega) begins
    have sumOff : u32 (u32 (dictRva + 4 + i * 8) + 8) = u32 (dictRva + 4 + i * 8 + 8) := u32_add ..
    unfold dictionaryEntries exactEntries
    simp only [Daemon.MinidumpReader.kDictCountSize, Daemon.MinidumpReader.kDictEntrySize, sumOff, gt_iff_lt, ← Nat.not_le,
      entry.1.check]
    split
    next => rfl
    next fits =>
      have inside := not_not.mp fits
      have small := entry.1.small inside
      rw [u32_of_lt (by omega : dictRva + 4 + i * 8 < 2 ^ 32), u32_of_lt (by omega : dictRva + 4 + i * 8 + 4 < 2 ^ 32),
        readUtf8Str_exact (entry.2 inside), ih (by omega) (by omega)]

theorem daemonDirectory_cut {dirRva remaining i : Nat} (straight : Unwrapped buf (dirRva + i * 12 + 12))
    (cut : ¬ EntryFits buf dirRva i) : Daemon.MinidumpReader.findCrashpadStream buf dirRva (remaining + 1) i = 0 := by
  have beyond : ¬ u32 (u32 (dirRva + i * 12) + 12) ≤ buf.length := by
    rw [u32_add, straight.check]
    exact cut
  exact if_pos (Nat.not_le.mp beyond)

theorem daemonDirectory_fits {dirRva remaining i : Nat} (straight : Unwrapped buf (dirRva + i * 12 + 12))
    (fits : EntryFits buf dirRva i) :
    Daemon.MinidumpReader.findCrashpadStream buf dirRva (remaining + 1) i =
      if readU32Le buf (dirRva + i * 12) = kCrashpadInfoType then readU32Le buf (dirRva + i * 12 + 8)
      else Daemon.MinidumpReader.findCrashpadStream buf dirRva remaining (i + 1) := by
  have small := straight.small fits
  have inside : ¬ u32 (u32 (dirRva + i * 12) + 12) > buf.length := by
    rw [u32_add, u32_of_lt small]
    exact Nat.not_lt.mpr fits
  have offset : u32 (dirRva + i * 12) = dirRva + i * 12 := u32_of_lt (by omega)
  have rvaOffset : u32 (dirRva + i * 12 + 8) = dirRva + i * 12 + 8 := u32_of_lt (by omega)
  rw [offset] at inside
  simp only [Daemon.MinidumpReader.findCrashpadStream, Daemon.MinidumpReader.kDirEntrySize, offset, rvaOffset, inside, if_false]

theorem analyzerDirectory_cut {dirRva remaining i : Nat} (cut : ¬ EntryFits buf dirRva i) :
    Tools.Symbolizer.findCrashpadStream buf dirRva (remaining + 1) i = .error .structError := by
  unfold EntryFits at cut
  simp only [Tools.Symbolizer.findCrashpadStream]
  by_cases first : dirRva + i * 12 + 4 ≤ buf.length
  · by_cases second : dirRva + i * 12 + 4 + 4 ≤ buf.length
    · have third : ¬ dirRva + i * 12 + 8 + 4 ≤ buf.length := by omega
      rw [unpackFrom_inside first, ok_bind, unpackFrom_inside second, ok_bind, unpackFrom_outside third]
      rfl
    · rw [unpackFrom_inside first, ok_bind, unpackFrom_outside second]
      rfl
  · rw [unpackFrom_outside first]
    rfl

theorem analyzerDirectory_fits {dirRva remaining i : Nat} (fits : EntryFits buf dirRva i) :
    Tools.Symbolizer.findCrashpadStream buf dirRva (remaining + 1) i =
      if readU32Le buf (dirRva + i * 12) = kCrashpadInfoType then .ok (readU32Le buf (dirRva + i * 12 + 8))
      else Tools.Symbolizer.findCrashpadStream buf dirRva remaining (i + 1) := by
  unfold EntryFits at fits
  rw [Tools.Symbolizer.findCrashpadStream, unpackFrom_eq (by omega), ok_bind, unpackFrom_eq (by omega), ok_bind,
    unpackFrom_eq (by omega), ok_bind]
  rfl

theorem DirectoryReaches.next {dirRva i : Nat} (reached : DirectoryReaches buf dirRva i) (fits : EntryFits buf dirRva i)
    (other : readU32Le buf (dirRva + i * 12) ≠ kCrashpadInfoType) : DirectoryReaches buf dirRva (i + 1) := by
  intro j before
  rcases Nat.lt_succ_iff_lt_or_eq.mp before with earlier | here
  · exact reached j earlier
  · exact here ▸ ⟨fits, other⟩

inductive SameStream (buf : Buffer) (dirRva count : Nat) : Nat → Raises Nat → Prop where
  | absent : SameStream buf dirRva count 0 (.ok 0)
  | cut : SameStream buf dirRva count 0 (.error .structError)
  | found {k : Nat} (within : k < count) (entry : StreamEntry buf dirRva k) :
      SameStream buf dirRva count (readU32Le buf (dirRva + k * 12 + 8)) (.ok (readU32Le buf (dirRva + k * 12 + 8)))

theorem findCrashpadStream_same {dirRva count : Nat}
    (straight : ∀ i < count, DirectoryReaches buf dirRva i → Unwrapped buf (dirRva + i * 12 + 12)) :
    ∀ {remaining i : Nat}, i + remaining = count → DirectoryReaches buf dirRva i →
      SameStream buf dirRva count (Daemon.MinidumpReader.findCrashpadStream buf dirRva remaining i)
        (Tools.Symbolizer.findCrashpadStream buf dirRva remaining i) := by
  intro remaining
  induction remaining with
  | zero =>
    intro i _ _
    exact .absent
  | succ remaining ih =>
    intro i total reached
    have unwrapped := straight i (by omega) reached
    by_cases fits : EntryFits buf dirRva i
    · rw [daemonDirectory_fits unwrapped fits, analyzerDirectory_fits fits]
      split
      next type => exact .found (by omega) ⟨reached, fits, type⟩
      next other => exact ih (by omega) (reached.next fits other)
    · rw [daemonDirectory_cut unwrapped fits, analyzerDirectory_cut fits]
      exact .cut

/-- Both find the first CrashpadInfo stream of the directory. -/
theorem analyzer_directory {dirRva k : Nat} (entry : StreamEntry buf dirRva k) :
    ∀ {remaining i : Nat}, i ≤ k → k < i + remaining →
      Tools.Symbolizer.findCrashpadStream buf dirRva remaining i = .ok (readU32Le buf (dirRva + k * 12 + 8)) := by
  intro remaining
  induction remaining with
  | zero =>
    intro i before after
    omega
  | succ remaining ih =>
    intro i before after
    rcases Nat.lt_or_eq_of_le before with earlier | here
    · obtain ⟨fits, other⟩ := entry.1 i earlier
      rw [analyzerDirectory_fits fits, if_neg other]
      exact ih earlier (by omega)
    · rw [analyzerDirectory_fits (here ▸ entry.2.1), here, if_pos entry.2.2]

theorem daemon_directory {dirRva k : Nat} (straight : ∀ i ≤ k, Unwrapped buf (dirRva + i * 12 + 12))
    (entry : StreamEntry buf dirRva k) :
    ∀ {remaining i : Nat}, i ≤ k → k < i + remaining →
      Daemon.MinidumpReader.findCrashpadStream buf dirRva remaining i = readU32Le buf (dirRva + k * 12 + 8) := by
  intro remaining
  induction remaining with
  | zero =>
    intro i before after
    omega
  | succ remaining ih =>
    intro i before after
    rcases Nat.lt_or_eq_of_le before with earlier | here
    · obtain ⟨fits, other⟩ := entry.1 i earlier
      rw [daemonDirectory_fits (straight i before) fits, if_neg other]
      exact ih earlier (by omega)
    · cases here
      rw [daemonDirectory_fits (straight _ before) entry.2.1, if_pos entry.2.2]

end Loops

theorem signature_iff {buf : Buffer} (header : 32 ≤ buf.length) :
    readU32Le buf 0 = Daemon.MinidumpReader.kMdmpSignature ↔ slice buf 0 4 = minidumpMagic := by
  match buf, header with
  | b0 :: b1 :: b2 :: b3 :: rest, header =>
    rw [readU32Le_inside (Nat.le_trans (by decide) header)]
    simp only [word, slice, List.drop_zero, List.take_succ_cons, List.take_zero, leValue, minidumpMagic,
      Daemon.MinidumpReader.kMdmpSignature, List.cons.injEq, ← UInt8.toNat_inj]
    have small0 := b0.toNat_lt
    have small1 := b1.toNat_lt
    have small2 := b2.toNat_lt
    have small3 := b3.toNat_lt
    simp only [UInt8.reduceToNat, and_true, Nat.mul_zero]
    omega

/-- How reading the annotations ends: the analyzer raises where the daemon stores nothing. -/
def SameEnd (info : Annotations) (outcome : Raises (List (Text × Text))) : Prop :=
  (outcome = .error .structError ∧ info = ⟨[], []⟩) ∨ ∃ dict, outcome = .ok dict ∧ SameTexts info dict

theorem sameEnd_nothing : SameEnd ⟨[], []⟩ (.ok []) := Or.inr ⟨[], rfl, sameTexts_empty⟩

/-- What the daemon stores of a dictionary. -/
def storedTexts (buf : Buffer) (stream : Nat) : Annotations :=
  if u32 (dictRva buf stream + dictSize buf stream) > buf.length then ⟨[], []⟩
  else Daemon.MinidumpReader.readDictionary buf (dictRva buf stream) (readU32Le buf (dictRva buf stream)) 0 ⟨[], []⟩

/-- What the analyzer makes of it. -/
def reportedTexts (buf : Buffer) (stream : Nat) : Raises (List (Text × Text)) := do
  let count ← unpackFrom buf (dictRva buf stream)
  Tools.Symbolizer.readDictionary buf (dictRva buf stream) count 0 []

theorem sameTexts_iff {info : Annotations} {dict : List (Text × Text)} :
    SameTexts info dict ↔ decodeUtf8 info.abortMessage = annotation dict (decodeUtf8 abortMessageKey) ∧
      decodeUtf8 info.terminateType = annotation dict (decodeUtf8 terminateTypeKey) := by
  rw [(shown_abort _).mpr rfl, (shown_terminate _).mpr rfl]
  exact ⟨fun same => ⟨same.abortMessage, same.terminateType⟩, fun ⟨abort, terminate⟩ => ⟨abort, terminate⟩⟩

/-- The value of the last entry with the key, in sums that do not wrap. -/
def exactText (buf : Buffer) (stream : Nat) (key : ByteString) : Text :=
  ((lastNamed key (entriesOf buf stream)).map fun rva => decodeUtf8 (exactStr buf rva)).getD []

theorem exactText_nil_iff {buf : Buffer} {stream : Nat} {key : ByteString} :
    exactText buf stream key = [] ↔ ∀ rva ∈ lastNamed key (entriesOf buf stream), exactStr buf rva = [] := by
  unfold exactText
  cases lastNamed key (entriesOf buf stream) with
  | none => exact iff_of_true rfl fun _ found => by cases found
  | some rva =>
    constructor
    · intro empty other found
      cases found
      exact (decodeUtf8_empty _).mp empty
    · intro empty
      exact (decodeUtf8_empty _).mpr (empty rva rfl)

theorem nothingShown_iff {buf : Buffer} {stream : Nat} :
    NothingShown buf stream ↔ exactText buf stream abortMessageKey = [] ∧ exactText buf stream terminateTypeKey = [] := by
  rw [exactText_nil_iff, exactText_nil_iff]
  constructor
  · intro nothing
    exact ⟨nothing _ List.mem_cons_self, nothing _ (List.mem_cons_of_mem _ List.mem_cons_self)⟩
  · rintro ⟨abort, terminate⟩ key shown
    rcases List.mem_pair.mp shown with rfl | rfl
    · exact abort
    · exact terminate

/-- A dictionary that passes the check of its size, read in sums that do not wrap. -/
theorem storedTexts_exact {buf : Buffer} {stream : Nat} (begins : dictRva buf stream + 4 ≤ buf.length) (passes : SizePasses buf stream)
    (straight : DictionaryStraight buf stream) :
    decodeUtf8 (storedTexts buf stream).abortMessage = exactText buf stream abortMessageKey ∧
      decodeUtf8 (storedTexts buf stream).terminateType = exactText buf stream terminateTypeKey := by
  obtain ⟨entries, values⟩ := straight
  have stored : storedTexts buf stream = (entriesOf buf stream).foldl (storeNamed buf) ⟨[], []⟩ := by
    rw [storedTexts, if_neg (Nat.not_lt.mpr passes), readDictionary_eq,
      dictionaryEntries_exact entries (Nat.zero_add _) (by omega)]
    rfl
  have decoded (key : ByteString) (shown : key ∈ shownKeys) :
      decodeUtf8 (((lastNamed key (entriesOf buf stream)).map (readUtf8Str buf)).getD []) = exactText buf stream key := by
    unfold exactText
    cases found : lastNamed key (entriesOf buf stream) with
    | none => rfl
    | some rva => exact congrArg decodeUtf8 (readUtf8Str_exact (values key shown rva found))
  rw [stored, foldl_storeNamed abortMessage_storeEntry, foldl_storeNamed terminateType_storeEntry]
  exact ⟨decoded _ List.mem_cons_self, decoded _ (List.mem_cons_of_mem _ List.mem_cons_self)⟩

/-- Where the daemon reads the dictionary, both show the same; where it does not, the analyzer must have nothing to show. -/
theorem dictionary_texts {buf : Buffer} {stream : Nat} (begins : dictRva buf stream + 4 ≤ buf.length)
    (straight : SizePasses buf stream → DictionaryStraight buf stream) :
    ∃ final, reportedTexts buf stream = .ok final ∧
      (SameTexts (storedTexts buf stream) final ↔ (¬ SizePasses buf stream → NothingShown buf stream)) := by
  obtain ⟨final, ended, shows⟩ := @analyzer_entries buf (dictRva buf stream) (readU32Le buf (dictRva buf stream)) 0 []
  refine ⟨final, by rw [reportedTexts, unpackFrom_eq begins, ok_bind, ended], ?_⟩
  change ∀ key ∈ shownKeys, annotation final (decodeUtf8 key) = exactText buf stream key at shows
  rw [sameTexts_iff, shows _ List.mem_cons_self, shows _ (List.mem_cons_of_mem _ List.mem_cons_self)]
  by_cases passes : SizePasses buf stream
  · exact iff_of_true (storedTexts_exact begins passes (straight passes)) fun fails => absurd passes fails
  · have stored : storedTexts buf stream = ⟨[], []⟩ := if_pos (Nat.not_le.mp passes)
    have empty : decodeUtf8 [] = [] := (decodeUtf8_empty []).mpr rfl
    rw [stored, nothingShown_iff, empty, @eq_comm _ [], @eq_comm _ []]
    exact ⟨fun same _ => same, fun nothing => nothing passes⟩

theorem dictionary_same {buf : Buffer} {stream : Nat}
    (straight : dictRva buf stream + 4 ≤ buf.length → (SizePasses buf stream → DictionaryStraight buf stream) ∧
      (¬ SizePasses buf stream → NothingShown buf stream)) : SameEnd (storedTexts buf stream) (reportedTexts buf stream) := by
  by_cases begins : dictRva buf stream + 4 ≤ buf.length
  · obtain ⟨final, ended, same⟩ := dictionary_texts begins (straight begins).1
    exact Or.inr ⟨final, ended, same.mpr (straight begins).2⟩
  · have empty : readU32Le buf (dictRva buf stream) = 0 := if_pos (Nat.not_le.mp begins)
    rw [reportedTexts, unpackFrom_outside begins, storedTexts, empty]
    refine Or.inl ⟨rfl, ?_⟩
    split
    next => rfl
    next => rfl

theorem stream_same {buf : Buffer} {stream : Nat} (unwrapped : Unwrapped buf (stream + 44))
    (straight : HasDictionary buf stream → (SizePasses buf stream → DictionaryStraight buf stream) ∧
      (¬ SizePasses buf stream → NothingShown buf stream)) :
    SameEnd
      (if stream = 0 ∨ u32 (stream + 44) > buf.length then ⟨[], []⟩
        else if readU32Le buf stream ≠ 1 then ⟨[], []⟩
        else
          let size := readU32Le buf (u32 (stream + 36))
          let rva := readU32Le buf (u32 (stream + 40))
          if rva = 0 ∨ size < 4 then ⟨[], []⟩
          else if u32 (rva + size) > buf.length then ⟨[], []⟩
          else Daemon.MinidumpReader.readDictionary buf rva (readU32Le buf rva) 0 ⟨[], []⟩)
      (if stream = 0 ∨ stream + 44 > buf.length then .ok []
        else do
          let version ← unpackFrom buf stream
          if version ≠ 1 then .ok []
          else do
            let size ← unpackFrom buf (stream + 36)
            let rva ← unpackFrom buf (stream + 40)
            if rva = 0 ∨ size < 4 then .ok []
            else do
              let count ← unpackFrom buf rva
              Tools.Symbolizer.readDictionary buf rva count 0 []) := by
  by_cases absent : stream = 0 ∨ stream + 44 > buf.length
  · have passed : stream = 0 ∨ u32 (stream + 44) > buf.length :=
      absent.imp_right fun beyond => Nat.not_le.mp (mt unwrapped.check.mp (Nat.not_le.mpr beyond))
    rw [if_pos absent, if_pos passed]
    exact sameEnd_nothing
  · have present : stream ≠ 0 := fun zero => absent (Or.inl zero)
    have inside : stream + 44 ≤ buf.length := by omega
    have small := unwrapped.small inside
    have passed : ¬ (stream = 0 ∨ u32 (stream + 44) > buf.length) := by
      rw [u32_of_lt small]
      exact absent
    rw [if_neg absent, if_neg passed, unpackFrom_eq (by omega), ok_bind]
    by_cases version : readU32Le buf stream = 1
    · rw [if_neg (not_not.mpr version), if_neg (not_not.mpr version), unpackFrom_eq (by omega), ok_bind,
        unpackFrom_eq (by omega), ok_bind, u32_of_lt (by omega), u32_of_lt (by omega)]
      change SameEnd (if dictRva buf stream = 0 ∨ dictSize buf stream < 4 then _ else _)
        (if dictRva buf stream = 0 ∨ dictSize buf stream < 4 then _ else _)
      by_cases missing : dictRva buf stream = 0 ∨ dictSize buf stream < 4
      · rw [if_pos missing, if_pos missing]
        exact sameEnd_nothing
      · rw [if_neg missing, if_neg missing]
        exact dictionary_same fun begins =>
          straight ⟨present, inside, version, fun zero => missing (Or.inl zero), by omega, begins⟩
    · rw [if_pos version, if_pos version]
      exact sameEnd_nothing

theorem extract_dump {buf : Buffer} (header : 32 ≤ buf.length) (magic : slice buf 0 4 = minidumpMagic)
    (info : Annotations) :
    extractCrashpadAnnotations buf info =
      let streamRva := Daemon.MinidumpReader.findCrashpadStream buf (readU32Le buf 12) (readU32Le buf 8) 0
      if streamRva = 0 ∨ u32 (streamRva + 44) > buf.length then info
      else if readU32Le buf streamRva ≠ 1 then info
      else
        let dictSize := readU32Le buf (u32 (streamRva + 36))
        let dictRva := readU32Le buf (u32 (streamRva + 40))
        if dictRva = 0 ∨ dictSize < 4 then info
        else if u32 (dictRva + dictSize) > buf.length then info
        else Daemon.MinidumpReader.readDictionary buf dictRva (readU32Le buf dictRva) 0 info := by
  refine if_neg ?_
  rintro (short | other)
  · exact Nat.not_lt.mpr header short
  · exact other ((signature_iff header).mpr magic)

theorem parse_same {buf : Buffer} (header : 32 ≤ buf.length) (magic : slice buf 0 4 = minidumpMagic)
    (straight : Straight buf) : SameEnd (extractCrashpadAnnotations buf ⟨[], []⟩) (parseAnnotations buf) := by
  have streams := findCrashpadStream_same straight.directory (Nat.zero_add _) (fun j before => absurd before (Nat.not_lt_zero j))
  rw [parseAnnotations, unpackFrom_eq (by omega), ok_bind, unpackFrom_eq (by omega), ok_bind,
    extract_dump header magic]
  generalize Daemon.MinidumpReader.findCrashpadStream buf (readU32Le buf 12) (readU32Le buf 8) 0 = stored at streams ⊢
  generalize Tools.Symbolizer.findCrashpadStream buf (readU32Le buf 12) (readU32Le buf 8) 0 = reported at streams ⊢
  cases streams with
  | absent => exact sameEnd_nothing
  | cut => exact Or.inl ⟨rfl, rfl⟩
  | @found i within entry =>
    have unwrapped : Unwrapped buf (streamRva buf i + 44) := straight.stream i within entry
    rw [ok_bind]
    exact stream_same unwrapped fun has => ⟨straight.dictionary i within entry has, straight.declared i within entry has⟩

/-- Both come to the dictionary that the first CrashpadInfo stream names. -/
theorem dictionary_reached {buf : Buffer} (header : 32 ≤ buf.length) (magic : slice buf 0 4 = minidumpMagic)
    (sums : SumsStraight buf) {i : Nat} (within : i < readU32Le buf 8) (entry : StreamEntry buf (readU32Le buf 12) i)
    (has : HasDictionary buf (streamRva buf i)) :
    extractCrashpadAnnotations buf ⟨[], []⟩ = storedTexts buf (streamRva buf i) ∧
      parseAnnotations buf = reportedTexts buf (streamRva buf i) := by
  have unwrapped := sums.stream i within entry
  have straight (j : Nat) (before : j ≤ i) : Unwrapped buf (readU32Le buf 12 + j * 12 + 12) :=
    sums.directory j (by omega) fun k earlier => entry.1 k (by omega)
  have daemon : Daemon.MinidumpReader.findCrashpadStream buf (readU32Le buf 12) (readU32Le buf 8) 0 = streamRva buf i :=
    daemon_directory straight entry (Nat.zero_le i) (by omega)
  have analyzer : Tools.Symbolizer.findCrashpadStream buf (readU32Le buf 12) (readU32Le buf 8) 0 = .ok (streamRva buf i) :=
    analyzer_directory entry (Nat.zero_le i) (by omega)
  rw [extract_dump header magic, parseAnnotations, unpackFrom_eq (by omega), ok_bind, unpackFrom_eq (by omega), ok_bind,
    daemon, analyzer, ok_bind]
  generalize streamRva buf i = stream at has unwrapped ⊢
  obtain ⟨present, inside, version, named, sized, begins⟩ := has
  have small := unwrapped.small inside
  have size : readU32Le buf (u32 (stream + 36)) = dictSize buf stream := by rw [u32_of_lt (by omega)]; rfl
  have rva : readU32Le buf (u32 (stream + 40)) = dictRva buf stream := by rw [u32_of_lt (by omega)]; rfl
  have missing : ¬ (dictRva buf stream = 0 ∨ dictSize buf stream < 4) := by omega
  constructor
  · dsimp only
    rw [u32_of_lt small, size, rva, if_neg (by omega), if_neg (not_not.mpr version)]
    exact if_neg missing
  · rw [if_neg (by omega), unpackFrom_eq (by omega), ok_bind, if_neg (not_not.mpr version), unpackFrom_eq (by omega), ok_bind,
      unpackFrom_eq (by omega), ok_bind]
    exact if_neg missing

/-- The two programs report the same annotations of every file in which no wrapped sum passes a check and the dictionary
passes the check of its size or has nothing to show. Where no wrapped sum passes, they do so of no other file. -/
theorem same_report (file : Buffer) :
    ((IsDump file → Straight file) → SameReport file) ∧
      ((IsDump file → SumsStraight file) → SameReport file → IsDump file → Straight file) := by
  unfold SameReport readMinidumpAnnotations
  by_cases dump : IsDump file
  · have start : ¬ (file.length < 32 ∨ slice file 0 4 ≠ minidumpMagic) := by
      rintro (short | other)
      · exact Nat.not_lt.mpr dump.1 short
      · exact other dump.2
    rw [if_neg start]
    constructor
    · intro straight
      rcases parse_same dump.1 dump.2 (straight dump) with ⟨raised, nothing⟩ | ⟨dict, parsed, same⟩
      · rw [raised, nothing]
        exact ⟨[], rfl, sameTexts_empty⟩
      · rw [parsed]
        exact ⟨dict, rfl, same⟩
    · rintro sums ⟨dict, read, same⟩ _
      refine ⟨sums dump, fun i within entry has => ?_⟩
      obtain ⟨stored, parsed⟩ := dictionary_reached dump.1 dump.2 (sums dump) within entry has
      obtain ⟨final, reported, agree⟩ := dictionary_texts has.2.2.2.2.2 ((sums dump).dictionary i within entry has)
      rw [parsed, reported] at read
      cases read
      rw [stored] at same
      exact agree.mp same
  · have start : file.length < 32 ∨ slice file 0 4 ≠ minidumpMagic := by
      by_cases short : file.length < 32
      · exact Or.inl short
      · exact Or.inr fun magic => dump ⟨Nat.not_lt.mp short, magic⟩
    have skipped : extractCrashpadAnnotations file ⟨[], []⟩ = ⟨[], []⟩ := by
      refine if_pos ?_
      by_cases short : file.length < 32
      · exact Or.inl short
      · exact Or.inr fun signature => dump ⟨Nat.not_lt.mp short, (signature_iff (Nat.not_lt.mp short)).mp signature⟩
    rw [if_pos start, skipped]
    exact ⟨fun _ => ⟨[], rfl, sameTexts_empty⟩, fun _ _ isDump => absurd isDump dump⟩

theorem annotatedDump_same : SameReport (annotatedDump 12 3) ∧ SameReport (annotatedDump 0x1000 0) :=
  ⟨(same_report (annotatedDump 12 3)).1 fun _ => by decide +kernel, (same_report (annotatedDump 0x1000 0)).1 fun _ => by decide +kernel⟩

/-- A length that wraps makes the daemon report the rest of the file; a
dictionary size past the file makes it report nothing. -/
theorem annotations_differ : ¬ SameReport (annotatedDump 12 0xFFFFFFF0) ∧ ¬ SameReport (annotatedDump 0x1000 3) := by
  constructor
  · intro ⟨dict, read, same⟩
    have reported : readMinidumpAnnotations (annotatedDump 12 0xFFFFFFF0) = .ok [("abort_message".toList, [])] := by
      decide +kernel
    have stored : (extractCrashpadAnnotations (annotatedDump 12 0xFFFFFFF0) ⟨[], []⟩).abortMessage = ascii "bad" := by
      decide +kernel
    have texts := same.abortMessage
    rw [stored, ← Except.ok.inj (reported.symm.trans read)] at texts
    exact absurd texts (by decide +kernel)
  · intro ⟨dict, read, same⟩
    have reported : readMinidumpAnnotations (annotatedDump 0x1000 3) = .ok [("abort_message".toList, "bad".toList)] := by
      decide +kernel
    have stored : (extractCrashpadAnnotations (annotatedDump 0x1000 3) ⟨[], []⟩).abortMessage = [] := by
      decide +kernel
    have texts := same.abortMessage
    rw [stored, ← Except.ok.inj (reported.symm.trans read)] at texts
    exact absurd texts (by decide +kernel)

end Crashomon.Proofs.AnnotationAgreement
