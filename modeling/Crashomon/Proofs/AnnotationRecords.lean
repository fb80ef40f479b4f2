import Crashomon.Daemon.MinidumpReader
import Mathlib.Data.List.Induction

/-! Which texts the daemon takes for length-prefixed records of a dump. Its bounds checks
are 32-bit sums; one that wraps lets a length through that the file does not have. -/

namespace Crashomon.Proofs.AnnotationRecords
open Bytes Daemon.MinidumpReader

/-- The text is the record at that offset: as many bytes as the length there says, inside the file. -/
def RecordAt (buf : Buffer) (rva : Nat) (text : ByteString) : Prop :=
  rva + 4 + word buf rva ≤ buf.length ∧ text = slice buf (rva + 4) (word buf rva)

instance (buf : Buffer) (rva : Nat) (text : ByteString) : Decidable (RecordAt buf rva text) :=
  inferInstanceAs (Decidable (_ ∧ _))

/-- A length that passes the wrapped check has its bytes in the file, where the text is taken from. -/
def StringExact (buf : Buffer) (rva : Nat) : Prop :=
  rva ≠ 0 → rva + 4 ≤ buf.length → word buf rva ≠ 0 → u32 (rva + 4 + word buf rva) ≤ buf.length → u32 (rva + 4) < buf.length →
    rva + 4 + word buf rva ≤ buf.length ∧ slice buf (u32 (rva + 4)) (word buf rva) = slice buf (rva + 4) (word buf rva)

section Strings
variable {buf : Buffer} {rva : Nat}

theorem readUtf8Str_header (absent : rva = 0 ∨ buf.length < rva + 4) : readUtf8Str buf rva = [] := by
  unfold readUtf8Str
  split
  next => rfl
  next passes =>
    have outside : buf.length < rva + 4 := by omega
    have nothing : readU32Le buf rva = 0 := if_pos outside
    rw [nothing]
    exact if_pos (Or.inl rfl)

theorem readUtf8Str_inside (present : rva ≠ 0) (inside : rva + 4 ≤ buf.length) :
    readUtf8Str buf rva =
      if word buf rva = 0 ∨ buf.length < u32 (rva + 4 + word buf rva) then [] else slice buf (u32 (rva + 4)) (word buf rva) := by
  have passes : ¬ (rva = 0 ∨ u32 (rva + 4) > buf.length) := by
    have wrapped := u32_le (rva + 4)
    omega
  have length : readU32Le buf rva = word buf rva := if_neg (Nat.not_lt.mpr inside)
  rw [readUtf8Str, if_neg passes, length]

theorem slice_eq_nil_iff {offset length : Nat} (positive : length ≠ 0) : slice buf offset length = [] ↔ buf.length ≤ offset := by
  rw [slice, List.take_eq_nil_iff, List.drop_eq_nil_iff]
  exact or_iff_right positive

/-- A text that is read is a record exactly when no check has let a wrapped sum through. -/
theorem readUtf8Str_exact_iff :
    (readUtf8Str buf rva = [] ∨ RecordAt buf rva (readUtf8Str buf rva)) ↔ StringExact buf rva := by
  by_cases header : rva = 0 ∨ buf.length < rva + 4
  · refine iff_of_true (Or.inl (readUtf8Str_header header)) fun present inside => ?_
    rcases header with zero | outside
    · exact absurd zero present
    · omega
  have present : rva ≠ 0 := fun zero => header (Or.inl zero)
  have inside : rva + 4 ≤ buf.length := Nat.not_lt.mp fun outside => header (Or.inr outside)
  rw [readUtf8Str_inside present inside]
  by_cases rejected : word buf rva = 0 ∨ buf.length < u32 (rva + 4 + word buf rva)
  · rw [if_pos rejected]
    refine iff_of_true (Or.inl rfl) fun _ _ positive passes => ?_
    rcases rejected with zero | large
    · exact absurd zero positive
    · omega
  have positive : word buf rva ≠ 0 := fun zero => rejected (Or.inl zero)
  have passes : u32 (rva + 4 + word buf rva) ≤ buf.length := Nat.not_lt.mp fun large => rejected (Or.inr large)
  rw [if_neg rejected, slice_eq_nil_iff positive]
  constructor
  · rintro (beyond | record) _ _ _ _ starts
    · omega
    · exact record
  · intro exactly
    by_cases starts : u32 (rva + 4) < buf.length
    · exact Or.inr (exactly present inside positive passes starts)
    · exact Or.inl (Nat.not_lt.mp starts)

end Strings

section Dictionary
variable {buf : Buffer}

/-- The keys of a dictionary's entries as far as they are read, with the offsets of their values. -/
def dictionaryEntries (buf : Buffer) (dictRva : Nat) : (remaining i : Nat) → List (ByteString × Nat)
  | 0, _ => []
  | remaining + 1, i =>
    let entryOff := u32 (dictRva + kDictCountSize + i * kDictEntrySize)
    if u32 (entryOff + kDictEntrySize) > buf.length then []
    else (readUtf8Str buf (readU32Le buf entryOff), readU32Le buf (u32 (entryOff + 4))) ::
      dictionaryEntries buf dictRva remaining (i + 1)

/-- The entries that the daemon reads of a file. -/
def annotationEntries (buf : Buffer) : List (ByteString × Nat) :=
  if buf.length < kMdmpHeaderSize ∨ readU32Le buf 0 ≠ kMdmpSignature then []
  else
    let streamRva := findCrashpadStream buf (readU32Le buf 12) (readU32Le buf 8) 0
    if streamRva = 0 ∨ u32 (streamRva + kCrashpadInfoMinSize) > buf.length then []
    else if readU32Le buf streamRva ≠ 1 then []
    else
      let dictSize := readU32Le buf (u32 (streamRva + 36))
      let dictRva := readU32Le buf (u32 (streamRva + 40))
      if dictRva = 0 ∨ dictSize < kDictCountSize then []
      else if u32 (dictRva + dictSize) > buf.length then []
      else dictionaryEntries buf dictRva (readU32Le buf dictRva) 0

def storeNamed (buf : Buffer) (info : Annotations) (entry : ByteString × Nat) : Annotations :=
  storeEntry info entry.1 (readUtf8Str buf entry.2)

theorem readDictionary_eq (dictRva remaining i : Nat) (info : Annotations) :
    readDictionary buf dictRva remaining i info = (dictionaryEntries buf dictRva remaining i).foldl (storeNamed buf) info := by
  induction remaining generalizing i info with
  | zero => rfl
  | succ remaining ih =>
    rw [readDictionary, dictionaryEntries]
    dsimp only
    split
    next => rfl
    next => exact ih (i + 1) _

theorem extractCrashpadAnnotations_eq (info : Annotations) :
    extractCrashpadAnnotations buf info = (annotationEntries buf).foldl (storeNamed buf) info := by
  unfold extractCrashpadAnnotations annotationEntries
  dsimp only
  split
  next => rfl
  next =>
    split
    next => rfl
    next =>
      split
      next => rfl
      next =>
        split
        next => rfl
        next =>
          split
          next => rfl
          next => exact readDictionary_eq _ _ _ _

/-- Where the last entry with the key has its value. -/
def lastNamed (key : ByteString) (entries : List (ByteString × Nat)) : Option Nat :=
  ((entries.filter fun entry => entry.1 = key).getLast?).map Prod.snd

/-- The last entry with the key decides a text of the annotations. -/
theorem foldl_storeNamed {key : ByteString} {text : Annotations → ByteString}
    (decides : ∀ info name val, text (storeEntry info name val) = if name = key then val else text info)
    (entries : List (ByteString × Nat)) (info : Annotations) :
    text (entries.foldl (storeNamed buf) info) = ((lastNamed key entries).map (readUtf8Str buf)).getD (text info) := by
  induction entries using List.reverseRecOn with
  | nil => rfl
  | append_singleton entries entry ih =>
    rw [List.foldl_append, List.foldl_cons, List.foldl_nil, storeNamed, decides, ih, lastNamed, lastNamed, List.filter_append]
    split
    next named => simp [named]
    next other => simp [other]

theorem abortMessage_storeEntry (info : Annotations) (name val : ByteString) :
    (storeEntry info name val).abortMessage = if name = abortMessageKey then val else info.abortMessage := by
  unfold storeEntry
  split
  next => rfl
  next => split <;> rfl

theorem terminateType_storeEntry (info : Annotations) (name val : ByteString) :
    (storeEntry info name val).terminateType = if name = terminateTypeKey then val else info.terminateType := by
  have apart : abortMessageKey ≠ terminateTypeKey := by decide
  unfold storeEntry
  split
  next abort =>
    have other : name ≠ terminateTypeKey := fun same => apart (abort.symm.trans same)
    rw [if_neg other]
  next => split <;> rfl

/-- A reported text is empty or the record that its entry names. -/
def ReportsRecord (buf : Buffer) (key text : ByteString) : Prop :=
  text = [] ∨ ∃ rva, lastNamed key (annotationEntries buf) = some rva ∧ RecordAt buf rva text

def NamedExact (buf : Buffer) (key : ByteString) : Prop :=
  ∀ rva, lastNamed key (annotationEntries buf) = some rva → StringExact buf rva

theorem reportsRecord_iff {key : ByteString} {text : Annotations → ByteString}
    (decides : ∀ info name val, text (storeEntry info name val) = if name = key then val else text info)
    (empty : text ⟨[], []⟩ = []) :
    ReportsRecord buf key (text (extractCrashpadAnnotations buf ⟨[], []⟩)) ↔ NamedExact buf key := by
  rw [extractCrashpadAnnotations_eq, foldl_storeNamed decides, empty]
  unfold ReportsRecord NamedExact
  cases lastNamed key (annotationEntries buf) with
  | none => simp
  | some rva => simp [← readUtf8Str_exact_iff]

/-- Every string that is read, and each of the two annotations that are reported, is empty or
its record exactly when no wrapped sum has passed a check on the way to it. -/
theorem strings_are_records_iff (buf : Buffer) :
    (∀ rva, (readUtf8Str buf rva = [] ∨ RecordAt buf rva (readUtf8Str buf rva)) ↔ StringExact buf rva) ∧
      (ReportsRecord buf abortMessageKey (extractCrashpadAnnotations buf ⟨[], []⟩).abortMessage ↔
        NamedExact buf abortMessageKey) ∧
      (ReportsRecord buf terminateTypeKey (extractCrashpadAnnotations buf ⟨[], []⟩).terminateType ↔
        NamedExact buf terminateTypeKey) :=
  ⟨fun _ => readUtf8Str_exact_iff, reportsRecord_iff abortMessage_storeEntry rfl, reportsRecord_iff terminateType_storeEntry rfl⟩

end Dictionary

/-- A dump whose only annotation is the abort message "bad". The size of the
dictionary is 12 and the length of the message 3. -/
def annotatedDump (size length : Nat) : Buffer :=
  le32 kMdmpSignature ++ le32 0xA793 ++ le32 1 ++ le32 32 ++ List.replicate 16 0 ++
    le32 kCrashpadInfoType ++ le32 44 ++ le32 44 ++
    le32 1 ++ List.replicate 32 0 ++ le32 size ++ le32 88 ++
    le32 1 ++ le32 100 ++ le32 117 ++
    le32 13 ++ abortMessageKey ++
    le32 length ++ ascii "bad"

/-- With a length that wraps, the rest of the file is reported, which is no record of it. -/
theorem wrapped_length_accepted :
    readUtf8Str (annotatedDump 12 0xFFFFFFF0) 117 = ascii "bad" ∧
      ¬ 117 + 4 + word (annotatedDump 12 0xFFFFFFF0) 117 ≤ (annotatedDump 12 0xFFFFFFF0).length ∧
      (extractCrashpadAnnotations (annotatedDump 12 0xFFFFFFF0) ⟨[], []⟩).abortMessage = ascii "bad" ∧
      ¬ ∃ rva, RecordAt (annotatedDump 12 0xFFFFFFF0) rva (ascii "bad") := by
  refine ⟨by decide +kernel, by decide +kernel, by decide +kernel, ?_⟩
  rintro ⟨rva, record⟩
  have small : rva < 124 := by
    have inside := record.1
    have length : (annotatedDump 12 0xFFFFFFF0).length = 124 := by decide +kernel
    omega
  have none : ∀ rva < 124, ¬ RecordAt (annotatedDump 12 0xFFFFFFF0) rva (ascii "bad") := by decide +kernel
  exact none rva small record

end Crashomon.Proofs.AnnotationRecords
