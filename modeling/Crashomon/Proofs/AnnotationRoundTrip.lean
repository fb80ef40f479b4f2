import Mathlib.Data.List.Induction
import Mathlib.Data.List.Nodup
import Crashomon.Base.Utf8
import Crashomon.Proofs.AnnotationAgreement

/-! Reading back the annotations of a dump that encodes them. The layout is free:
the dictionary and its strings may stand anywhere in the file. -/

namespace Crashomon.Proofs.AnnotationRoundTrip
open Bytes Python AnnotationAgreement
open Daemon.MinidumpReader (Annotations readU32Le readUtf8Str storeEntry extractCrashpadAnnotations abortMessageKey
  terminateTypeKey kCrashpadInfoType)
open Tools.Symbolizer (minidumpMagic readUtf8String readMinidumpAnnotations)

/-- A length-prefixed record with the text. -/
structure StringAt (buf : Buffer) (rva : Nat) (text : Text) : Prop where
  nonzero : rva ≠ 0
  inside : rva + 4 + (encodeUtf8 text).length ≤ buf.length
  length : word buf rva = (encodeUtf8 text).length
  bytes : slice buf (rva + 4) (encodeUtf8 text).length = encodeUtf8 text

structure DictionaryAt (buf : Buffer) (rva : Nat) (pairs : List (Text × Text)) : Prop where
  inside : rva + 4 + pairs.length * 8 ≤ buf.length
  count : word buf rva = pairs.length
  entries : ∀ i key value, pairs[i]? = some (key, value) →
    StringAt buf (word buf (rva + 4 + i * 8)) key ∧ StringAt buf (word buf (rva + 4 + i * 8 + 4)) value

/-- The CrashpadInfo stream at `rva`, of version 1. -/
structure StreamAt (buf : Buffer) (rva : Nat) (pairs : List (Text × Text)) : Prop where
  inside : rva + 44 ≤ buf.length
  version : word buf rva = 1
  size : word buf (rva + 36) = 4 + 8 * pairs.length
  dictionary : DictionaryAt buf (word buf (rva + 40)) pairs

/-- The dump holds the pairs: its first CrashpadInfo stream has them. -/
structure Encodes (buf : Buffer) (pairs : List (Text × Text)) : Prop where
  small : buf.length < 2 ^ 32 - 64
  header : 32 ≤ buf.length
  magic : slice buf 0 4 = minidumpMagic
  stream : ∃ i < word buf 8, StreamEntry buf (word buf 12) i ∧ StreamAt buf (word buf (word buf 12 + i * 12 + 8)) pairs

def lastValue (pairs : List (Text × Text)) (key : Text) : Option Text := pairs.reverse.lookup key

/-- Each key once, with the last value bound to it. -/
structure LastWins (pairs dict : List (Text × Text)) : Prop where
  distinct : (dict.map Prod.fst).Nodup
  lookup : ∀ key, dict.lookup key = lastValue pairs key

section Dictionary

/-- The dictionary that setting one pair after the other makes. -/
def dictOf (pairs : List (Text × Text)) : List (Text × Text) := pairs.foldl (fun dict pair => dictSet dict pair.1 pair.2) []

theorem dictOf_snoc (pairs : List (Text × Text)) (key value : Text) :
    dictOf (pairs ++ [(key, value)]) = dictSet (dictOf pairs) key value := by
  rw [dictOf, List.foldl_append]
  rfl

theorem lastValue_snoc (pairs : List (Text × Text)) (key value other : Text) :
    lastValue (pairs ++ [(key, value)]) other = if other = key then some value else lastValue pairs other := by
  rw [lastValue, List.reverse_append, List.reverse_singleton, List.singleton_append, List.lookup_cons]
  split
  next found => rw [if_pos (eq_of_beq found)]
  next different => exact (if_neg (ne_of_beq_false different)).symm

theorem mem_keys_dictSet {dict : List (Text × Text)} {key value other : Text} :
    other ∈ (dictSet dict key value).map Prod.fst → other = key ∨ other ∈ dict.map Prod.fst := by
  induction dict with
  | nil =>
    intro member
    exact Or.inl (List.mem_singleton.mp member)
  | cons entry dict ih =>
    obtain ⟨name, old⟩ := entry
    rw [dictSet]
    split
    next =>
      intro member
      exact (List.mem_cons.mp member).imp_right fun later => List.mem_cons_of_mem _ later
    next =>
      intro member
      rcases List.mem_cons.mp member with first | later
      · exact Or.inr (List.mem_cons.mpr (Or.inl first))
      · exact (ih later).imp_right fun before => List.mem_cons_of_mem _ before

theorem nodup_dictSet {dict : List (Text × Text)} {key value : Text} (distinct : (dict.map Prod.fst).Nodup) :
    ((dictSet dict key value).map Prod.fst).Nodup := by
  induction dict with
  | nil => exact List.nodup_singleton key
  | cons entry dict ih =>
    obtain ⟨name, old⟩ := entry
    obtain ⟨fresh, rest⟩ := List.nodup_cons.mp distinct
    rw [dictSet]
    split
    next here =>
      cases here
      exact List.nodup_cons.mpr ⟨fresh, rest⟩
    next elsewhere =>
      refine List.nodup_cons.mpr ⟨fun member => ?_, ih rest⟩
      rcases mem_keys_dictSet member with same | before
      · exact elsewhere same
      · exact fresh before

theorem dictOf_lastWins (pairs : List (Text × Text)) : LastWins pairs (dictOf pairs) := by
  induction pairs using List.reverseRecOn with
  | nil => exact ⟨List.nodup_nil, fun key => rfl⟩
  | append_singleton pairs last ih =>
    obtain ⟨key, value⟩ := last
    rw [dictOf_snoc]
    refine ⟨nodup_dictSet ih.distinct, fun other => ?_⟩
    rw [lookup_dictSet, lastValue_snoc, ih.lookup]

end Dictionary

/-- The two texts that the tombstone shows, as the daemon holds them. -/
def shownOf (pairs : List (Text × Text)) : Annotations where
  abortMessage := encodeUtf8 ((lastValue pairs "abort_message".toList).getD [])
  terminateType := encodeUtf8 ((lastValue pairs "terminate_type".toList).getD [])

theorem shownOf_snoc (pairs : List (Text × Text)) (key value : Text) :
    shownOf (pairs ++ [(key, value)]) = storeEntry (shownOf pairs) (encodeUtf8 key) (encodeUtf8 value) := by
  have abort : encodeUtf8 key = abortMessageKey ↔ "abort_message".toList = key := by
    rw [← shown_abort, decodeUtf8_encodeUtf8, eq_comm]
  have terminate : encodeUtf8 key = terminateTypeKey ↔ "terminate_type".toList = key := by
    rw [← shown_terminate, decodeUtf8_encodeUtf8, eq_comm]
  simp only [shownOf, lastValue_snoc, storeEntry, abort, terminate]
  by_cases first : "abort_message".toList = key
  · have second : ¬ "terminate_type".toList = key := by rw [← first]; decide
    simp only [first, second, if_true, if_false, Option.getD_some]
  · by_cases second : "terminate_type".toList = key
    · simp only [first, second, if_true, if_false, Option.getD_some]
    · simp only [first, second, if_false]

section Strings
variable {buf : Buffer} {rva : Nat} {text : Text}

theorem StringAt.text_of_empty (record : StringAt buf rva text) (empty : word buf rva = 0) : text = [] := by
  have nothing : encodeUtf8 text = [] := List.eq_nil_of_length_eq_zero (record.length ▸ empty)
  rw [← decodeUtf8_encodeUtf8 text, nothing]
  rfl

theorem StringAt.analyzer (record : StringAt buf rva text) : readUtf8String buf rva = .ok text := by
  have inside := record.inside
  have start : ¬ (rva = 0 ∨ rva + 4 > buf.length) := by
    have nonzero := record.nonzero
    omega
  rw [readUtf8String, if_neg start, unpackFrom_inside (by omega), ok_bind]
  by_cases empty : word buf rva = 0
  · rw [if_pos (Or.inl empty), record.text_of_empty empty]
  · have fits : ¬ (word buf rva = 0 ∨ rva + 4 + word buf rva > buf.length) := by
      rw [record.length] at empty ⊢
      omega
    rw [if_neg fits, record.length, record.bytes, decodeUtf8_encodeUtf8]

theorem StringAt.daemon (small : buf.length < 2 ^ 32) (record : StringAt buf rva text) :
    readUtf8Str buf rva = encodeUtf8 text := by
  have inside := record.inside
  have unwrapped : u32 (rva + 4) = rva + 4 := u32_of_lt (by omega)
  have start : ¬ (rva = 0 ∨ u32 (rva + 4) > buf.length) := by
    have nonzero := record.nonzero
    omega
  rw [readUtf8Str, if_neg start, readU32Le_inside (by omega)]
  by_cases empty : word buf rva = 0
  · rw [if_pos (Or.inl empty), record.text_of_empty empty]
    rfl
  · have fits : ¬ (word buf rva = 0 ∨ u32 (rva + 4 + word buf rva) > buf.length) := by
      rw [record.length] at empty ⊢
      rw [u32_of_lt (by omega)]
      omega
    rw [if_neg fits, unwrapped, record.length, record.bytes]

end Strings

section Loops
variable {buf : Buffer} {rva : Nat} {pairs : List (Text × Text)}

theorem analyzer_dictionary (dictionary : DictionaryAt buf rva pairs) :
    ∀ {remaining i : Nat}, i + remaining = pairs.length →
      Tools.Symbolizer.readDictionary buf rva remaining i (dictOf (pairs.take i)) = .ok (dictOf pairs) := by
  intro remaining
  induction remaining with
  | zero =>
    intro i total
    rw [List.take_of_length_le (by omega)]
    rfl
  | succ remaining ih =>
    intro i total
    have within : i < pairs.length := by omega
    have inside := dictionary.inside
    obtain ⟨key, value⟩ := dictionary.entries i pairs[i].1 pairs[i].2 (List.getElem?_eq_getElem within)
    have next : dictSet (dictOf (pairs.take i)) pairs[i].1 pairs[i].2 = dictOf (pairs.take (i + 1)) := by
      rw [← dictOf_snoc, List.take_concat_get' pairs i within]
    rw [Tools.Symbolizer.readDictionary, if_neg (by omega), unpackFrom_inside (by omega), ok_bind,
      unpackFrom_inside (by omega), ok_bind, key.analyzer, ok_bind, value.analyzer, ok_bind, next]
    exact ih (by omega)

theorem daemon_dictionary (small : buf.length < 2 ^ 32 - 64) (dictionary : DictionaryAt buf rva pairs) :
    ∀ {remaining i : Nat}, i + remaining = pairs.length →
      Daemon.MinidumpReader.readDictionary buf rva remaining i (shownOf (pairs.take i)) = shownOf pairs := by
  intro remaining
  induction remaining with
  | zero =>
    intro i total
    rw [List.take_of_length_le (by omega)]
    rfl
  | succ remaining ih =>
    intro i total
    have within : i < pairs.length := by omega
    have inside := dictionary.inside
    obtain ⟨key, value⟩ := dictionary.entries i pairs[i].1 pairs[i].2 (List.getElem?_eq_getElem within)
    have next : storeEntry (shownOf (pairs.take i)) (encodeUtf8 pairs[i].1) (encodeUtf8 pairs[i].2) =
        shownOf (pairs.take (i + 1)) := by
      rw [← shownOf_snoc, List.take_concat_get' pairs i within]
    have offset : u32 (rva + Daemon.MinidumpReader.kDictCountSize + i * Daemon.MinidumpReader.kDictEntrySize) =
        rva + 4 + i * 8 := u32_of_lt (by unfold Daemon.MinidumpReader.kDictCountSize Daemon.MinidumpReader.kDictEntrySize; omega)
    have second : u32 (rva + 4 + i * 8 + 4) = rva + 4 + i * 8 + 4 := u32_of_lt (by omega)
    have fits : ¬ u32 (rva + 4 + i * 8 + Daemon.MinidumpReader.kDictEntrySize) > buf.length := by
      unfold Daemon.MinidumpReader.kDictEntrySize
      rw [u32_of_lt (by omega)]
      omega
    simp only [Daemon.MinidumpReader.readDictionary, offset, second, if_neg fits]
    rw [readU32Le_inside (by omega), readU32Le_inside (by omega), key.daemon (by omega), value.daemon (by omega), next]
    exact ih (by omega)

end Loops

section Stream
variable {buf : Buffer} {pairs : List (Text × Text)}

/-- The header of a dump is neither a stream nor a dictionary. -/
theorem signature_word (header : 32 ≤ buf.length) (magic : slice buf 0 4 = minidumpMagic) : word buf 0 = 0x504D444D := by
  rw [← readU32Le_inside (by omega)]
  exact (signature_iff header).mpr magic

theorem Encodes.found (encoded : Encodes buf pairs) : ∃ stream, stream ≠ 0 ∧ StreamAt buf stream pairs ∧
    Tools.Symbolizer.findCrashpadStream buf (word buf 12) (word buf 8) 0 = .ok stream ∧
    Daemon.MinidumpReader.findCrashpadStream buf (word buf 12) (word buf 8) 0 = stream := by
  obtain ⟨i, within, entry, stream⟩ := encoded.stream
  have inside : word buf 12 + i * 12 + 8 + 4 ≤ buf.length := entry.2.1
  refine ⟨word buf (word buf 12 + i * 12 + 8), fun zero => ?_, stream, ?_, ?_⟩
  · have version := stream.version
    rw [zero, signature_word encoded.header encoded.magic] at version
    exact absurd version (by decide)
  · rw [analyzer_directory entry (Nat.zero_le i) (by omega), readU32Le_inside inside]
  · have small := encoded.small
    rw [daemon_directory (fun j before _ => by omega) entry (Nat.zero_le i) (by omega), readU32Le_inside inside]

theorem DictionaryAt.nonzero (small : buf.length < 2 ^ 32 - 64) (header : 32 ≤ buf.length)
    (magic : slice buf 0 4 = minidumpMagic) {rva : Nat} (dictionary : DictionaryAt buf rva pairs) : rva ≠ 0 := by
  rintro rfl
  have count := dictionary.count
  have inside := dictionary.inside
  rw [signature_word header magic] at count
  omega

theorem analyzer_reads (encoded : Encodes buf pairs) : readMinidumpAnnotations buf = .ok (dictOf pairs) := by
  obtain ⟨stream, nonzero, found, analyzer, _⟩ := encoded.found
  have header := encoded.header
  have inside := found.inside
  have dictionary := found.dictionary
  have present := dictionary.nonzero encoded.small header encoded.magic
  have start : ¬ (buf.length < 32 ∨ slice buf 0 4 ≠ minidumpMagic) := by
    rintro (short | other)
    · omega
    · exact other encoded.magic
  have parsed : Tools.Symbolizer.parseAnnotations buf = .ok (dictOf pairs) := by
    have begins := dictionary.inside
    have sized := found.size
    rw [Tools.Symbolizer.parseAnnotations, unpackFrom_inside (by omega), ok_bind, unpackFrom_inside (by omega), ok_bind,
      analyzer, ok_bind, if_neg (by omega), unpackFrom_inside (by omega), ok_bind, if_neg (not_not.mpr found.version),
      unpackFrom_inside (by omega), ok_bind, unpackFrom_inside (by omega), ok_bind, if_neg (by omega),
      unpackFrom_inside (by omega), ok_bind, dictionary.count]
    exact analyzer_dictionary dictionary (Nat.zero_add _)
  rw [readMinidumpAnnotations, if_neg start, parsed]

theorem daemon_reads (encoded : Encodes buf pairs) : extractCrashpadAnnotations buf ⟨[], []⟩ = shownOf pairs := by
  obtain ⟨stream, nonzero, found, _, daemon⟩ := encoded.found
  have small := encoded.small
  have header := encoded.header
  have inside := found.inside
  have dictionary := found.dictionary
  have present := dictionary.nonzero small header encoded.magic
  have begins := dictionary.inside
  have sized := found.size
  have whole : u32 (word buf (stream + 40) + word buf (stream + 36)) = word buf (stream + 40) + word buf (stream + 36) :=
    u32_of_lt (by omega)
  rw [extract_dump header encoded.magic, readU32Le_inside (by omega), readU32Le_inside (by omega), daemon]
  dsimp only
  rw [u32_of_lt (by omega), u32_of_lt (by omega), u32_of_lt (by omega), if_neg (by omega), readU32Le_inside (by omega),
    if_neg (not_not.mpr found.version), readU32Le_inside (by omega), readU32Le_inside (by omega), if_neg (by omega), whole,
    if_neg (by omega), readU32Le_inside (by omega), dictionary.count]
  exact daemon_dictionary small dictionary (Nat.zero_add _)

end Stream

/-- Both readers give back the pairs that a dump encodes, the last value winning. -/
theorem annotations_round_trip {buf : Buffer} {pairs : List (Text × Text)} (encoded : Encodes buf pairs) :
    (∃ dict, readMinidumpAnnotations buf = .ok dict ∧ LastWins pairs dict) ∧
      (extractCrashpadAnnotations buf ⟨[], []⟩).abortMessage =
        encodeUtf8 ((lastValue pairs "abort_message".toList).getD []) ∧
      (extractCrashpadAnnotations buf ⟨[], []⟩).terminateType =
        encodeUtf8 ((lastValue pairs "terminate_type".toList).getD []) := by
  rw [daemon_reads encoded]
  exact ⟨⟨dictOf pairs, analyzer_reads encoded, dictOf_lastWins pairs⟩, rfl, rfl⟩

/-- A dump that sets the abort message twice, with one record for the key. -/
def repeatedDump : Buffer :=
  minidumpMagic ++ le32 0xA793 ++ le32 1 ++ le32 32 ++ List.replicate 16 0 ++
    le32 kCrashpadInfoType ++ le32 44 ++ le32 44 ++
    le32 1 ++ List.replicate 32 0 ++ le32 20 ++ le32 88 ++
    le32 2 ++ le32 108 ++ le32 125 ++ le32 108 ++ le32 132 ++
    le32 13 ++ abortMessageKey ++ le32 3 ++ ascii "old" ++ le32 3 ++ ascii "new"

def repeatedPairs : List (Text × Text) :=
  [("abort_message".toList, "old".toList), ("abort_message".toList, "new".toList)]

theorem repeatedDump_encodes : Encodes repeatedDump repeatedPairs := by
  refine ⟨by decide +kernel, by decide +kernel, by decide +kernel, 0, by decide +kernel, by decide +kernel, ?_⟩
  refine ⟨by decide +kernel, by decide +kernel, by decide +kernel, by decide +kernel, by decide +kernel, ?_⟩
  intro i key value found
  match i with
  | 0 | 1 =>
    cases found
    constructor <;> constructor <;> decide +kernel
  | i + 2 => cases found

theorem repeatedDump_read :
    (extractCrashpadAnnotations repeatedDump ⟨[], []⟩).abortMessage = ascii "new" ∧
      ∃ dict, readMinidumpAnnotations repeatedDump = .ok dict ∧ LastWins repeatedPairs dict := by
  obtain ⟨read, abort, _⟩ := annotations_round_trip repeatedDump_encodes
  exact ⟨abort.trans (by decide +kernel), read⟩

end Crashomon.Proofs.AnnotationRoundTrip
